import Mathlib
import BearerAuth.Proofs.Config.RoundTrip
import BearerAuth.Proofs.KeyDirectory.Flat
import BearerAuth.Proofs.Keygen.Runs

/-!
# Texts that pairs are generated under

The key generator names files after whatever text it is given.  Where the text has no slash both
files are entries of the directory, and where it is not empty either, the directory is loaded with
the text as its key id.  A service can be told to sign under it only if it is a valid key id; no
valid key id is empty or has a slash.

Main statements: `Keygen.exists_store_of_success` and `Keygen.usable_iff_valid`.
-/

namespace BearerAuth

namespace FileTree

variable {t : FileTree} {directory : Path} {es : Entries} {name : FileName}

/-- The path leads to a file that is an entry of the directory of the other path. -/
def LiesIn (t : FileTree) (directory path : Path) : Prop :=
  ∃ d es name mode content, t.walk directory = .ok d ∧ t.at? d.place = some (.directory es) ∧
    es.find? name = some (.file mode content) ∧ t.walk path = .ok ⟨d.place ++ [name], false⟩

/-- A file whose path is that of the directory with a plain name lies in the directory. -/
theorem liesIn_join {mode : FileMode} {content : Bytes} (h : t.list directory = .ok es)
    (hname : FileName.IsPlain name) (hlength : name.length ≤ maxNameLength)
    (hfile : es.find? name = some (.file mode content)) :
    t.LiesIn directory (directory.join name) := by
  obtain ⟨d, hwalk, hd⟩ := list_eq_ok_iff.mp h
  refine ⟨d, es, name, mode, content, hwalk, hd, hfile, ?_⟩
  rw [walk_join hwalk hd hname (.inr ⟨mode, content, hfile⟩), if_neg (Nat.not_lt.mpr hlength)]

/-- A file is written only if its name can be passed to the system. -/
theorem nul_notMem_of_write {t' : FileTree} {mode : FileMode} {content : Bytes}
    (h : t.write (directory.join name) mode content = .ok t') : nul ∉ name := by
  obtain ⟨d, hwalk, -⟩ := Except.bind_eq_ok_iff.mp h
  obtain ⟨hnul, -, -⟩ := walk_eq_ok_iff.mp hwalk
  intro hmem
  refine hnul ?_
  unfold Path.join
  split
  · exact hmem
  · split
    · exact List.mem_append_right _ hmem
    · exact List.mem_append_right _ (List.mem_cons_of_mem _ hmem)

end FileTree

namespace Keygen

open KeyDirectory (privateName publicName)

variable {t : FileTree} {p : KeyPair} {out kid : String}

/-- The tree behind a run that is asked to write the pair to a directory under a text. -/
def treeBehind (t : FileTree) (p : KeyPair) (out kid : String) : FileTree :=
  (runOnTree t p (.generate ⟨KeyPair.defaultBits, out, some kid⟩)).2

/-- The run succeeds. -/
def Succeeds (t : FileTree) (p : KeyPair) (out kid : String) : Prop :=
  (runOnTree t p (.generate ⟨KeyPair.defaultBits, out, some kid⟩)).1.status = .success

instance (t : FileTree) (p : KeyPair) (out kid : String) : Decidable (Succeeds t p out kid) :=
  inferInstanceAs (Decidable (_ = Status.success))

/-- The entries of a directory with both files of a pair. -/
def pairEntries (kid pem publicPem : String) (mode mode' : FileMode) : Entries :=
  .cons (privateName kid) (.file mode (utf8 pem))
    (.cons (publicName kid) (.file mode' (utf8 publicPem)) .nil)

/-- A run for a text without slashes leaves both files in the directory, and nothing else. -/
theorem exists_list_of_success (hempty : t.list (Path.ofText out) = .ok .nil)
    (hslash : '/' ∉ kid.toList) (hsuccess : Succeeds t p out kid) :
    ∃ pem mode mode', p.privatePem = .ok pem ∧
      (treeBehind t p out kid).list (Path.ofText out) =
        .ok (pairEntries kid pem p.publicPem mode mode') ∧
      (FileName.IsPlain (privateName kid) ∧ (privateName kid).length ≤ FileTree.maxNameLength) ∧
      FileName.IsPlain (publicName kid) ∧ (publicName kid).length ≤ FileTree.maxNameLength := by
  obtain ⟨written, pem, hpem, hprivate, hpublic⟩ := exists_written_of_success hsuccess
  rw [FileTree.makeDirectories_of_list hempty] at hprivate
  have hkidSlash : Path.slash ∉ utf8 kid := fun hmem =>
    hslash ((ascii_mem_utf8_iff (by decide)).mp hmem)
  have hkidNul : FileTree.nul ∉ utf8 kid := by
    have hnul := FileTree.nul_notMem_of_write hprivate
    rw [KeyDirectory.privateName_eq] at hnul
    exact fun hmem => hnul (List.mem_append_left _ hmem)
  have hplain := KeyDirectory.isPlain_privateName hkidSlash hkidNul
  have hplain' := KeyDirectory.isPlain_publicName hkidSlash hkidNul
  obtain ⟨hlength, mode, hlist⟩ := FileTree.list_of_write hempty hplain (.inl rfl) hprivate
  have hname : publicName kid ≠ privateName kid :=
    (KeyDirectory.privateName_ne_publicName kid kid).symm
  have hfree : (Entries.set (privateName kid) (.file mode (utf8 pem)) .nil).IsFree
      (publicName kid) := by
    rw [Entries.IsFree, Entries.find?_set, if_neg hname]
    exact .inl rfl
  obtain ⟨hlength', mode', hlist'⟩ := FileTree.list_of_write hlist hplain' hfree hpublic
  refine ⟨pem, mode, mode', hpem, ?_, ⟨hplain, hlength⟩, hplain', hlength'⟩
  rw [treeBehind, hlist']
  congr 1
  exact if_neg hname

/-- A directory with both files of a pair has nothing but files. -/
theorem isFlat_pairEntries {pem publicPem : String} {mode mode' : FileMode}
    (hplain : FileName.IsPlain (privateName kid)) (hplain' : FileName.IsPlain (publicName kid)) :
    (pairEntries kid pem publicPem mode mode').IsFlat := by
  refine ⟨?_, ?_⟩
  · have hnames : (pairEntries kid pem publicPem mode mode').names =
        [privateName kid, publicName kid] := rfl
    rw [hnames, List.nodup_cons, List.mem_singleton]
    exact ⟨KeyDirectory.privateName_ne_publicName kid kid, List.nodup_singleton _⟩
  · intro e he
    rcases List.mem_pair.mp he with rfl | rfl
    · exact ⟨⟨mode, _, rfl⟩, hplain.slash_notMem⟩
    · exact ⟨⟨mode', _, rfl⟩, hplain'.slash_notMem⟩

/-- The only private file among the files of a pair is that of the pair. -/
theorem privateName_mem_pairEntries {other pem publicPem : String} {mode mode' : FileMode} :
    privateName other ∈ (pairEntries kid pem publicPem mode mode').names ↔ other = kid := by
  have hnames : (pairEntries kid pem publicPem mode mode').names =
      [privateName kid, publicName kid] := rfl
  rw [hnames, List.mem_pair]
  constructor
  · rintro (hprivate | hpublic)
    · exact KeyDirectory.privateName_injective hprivate
    · exact absurd hpublic (KeyDirectory.privateName_ne_publicName other kid)
  · rintro rfl
    exact .inl rfl

/-- Behind a run for a text without slashes both files lie in the directory. -/
theorem liesIn_of_success (hempty : t.list (Path.ofText out) = .ok .nil)
    (hslash : '/' ∉ kid.toList) (hsuccess : Succeeds t p out kid) :
    (treeBehind t p out kid).LiesIn (Path.ofText out) ((Path.ofText out).join (privateName kid)) ∧
      (treeBehind t p out kid).LiesIn (Path.ofText out)
        ((Path.ofText out).join (publicName kid)) := by
  obtain ⟨pem, mode, mode', -, hlist, ⟨hplain, hlength⟩, hplain', hlength'⟩ :=
    exists_list_of_success hempty hslash hsuccess
  have hne : publicName kid ≠ privateName kid :=
    (KeyDirectory.privateName_ne_publicName kid kid).symm
  refine ⟨FileTree.liesIn_join hlist hplain hlength (if_pos rfl),
    FileTree.liesIn_join hlist hplain' hlength' ((if_neg hne).trans (if_pos rfl))⟩

/-- Behind a run for a text without slashes the directory is loaded.  The text is its only key
id, unless it is empty. -/
theorem exists_store_of_success (hempty : t.list (Path.ofText out) = .ok .nil)
    (hdrawn : p.Drawn KeyPair.defaultBits) (hslash : '/' ∉ kid.toList)
    (hsuccess : Succeeds t p out kid) :
    ∃ store, (KeyStore.ofDirectory (treeBehind t p out kid) (Path.ofText out)).1 = .ok store ∧
      store.kids = if kid = "" then [] else [kid] := by
  obtain ⟨pem, mode, mode', hpem, hlist, ⟨hplain, hlength⟩, hplain', -⟩ :=
    exists_list_of_success hempty hslash hsuccess
  have hflat : (pairEntries kid pem p.publicPem mode mode').IsFlat :=
    isFlat_pairEntries hplain hplain'
  have hheld : ∀ other, other ≠ "" →
      privateName other ∈ (pairEntries kid pem p.publicPem mode mode').names →
        ∃ pair, KeyDirectory.pairAt (treeBehind t p out kid) (Path.ofText out)
          [privateName other] other = .ok pair := by
    intro other _ hname
    obtain rfl := privateName_mem_pairEntries.mp hname
    exact ⟨p, KeyDirectory.pairAt_of_drawn hdrawn hpem
      (FileTree.read_join hlist hplain hlength (if_pos rfl))⟩
  obtain ⟨store, hstore⟩ := KeyDirectory.exists_store_of_isFlat hflat hlist hheld
  have hkids : ∀ other, other ∈ store.kids ↔ other ≠ "" ∧ other = kid := by
    intro other
    rw [KeyDirectory.mem_kids_iff_of_isFlat hflat hlist hstore, privateName_mem_pairEntries]
  refine ⟨store, hstore, ?_⟩
  split
  · rename_i hempty
    refine List.eq_nil_iff_forall_not_mem.mpr ?_
    intro other hother
    obtain ⟨hne, rfl⟩ := (hkids other).mp hother
    exact hne hempty
  · rename_i hne
    refine List.perm_singleton.mp ((List.perm_ext_iff_of_nodup (Registry.names_nodup _)
      (List.nodup_singleton kid)).mpr ?_)
    intro other
    rw [List.mem_singleton]
    exact (hkids other).trans ⟨fun h => h.2, fun h => ⟨h ▸ hne, h⟩⟩

/-- A run for the empty text leaves a directory that is loaded as a store without keys. -/
theorem exists_success_without_kid :
    emptyTree.list (Path.ofText "keys") = .ok .nil ∧
      Command.ofArguments ["--out", "keys", "--kid", ""] =
        .generate ⟨KeyPair.defaultBits, "keys", some ""⟩ ∧
      (runOnTree emptyTree Fixtures.primaryPair
        (Command.ofArguments ["--out", "keys", "--kid", ""])).1.status = .success ∧
      ∃ store, (KeyStore.ofDirectory (runOnTree emptyTree Fixtures.primaryPair
        (Command.ofArguments ["--out", "keys", "--kid", ""])).2 (Path.ofText "keys")).1 =
          .ok store ∧ store.kids ≠ [""] := by
  have hempty : emptyTree.list (Path.ofText "keys") = .ok .nil := by rfl
  have hasks : Command.ofArguments ["--out", "keys", "--kid", ""] =
      .generate ⟨KeyPair.defaultBits, "keys", some ""⟩ := by decide +kernel
  have hsuccess : Succeeds emptyTree Fixtures.primaryPair "keys" "" := by decide +kernel
  obtain ⟨store, hstore, hkids⟩ :=
    exists_store_of_success hempty Fixtures.primaryPair_drawn (by decide) hsuccess
  rw [hasks]
  refine ⟨hempty, rfl, hsuccess, store, hstore, ?_⟩
  rw [hkids]
  decide

/-- Behind a run that succeeds a text with a slash is not among the key ids of the directory. -/
theorem slash_notMem_of_success {store : KeyStore} (hstart : t.HasDirectory t.workingDirectory)
    (hempty : t.list (Path.ofText out) = .ok .nil) (hsuccess : Succeeds t p out kid)
    (hload : (KeyStore.ofDirectory (treeBehind t p out kid) (Path.ofText out)).1 = .ok store)
    {other : String} (hother : other ∈ store.kids) : other ≠ "" ∧ '/' ∉ other.toList := by
  obtain ⟨written, pem, -, hprivate, hpublic⟩ := exists_written_of_success hsuccess
  rw [FileTree.makeDirectories_of_list hempty] at hprivate
  obtain ⟨es, hlist, hflat⟩ :=
    FileTree.exists_list_of_write hstart Entries.IsFlat.nil hempty hprivate
  obtain ⟨place, hplace⟩ := FileTree.exists_writtenAt hstart hprivate
  obtain ⟨es', hlist', hflat'⟩ := FileTree.exists_list_of_write
    (hplace.hasDirectory_workingDirectory hstart) hflat hlist hpublic
  exact KeyDirectory.slash_notMem_of_mem_kids hflat' hlist' hload hother

/-- The text has become usable as a key id: both files lie in the directory, which is loaded with no
other key id, and a service can be told to sign under it. -/
structure Usable (t : FileTree) (out kid : String) : Prop where
  privateLies : t.LiesIn (Path.ofText out) ((Path.ofText out).join (privateName kid))
  publicLies : t.LiesIn (Path.ofText out) ((Path.ofText out).join (publicName kid))
  loaded : ∃ store, (KeyStore.ofDirectory t (Path.ofText out)).1 = .ok store ∧ store.kids = [kid]
  accepted : ∀ leeway, ∃ config, AuthConfig.build kid leeway none = .ok config

/-- A service can be told to sign under valid key ids only. -/
theorem exists_standard_build_iff (leeway : Duration) :
    (∃ config, AuthConfig.build kid leeway none = .ok config) ↔ KeyId.Valid kid := by
  constructor
  · exact fun h => (AuthConfig.exists_build_iff.mp h).1
  · intro h
    exact ⟨⟨kid, leeway, AuthConfig.standardRules, h, by decide +kernel, by decide +kernel⟩,
      AuthConfig.build_eq_ok_iff.mpr ⟨rfl, rfl, rfl⟩⟩

/-- What a pair can be used for that was generated under a text.  A run that succeeds in an empty
directory makes the text usable if and only if it is a valid key id.  Both files lie in the
directory where the text has no slash, and the directory has the text as its only key id just where
it is not empty either; for a service it has to be a valid key id in any case. -/
theorem usable_iff_valid {arguments : List String} (hstart : t.HasDirectory t.workingDirectory)
    (hempty : t.list (Path.ofText out) = .ok .nil)
    (hasks : Command.ofArguments arguments = .generate ⟨KeyPair.defaultBits, out, some kid⟩)
    (hdrawn : p.Drawn KeyPair.defaultBits)
    (hsuccess : (runOnTree t p (Command.ofArguments arguments)).1.status = .success) :
    (Usable (runOnTree t p (Command.ofArguments arguments)).2 out kid ↔ KeyId.Valid kid) ∧
      ('/' ∉ kid.toList →
        (runOnTree t p (Command.ofArguments arguments)).2.LiesIn (Path.ofText out)
            ((Path.ofText out).join (privateName kid)) ∧
          (runOnTree t p (Command.ofArguments arguments)).2.LiesIn (Path.ofText out)
            ((Path.ofText out).join (publicName kid))) ∧
      ((∃ store, (KeyStore.ofDirectory (runOnTree t p (Command.ofArguments arguments)).2
          (Path.ofText out)).1 = .ok store ∧ store.kids = [kid]) ↔
        kid ≠ "" ∧ '/' ∉ kid.toList) ∧
      ∀ leeway, (∃ config, AuthConfig.build kid leeway none = .ok config) ↔ KeyId.Valid kid := by
  rw [hasks] at hsuccess ⊢
  have hlies := fun hslash => liesIn_of_success hempty hslash hsuccess
  have hloaded : (∃ store, (KeyStore.ofDirectory (treeBehind t p out kid)
      (Path.ofText out)).1 = .ok store ∧ store.kids = [kid]) ↔ kid ≠ "" ∧ '/' ∉ kid.toList := by
    constructor
    · rintro ⟨store, hload, hkids⟩
      refine slash_notMem_of_success hstart hempty hsuccess hload ?_
      rw [hkids]
      exact List.mem_singleton_self kid
    · rintro ⟨hne, hslash⟩
      obtain ⟨store, hload, hkids⟩ := exists_store_of_success hempty hdrawn hslash hsuccess
      exact ⟨store, hload, hkids.trans (if_neg hne)⟩
  refine ⟨⟨?_, ?_⟩, hlies, hloaded, exists_standard_build_iff⟩
  · intro h
    exact (exists_standard_build_iff Duration.zero).mp (h.accepted Duration.zero)
  · intro hvalid
    have hne : kid ≠ "" := ((KeyId.check_eq_ok_iff kid).mp hvalid).1
    have hslash : '/' ∉ kid.toList := fun hmem =>
      (KeyId.bytes_of_valid hvalid).2.1 ((ascii_mem_utf8_iff (by decide)).mpr hmem)
    obtain ⟨hprivate, hpublic⟩ := hlies hslash
    exact ⟨hprivate, hpublic, hloaded.mpr ⟨hne, hslash⟩,
      fun leeway => (exists_standard_build_iff leeway).mpr hvalid⟩

/-- A run that is asked to write to a directory under a text that leads above it. -/
def aboveArguments : List String :=
  ["--out", "keys", "--kid", "../up"]

/-- Such a run succeeds, and the text is not usable; the directory is not even loaded with it. -/
theorem usable_iff_valid_above :
    emptyTree.HasDirectory emptyTree.workingDirectory ∧
      emptyTree.list (Path.ofText "keys") = .ok .nil ∧
      Command.ofArguments aboveArguments =
        .generate ⟨KeyPair.defaultBits, "keys", some "../up"⟩ ∧
      (runOnTree emptyTree Fixtures.primaryPair
        (Command.ofArguments aboveArguments)).1.status = .success ∧
      ¬ Usable (runOnTree emptyTree Fixtures.primaryPair
        (Command.ofArguments aboveArguments)).2 "keys" "../up" ∧
      ¬ ∃ store, (KeyStore.ofDirectory (runOnTree emptyTree Fixtures.primaryPair
        (Command.ofArguments aboveArguments)).2 (Path.ofText "keys")).1 = .ok store ∧
          store.kids = ["../up"] := by
  have hstart : emptyTree.HasDirectory emptyTree.workingDirectory := ⟨_, rfl⟩
  have hempty : emptyTree.list (Path.ofText "keys") = .ok .nil := by rfl
  have hasks : Command.ofArguments aboveArguments =
      .generate ⟨KeyPair.defaultBits, "keys", some "../up"⟩ := by decide +kernel
  have hsuccess : (runOnTree emptyTree Fixtures.primaryPair
      (Command.ofArguments aboveArguments)).1.status = .success := by decide +kernel
  obtain ⟨husable, -, hloaded, -⟩ :=
    usable_iff_valid hstart hempty hasks Fixtures.primaryPair_drawn hsuccess
  refine ⟨hstart, hempty, hasks, hsuccess, ?_, ?_⟩
  · rw [husable]
    decide +kernel
  · rw [hloaded]
    decide

end Keygen

end BearerAuth
