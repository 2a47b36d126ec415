import Mathlib
import BearerAuth.KeyDirectory
import BearerAuth.KeyId
import BearerAuth.Proofs.FileTree.Access
import BearerAuth.Proofs.FileTree.Listing
import BearerAuth.Proofs.KeyPair.Drawn
import BearerAuth.Proofs.Registry

/-!
# Directories that hold a store

A directory of key files stands for a store: two files for every registered pair, named after its
key id, and nothing else.  Which name is for which key id is not ambiguous, whatever dots a key id
has, so loading the directory yields the store, in whatever order its files are listed.

Main statements: `KeyDirectory.Holds.insert` and `KeyDirectory.ofDirectory_of_holds`.
-/

namespace BearerAuth

/-! ### Names -/

namespace KeyId

/-- The bytes of a key id make up a part of a file name. -/
theorem bytes_of_valid {kid : String} (h : Valid kid) :
    utf8 kid ≠ [] ∧ Path.slash ∉ utf8 kid ∧ FileTree.nul ∉ utf8 kid := by
  obtain ⟨hne, -, hgraphic, hstays⟩ := (check_eq_ok_iff kid).mp h
  have hsmall : ∀ c ∈ kid.toList, 0x21 ≤ c.toNat ∧ c.toNat ≤ 0x7E := by
    intro c hc
    simpa [isGraphic] using hgraphic c hc
  have hbytes : utf8 kid = kid.toList.map ascii := by
    conv => lhs; rw [← String.ofList_toList (s := kid)]
    exact utf8_ofList_of_lt fun c hc => lt_of_le_of_lt (hsmall c hc).2 (by decide)
  have hnoSlash : '/' ∉ kid.toList := by
    intro hmem
    have hleaves : leavesDirectory kid.toList = true := by
      have hany : kid.toList.any (fun c => c = '/' || c = '\\') = true :=
        List.any_eq_true.mpr ⟨'/', hmem, by decide⟩
      rw [leavesDirectory, hany, Bool.true_or]
    rw [hstays] at hleaves
    cases hleaves
  rw [hbytes]
  refine ⟨?_, ?_, ?_⟩
  · rw [ne_eq, List.map_eq_nil_iff, String.toList_eq_nil_iff]
    exact hne
  · intro hmem
    obtain ⟨c, hc, heq⟩ := List.mem_map.mp hmem
    obtain rfl : c = '/' :=
      ascii_injOn (lt_of_le_of_lt (hsmall c hc).2 (by decide)) (by decide) heq
    exact hnoSlash hc
  · intro hmem
    obtain ⟨c, hc, heq⟩ := List.mem_map.mp hmem
    have hzero : (ascii c).toNat = 0 := congrArg UInt8.toNat heq
    rw [toNat_ascii (lt_of_le_of_lt (hsmall c hc).2 (by decide))] at hzero
    have hlow := (hsmall c hc).1
    omega

end KeyId

namespace KeyDirectory

/-- The name of the file of a private half. -/
def privateName (kid : String) : FileName := Path.ofText (kid ++ ".pem")

/-- The name of the file of a public half. -/
def publicName (kid : String) : FileName := Path.ofText (kid ++ ".pub")

variable {kid : String}

theorem privateName_eq (kid : String) : privateName kid = utf8 kid ++ ascii '.' :: utf8 "pem" := by
  rw [privateName, Path.ofText, Bytes.utf8_append]
  rfl

theorem publicName_eq (kid : String) : publicName kid = utf8 kid ++ ascii '.' :: utf8 "pub" := by
  rw [publicName, Path.ofText, Bytes.utf8_append]
  rfl

/-- A text without slashes with an ending is a plain name. -/
theorem isPlain_append (hslash : Path.slash ∉ utf8 kid) (hnul : FileTree.nul ∉ utf8 kid)
    {ending : Bytes} (hendingSlash : Path.slash ∉ ending) (hendingNul : FileTree.nul ∉ ending)
    (hlength : 3 ≤ ending.length) : FileName.IsPlain (utf8 kid ++ ending) := by
  have hlong : 3 ≤ (utf8 kid ++ ending).length := by
    rw [List.length_append]
    omega
  refine ⟨?_, by simp [hslash, hendingSlash], by simp [hnul, hendingNul], ?_, ?_⟩
  · intro heq
    rw [heq] at hlong
    exact absurd hlong (by decide)
  · intro heq
    rw [heq] at hlong
    exact absurd hlong (by decide)
  · intro heq
    rw [heq] at hlong
    exact absurd hlong (by decide)

theorem isPlain_privateName (hslash : Path.slash ∉ utf8 kid) (hnul : FileTree.nul ∉ utf8 kid) :
    FileName.IsPlain (privateName kid) := by
  rw [privateName_eq]
  exact isPlain_append hslash hnul (by decide) (by decide) (by decide)

theorem isPlain_publicName (hslash : Path.slash ∉ utf8 kid) (hnul : FileTree.nul ∉ utf8 kid) :
    FileName.IsPlain (publicName kid) := by
  rw [publicName_eq]
  exact isPlain_append hslash hnul (by decide) (by decide) (by decide)

/-- The names of the files of a key id are plain. -/
theorem isPlain_of_valid (h : KeyId.Valid kid) :
    FileName.IsPlain (privateName kid) ∧ FileName.IsPlain (publicName kid) := by
  obtain ⟨-, hslash, hnul⟩ := KeyId.bytes_of_valid h
  exact ⟨isPlain_privateName hslash hnul, isPlain_publicName hslash hnul⟩

/-- Two key ids do not share a private file. -/
theorem privateName_injective {kid other : String} (h : privateName kid = privateName other) :
    kid = other := by
  rw [privateName_eq, privateName_eq] at h
  exact Bytes.utf8_injective (List.append_cancel_right h)

/-- Two key ids do not share a public file. -/
theorem publicName_injective {kid other : String} (h : publicName kid = publicName other) :
    kid = other := by
  rw [publicName_eq, publicName_eq] at h
  exact Bytes.utf8_injective (List.append_cancel_right h)

/-- A private file is not the public file of another key id. -/
theorem privateName_ne_publicName (kid other : String) : privateName kid ≠ publicName other := by
  intro h
  rw [privateName_eq, publicName_eq] at h
  have hlast := congrArg List.getLast? h
  rw [List.getLast?_append_cons, List.getLast?_append_cons] at hlast
  exact absurd hlast (by decide)

/-- The private file is a key file, and its name leads back to the key id. -/
theorem isKeyFile_privateName (h : KeyId.Valid kid) :
    isKeyFile (privateName kid) = true ∧ kidOf? [privateName kid] = some kid := by
  have hsplit : FileName.splitExtension? (privateName kid) = some (utf8 kid, utf8 "pem") := by
    rw [privateName_eq]
    exact FileName.splitExtension?_append (KeyId.bytes_of_valid h).1 (by decide)
  constructor
  · rw [isKeyFile, FileName.extension?, hsplit]
    rfl
  · rw [kidOf?, List.getLast?_singleton, Option.bind_some, FileName.stem, hsplit]
    exact Bytes.text?_utf8 kid

/-- The public file is no key file. -/
theorem isKeyFile_publicName (h : KeyId.Valid kid) : isKeyFile (publicName kid) = false := by
  have hsplit : FileName.splitExtension? (publicName kid) = some (utf8 kid, utf8 "pub") := by
    rw [publicName_eq]
    exact FileName.splitExtension?_append (KeyId.bytes_of_valid h).1 (by decide)
  have hending : decide (some (utf8 "pub") = some extension) = false := by decide
  rw [isKeyFile, FileName.extension?, hsplit]
  exact hending

/-! ### Files -/

/-- In a directory of files the key files are those of the names that key files have. -/
theorem keyFiles_of_files : ∀ {es : Entries},
    (∀ e ∈ es.toList, ∃ mode content, e.2 = .file mode content) →
      keyFiles es = (es.names.filter isKeyFile).map ([·])
  | .nil, _ => rfl
  | .cons name node rest, h => by
    obtain ⟨mode, content, rfl⟩ := h (name, node) List.mem_cons_self
    have hrest := keyFiles_of_files fun e he => h e (List.mem_cons_of_mem _ he)
    have hnames : (Entries.cons name (.file mode content) rest).names = name :: rest.names := rfl
    rw [keyFiles, keyFilesUnder, hrest, hnames, List.filter_cons]
    split <;> rfl

/-! ### Directories that can be listed -/

/-- In all places below the path where the node has a directory, this can be listed. -/
def ListsBelow (fs : FileSystem) (path : Path) (node : Node) : Prop :=
  ∀ place es, node.at? place = some (.directory es) →
    fs.refusal? .list (pathBelow path place) = none

section ListsBelow

variable {fs : FileSystem} {es : Entries} {directory : Path}

/-- Where no listing is refused all directories can be listed. -/
theorem listsBelow_lenient (t : FileTree) (path : Path) (node : Node) : ListsBelow t path node :=
  fun _ _ _ => rfl

/-- What can be listed below a directory can be listed below its entries. -/
theorem ListsBelow.forall_entries (h : ListsBelow fs directory (.directory es))
    (honce : (Node.directory es).ListsOnce) :
    ∀ e ∈ es.toList, e.2.ListsOnce ∧ ListsBelow fs (directory.join e.1) e.2 := by
  intro e he
  have hfind : es.find? e.1 = some e.2 := Entries.find?_of_mem_toList (honce [] es rfl) he
  have hat : ∀ place, (Node.directory es).at? (e.1 :: place) = e.2.at? place := by
    intro place
    rw [Node.at?, hfind]
  exact ⟨honce.of_at? ((hat []).trans rfl), fun place below hbelow =>
    h (e.1 :: place) below ((hat place).trans hbelow)⟩

mutual

theorem unlisted?_eq_none_of_forall : ∀ {es : Entries} {directory : Path},
    (∀ e ∈ es.toList, e.2.ListsOnce ∧ ListsBelow fs (directory.join e.1) e.2) →
      unlisted? fs directory es = none
  | .nil, _, _ => rfl
  | .cons name node rest, directory, h => by
    obtain ⟨honce, hbelow⟩ := h (name, node) List.mem_cons_self
    rw [unlisted?, unlistedUnder?_eq_none honce hbelow, Option.none_or]
    exact unlisted?_eq_none_of_forall fun e he => h e (List.mem_cons_of_mem _ he)

theorem unlistedUnder?_eq_none : ∀ {node : Node} {path : Path},
    node.ListsOnce → ListsBelow fs path node → unlistedUnder? fs path node = none
  | .file .., _, _, _ => rfl
  | .link _, _, _, _ => rfl
  | .directory es, path, honce, hbelow => by
    have hlisted : fs.refusal? .list path = none := hbelow [] es rfl
    rw [unlistedUnder?, hlisted]
    exact unlisted?_eq_none_of_forall (hbelow.forall_entries honce)

end

/-- Where all directories can be listed, loading comes to the key files. -/
theorem ofDirectory_of_listsBelow (honce : (Node.directory es).ListsOnce)
    (hlist : fs.list directory = .ok es) (hbelow : ListsBelow fs directory (.directory es)) :
    KeyStore.ofDirectory fs directory =
      loadAll fs directory ((keyFiles es).mergeSort precedes) KeyStore.empty := by
  rw [KeyStore.ofDirectory, hlist]
  dsimp only
  rw [unlisted?_eq_none_of_forall (hbelow.forall_entries honce)]

end ListsBelow

/-! ### Directories that hold a store -/

/-- The files of a directory are those of the pairs of a store: the texts of both halves of every
pair stand in its private and its public file, and there are no other files. -/
structure Holds (es : Entries) (s : KeyStore) : Prop where
  nodup : es.names.Nodup
  registered : ∀ kid p, s.pairs.find? kid = some p →
    KeyId.Valid kid ∧ p.Drawn KeyPair.defaultBits ∧
      (privateName kid).length ≤ FileTree.maxNameLength ∧
      ∃ pem mode, p.privatePem = .ok pem ∧
        es.find? (privateName kid) = some (.file mode (utf8 pem))
  published : ∀ kid p, s.pairs.find? kid = some p →
    ∃ mode, es.find? (publicName kid) = some (.file mode (utf8 p.publicPem))
  named : ∀ e ∈ es.toList, (∃ mode content, e.2 = .file mode content) ∧
    ∃ kid p, s.pairs.find? kid = some p ∧ (e.1 = privateName kid ∨ e.1 = publicName kid)

/-- The empty directory holds the empty store. -/
theorem holds_nil : Holds .nil KeyStore.empty := by
  refine ⟨List.nodup_nil, ?_, ?_, ?_⟩
  · intro kid p hfind
    cases hfind
  · intro kid p hfind
    cases hfind
  · intro e he
    cases he

variable {es : Entries} {s : KeyStore}

/-- Files can be written under all names. -/
theorem Holds.isFree (h : Holds es s) (name : FileName) : es.IsFree name := by
  cases hfind : es.find? name with
  | none => exact .inl hfind
  | some node =>
    obtain ⟨⟨mode, content, hnode⟩, -⟩ := h.named _ (Entries.mem_toList_of_find? hfind)
    exact .inr ⟨mode, content, by rw [hfind, ← hnode]⟩

/-- No name is listed twice below the directory. -/
theorem Holds.listsOnce (h : Holds es s) : (Node.directory es).ListsOnce := by
  refine Node.listsOnce_directory h.nodup ?_
  intro e he
  obtain ⟨⟨mode, content, hfile⟩, -⟩ := h.named e he
  rw [hfile]
  exact Node.listsOnce_of_notDirectory rfl

/-- To write both files of a pair is to register the pair. -/
theorem Holds.insert {kid pem : String} {p : KeyPair} {mode mode' : FileMode}
    (h : Holds es s) (hkid : KeyId.Valid kid) (hdrawn : p.Drawn KeyPair.defaultBits)
    (hlength : (privateName kid).length ≤ FileTree.maxNameLength) (hpem : p.privatePem = .ok pem) :
    Holds ((es.set (privateName kid) (.file mode (utf8 pem))).set (publicName kid)
      (.file mode' (utf8 p.publicPem))) (s.insert kid p) := by
  have hpair : (s.insert kid p).pairs.find? kid = some p := by
    rw [KeyStore.insert, Registry.find?_insert, if_pos rfl]
  refine ⟨Entries.nodup_names_set (Entries.nodup_names_set h.nodup), ?_, ?_, ?_⟩
  · intro other q hfind
    rw [KeyStore.insert, Registry.find?_insert] at hfind
    rw [Entries.find?_set, if_neg (privateName_ne_publicName other kid), Entries.find?_set]
    by_cases hother : other = kid
    · rw [if_pos hother] at hfind
      obtain rfl : p = q := Option.some.inj hfind
      subst hother
      exact ⟨hkid, hdrawn, hlength, pem, mode, hpem, if_pos rfl⟩
    · rw [if_neg hother] at hfind
      rw [if_neg fun heq => hother (privateName_injective heq)]
      exact h.registered other q hfind
  · intro other q hfind
    rw [KeyStore.insert, Registry.find?_insert] at hfind
    rw [Entries.find?_set]
    by_cases hother : other = kid
    · rw [if_pos hother] at hfind
      obtain rfl : p = q := Option.some.inj hfind
      exact ⟨mode', if_pos (congrArg publicName hother)⟩
    · rw [if_neg hother] at hfind
      rw [if_neg fun heq => hother (publicName_injective heq), Entries.find?_set,
        if_neg fun heq => privateName_ne_publicName kid other heq.symm]
      exact h.published other q hfind
  · intro e he
    rcases Entries.mem_toList_set he with rfl | he
    · exact ⟨⟨mode', utf8 p.publicPem, rfl⟩, kid, p, hpair, .inr rfl⟩
    · rcases Entries.mem_toList_set he with rfl | he
      · exact ⟨⟨mode, utf8 pem, rfl⟩, kid, p, hpair, .inl rfl⟩
      · obtain ⟨hfile, other, q, hfind, hname⟩ := h.named e he
        refine ⟨hfile, ?_⟩
        by_cases hother : other = kid
        · exact ⟨kid, p, hpair, hother ▸ hname⟩
        · refine ⟨other, q, ?_, hname⟩
          rw [KeyStore.insert, Registry.find?_insert, if_neg hother]
          exact hfind

/-! ### Loading -/

/-- The key files of such a directory are the private files of the registered pairs. -/
theorem Holds.mem_keyFiles_iff (h : Holds es s) {place : Location} :
    place ∈ keyFiles es ↔ ∃ kid ∈ s.kids, place = [privateName kid] := by
  rw [keyFiles_of_files fun e he => (h.named e he).1]
  constructor
  · intro hplace
    obtain ⟨name, hname, rfl⟩ := List.mem_map.mp hplace
    obtain ⟨hmem, hkey⟩ := List.mem_filter.mp hname
    obtain ⟨e, he, rfl⟩ := List.mem_map.mp hmem
    obtain ⟨-, kid, p, hfind, hprivate | hpublic⟩ := h.named e he
    · exact ⟨kid, Registry.mem_names_iff_exists.mpr ⟨p, hfind⟩, by rw [hprivate]⟩
    · rw [hpublic, isKeyFile_publicName (h.registered kid p hfind).1] at hkey
      cases hkey
  · rintro ⟨kid, hmem, rfl⟩
    obtain ⟨p, hfind⟩ := Registry.mem_names_iff_exists.mp hmem
    obtain ⟨hkid, -, -, pem, mode, -, hfile⟩ := h.registered kid p hfind
    exact List.mem_map.mpr ⟨privateName kid,
      List.mem_filter.mpr ⟨Entries.mem_names_of_find? hfile, (isKeyFile_privateName hkid).1⟩, rfl⟩

/-- There is one key file for each registered pair. -/
theorem Holds.length_keyFiles (h : Holds es s) : (keyFiles es).length = s.size := by
  have hnodup : (keyFiles es).Nodup := by
    rw [keyFiles_of_files fun e he => (h.named e he).1]
    exact (h.nodup.filter _).map fun a b hab => (List.cons.inj hab).1
  have hnodup' : (s.kids.map fun kid => [privateName kid]).Nodup :=
    s.pairs.names_nodup.map fun a b hab => privateName_injective (List.cons.inj hab).1
  have hperm : (keyFiles es).Perm (s.kids.map fun kid => [privateName kid]) := by
    refine (List.perm_ext_iff_of_nodup hnodup hnodup').mpr ?_
    intro place
    rw [h.mem_keyFiles_iff, List.mem_map]
    simp only [eq_comm]
  rw [hperm.length_eq, List.length_map]
  exact List.length_map ..

/-- The public file of a registered pair stands in the directory, and is no key file. -/
theorem Holds.publicName_mem (h : Holds es s) {kid : String} (hkid : kid ∈ s.kids) :
    publicName kid ∈ es.names ∧ [publicName kid] ∉ keyFiles es := by
  obtain ⟨p, hfind⟩ := Registry.mem_names_iff_exists.mp hkid
  obtain ⟨mode, hfile⟩ := h.published kid p hfind
  refine ⟨Entries.mem_names_of_find? hfile, ?_⟩
  intro hmem
  obtain ⟨other, -, hname⟩ := h.mem_keyFiles_iff.mp hmem
  exact privateName_ne_publicName other kid (List.cons.inj hname).1.symm

/-- The store answers with both halves of a registered pair. -/
theorem Holds.answers (h : Holds es s) {kid : String} {p : KeyPair}
    (hfind : s.pairs.find? kid = some p) :
    ∃ pem, p.privatePem = .ok pem ∧ s.privatePem kid = .ok pem ∧
      s.publicPem kid = .ok p.publicPem := by
  obtain ⟨-, -, -, pem, -, hpem, -⟩ := h.registered kid p hfind
  refine ⟨pem, hpem, ?_, ?_⟩
  · rw [KeyStore.privatePem, KeyStore.pair, hfind]
    exact hpem
  · rw [KeyStore.publicPem, KeyStore.pair, hfind]
    rfl

variable {t : FileTree} {fs : FileSystem} {directory : Path}

/-- The text of a key file is its whole content, if this is a text and not too long. -/
theorem keyText_eq_ok_iff {kid : String} {path : Path} {text : String} :
    keyText fs kid path = .ok text ↔
      fs.read path = .ok (utf8 text) ∧ (utf8 text).length ≤ maxFileSize := by
  have hwhole : ∀ {content : Bytes}, content.length ≤ maxFileSize →
      content.take (maxFileSize + 1) = content := fun h => List.take_of_length_le (by omega)
  unfold keyText readFront
  cases hread : fs.read path with
  | error cause => simp
  | ok content =>
    simp only [Except.ok_bind]
    constructor
    · intro h
      split at h
      · cases h
      · rename_i found hfound
        split at h
        · cases h
        · rename_i hsize
          obtain rfl := Except.ok.inj h
          have hle : content.length ≤ maxFileSize := by
            rw [List.length_take] at hsize
            omega
          rw [hwhole hle] at hfound
          obtain rfl := Bytes.eq_utf8_of_text? hfound
          exact ⟨rfl, hle⟩
    · rintro ⟨hcontent, hle⟩
      obtain rfl := Except.ok.inj hcontent
      rw [hwhole hle, Bytes.text?_utf8]
      dsimp only
      rw [if_neg (Nat.not_lt.mpr hle)]

/-- The file with the text of a drawn pair is read as the text. -/
theorem keyText_of_drawn {kid pem : String} {p : KeyPair} {path : Path}
    (hdrawn : p.Drawn KeyPair.defaultBits) (hpem : p.privatePem = .ok pem)
    (hread : fs.read path = .ok (utf8 pem)) : keyText fs kid path = .ok pem :=
  keyText_eq_ok_iff.mpr
    ⟨hread, le_trans (KeyPair.length_privatePem_of_drawn hdrawn hpem) (by decide)⟩

/-- The private file of a registered pair is loaded as the pair. -/
theorem Holds.load (h : Holds es s) (hlist : t.list directory = .ok es) {kid : String}
    {p : KeyPair} (hfind : s.pairs.find? kid = some p) (store : KeyStore) :
    keyText t kid (pathBelow directory [privateName kid]) >>= store.load kid =
      .ok (store.insert kid p) := by
  obtain ⟨hkid, hdrawn, hlength, pem, mode, hpem, hfile⟩ := h.registered kid p hfind
  have hread : t.read (pathBelow directory [privateName kid]) = .ok (utf8 pem) :=
    FileTree.read_join hlist (isPlain_of_valid hkid).1 hlength hfile
  rw [keyText_of_drawn hdrawn hpem ((FileSystem.read_coe ..).trans hread), Except.ok_bind,
    KeyStore.load, KeyPair.fromPem_of_drawn hdrawn hpem]
  rfl

/-- Loading private files in any order registers just the pairs of these files. -/
theorem Holds.loadAll (h : Holds es s) (hlist : t.list directory = .ok es)
    {places : List Location}
    (hplaces : ∀ place ∈ places, ∃ kid ∈ s.kids, place = [privateName kid])
    (store : KeyStore) :
    ∃ loaded, loadAll t directory places store =
        (.ok loaded, List.replicate places.length .keyLoaded ++ [.storeLoaded]) ∧
      ∀ kid, loaded.pairs.find? kid =
        if [privateName kid] ∈ places then s.pairs.find? kid else store.pairs.find? kid := by
  induction places generalizing store with
  | nil => exact ⟨store, rfl, fun kid => rfl⟩
  | cons place places ih =>
    obtain ⟨kid, hmem, rfl⟩ := hplaces place List.mem_cons_self
    obtain ⟨p, hfind⟩ := Registry.mem_names_iff_exists.mp hmem
    obtain ⟨loaded, hloaded, hall⟩ :=
      ih (fun other hother => hplaces other (List.mem_cons_of_mem _ hother)) (store.insert kid p)
    obtain ⟨hkid, -⟩ := h.registered kid p hfind
    refine ⟨loaded, ?_, ?_⟩
    · rw [KeyDirectory.loadAll, (isKeyFile_privateName hkid).2]
      dsimp only
      rw [h.load hlist hfind store]
      dsimp only
      rw [hloaded]
      rfl
    · intro other
      rw [hall, KeyStore.insert, Registry.find?_insert]
      by_cases hrest : [privateName other] ∈ places
      · rw [if_pos hrest, if_pos (List.mem_cons_of_mem _ hrest)]
      · rw [if_neg hrest]
        by_cases hother : other = kid
        · rw [if_pos hother, hother, if_pos List.mem_cons_self, hfind]
        · have hnot : [privateName other] ∉ [privateName kid] :: places := by
            rw [List.mem_cons, not_or]
            exact ⟨fun heq => hother (privateName_injective (List.cons.inj heq).1), hrest⟩
          rw [if_neg hother, if_neg hnot]

/-- A directory that holds a store is loaded as this store, and one key file is loaded for each of
its pairs. -/
theorem ofDirectory_of_holds (h : Holds es s) (hlist : t.list directory = .ok es) :
    KeyStore.ofDirectory t directory =
      (.ok s, List.replicate s.size .keyLoaded ++ [.storeLoaded]) := by
  have hsorted := List.mergeSort_perm (keyFiles es) precedes
  have hplaces : ∀ place ∈ (keyFiles es).mergeSort precedes, ∃ kid ∈ s.kids,
      place = [privateName kid] := fun place hplace =>
    h.mem_keyFiles_iff.mp (hsorted.mem_iff.mp hplace)
  obtain ⟨loaded, hloaded, hall⟩ := h.loadAll hlist hplaces KeyStore.empty
  have hsame : loaded = s := by
    have hpairs : loaded.pairs = s.pairs := by
      refine Registry.ext_find? ?_
      intro kid
      rw [hall]
      split
      · rfl
      · rename_i hnot
        cases hfind : s.pairs.find? kid with
        | none => rfl
        | some p =>
          refine absurd ?_ hnot
          exact hsorted.mem_iff.mpr (h.mem_keyFiles_iff.mpr
            ⟨kid, Registry.mem_names_iff_exists.mpr ⟨p, hfind⟩, rfl⟩)
    cases loaded
    cases s
    cases hpairs
    rfl
  have hlisted := (FileSystem.list_coe t directory).trans hlist
  rw [ofDirectory_of_listsBelow h.listsOnce hlisted (listsBelow_lenient t directory _), hloaded,
    hsame, hsorted.length_eq, h.length_keyFiles]

end KeyDirectory

end BearerAuth
