import Mathlib
import BearerAuth.Fixtures
import BearerAuth.Keygen
import BearerAuth.Proofs.KeyDirectory
import BearerAuth.Proofs.KeyPair.Files

/-!
# Runs of the key generator

Runs that write into one directory, each under a key id, leave a directory that holds a store: the
one in which the pairs were registered in the order of the runs.  A run that succeeds has set two
entries of the directory and changed nothing else in it, so what it does for one key id does not
matter for another.

Main statements: `Keygen.KeyRun.holds_on`, `Keygen.holds_treeAfter` and
`Keygen.ofDirectory_treeAfter`.
-/

namespace BearerAuth

namespace Keygen

open Fixtures (primaryPair_drawn secondaryPair_drawn)
open KeyDirectory (Holds privateName publicName)

variable {t : FileTree} {p : KeyPair}

/-- A run that is asked for a pair of an acceptable size writes the pair that is drawn, and
succeeds if this does. -/
theorem runOnTree_generate {o : Options} (hbits : KeyPair.sizeFault? o.bits = none) :
    runOnTree t p (.generate o) =
      match p.writeToTree t (Path.ofText o.out) (fileNames o.kid).1 (fileNames o.kid).2 with
      | (.ok paths, t') => (.reported (.written o.bits paths.1 paths.2), t')
      | (.error e, t') => (.reported (.failed e), t') := by
  have hgenerate : generate FileTree.writer (fun _ => pure (.ok p)) o =
      p.writeFiles FileTree.writer (Path.ofText o.out) (fileNames o.kid).1 (fileNames o.kid).2 := by
    unfold generate
    rw [hbits]
    rfl
  unfold runOnTree run KeyPair.writeToTree
  dsimp only
  rw [hgenerate]
  rw [StateT.run_bind, StateT.run]
  rcases (p.writeFiles FileTree.writer (Path.ofText o.out)
    (fileNames o.kid).1 (fileNames o.kid).2).run t with ⟨result, t'⟩
  cases result <;> rfl

/-- A run for a text that succeeds has written both halves of the pair under the text. -/
theorem exists_written_of_success {out kid : String}
    (h : (runOnTree t p (.generate ⟨KeyPair.defaultBits, out, some kid⟩)).1.status = .success) :
    ∃ written pem, p.privatePem = .ok pem ∧
      (t.makeDirectories (Path.ofText out)).2.write
          ((Path.ofText out).join (privateName kid)) .ownerOnly (utf8 pem) = .ok written ∧
      written.write ((Path.ofText out).join (publicName kid)) .readable (utf8 p.publicPem) =
        .ok (runOnTree t p (.generate ⟨KeyPair.defaultBits, out, some kid⟩)).2 := by
  have hbits : KeyPair.sizeFault? KeyPair.defaultBits = none := by decide
  have hrun := runOnTree_generate (t := t) (p := p) (o := ⟨KeyPair.defaultBits, out, some kid⟩)
    hbits
  generalize runOnTree t p (.generate ⟨KeyPair.defaultBits, out, some kid⟩) = run at h hrun ⊢
  dsimp only [fileNames] at hrun
  split at hrun
  · rename_i paths t' hwritten
    rw [hrun]
    obtain ⟨written, pem, hpem, hprivate, hpublic, -⟩ := KeyPair.of_writeToTree hwritten
    exact ⟨written, pem, hpem, hprivate, hpublic⟩
  · rw [hrun] at h
    cases h

/-! ### One run -/

/-- A run that is asked to write to a directory under a key id, and the pair that it draws. -/
structure KeyRun (out : String) where
  arguments : List String
  kid : String
  pair : KeyPair
  asks : Command.ofArguments arguments = .generate ⟨KeyPair.defaultBits, out, some kid⟩
  validKid : KeyId.Valid kid
  drawn : pair.Drawn KeyPair.defaultBits

variable {out : String} {es : Entries} {s : KeyStore}

/-- What the run answers on a tree, and the tree behind it. -/
def KeyRun.on (r : KeyRun out) (t : FileTree) : Answer × FileTree :=
  runOnTree t r.pair (Command.ofArguments r.arguments)

/-- A run that succeeds has written both halves of its pair. -/
theorem KeyRun.written_of_success (r : KeyRun out) (h : (r.on t).1.status = .success) :
    ∃ written pem, r.pair.privatePem = .ok pem ∧
      (t.makeDirectories (Path.ofText out)).2.write
          ((Path.ofText out).join (privateName r.kid)) .ownerOnly (utf8 pem) = .ok written ∧
      written.write ((Path.ofText out).join (publicName r.kid)) .readable
          (utf8 r.pair.publicPem) = .ok (r.on t).2 := by
  rw [KeyRun.on, r.asks] at h ⊢
  exact exists_written_of_success h

/-- A run that succeeds in a directory that holds a store registers its pair in the store, and
leaves what is held for other key ids as it is. -/
theorem KeyRun.holds_on (r : KeyRun out) (hlist : t.list (Path.ofText out) = .ok es)
    (h : Holds es s) (hsuccess : (r.on t).1.status = .success) :
    ∃ es', (r.on t).2.list (Path.ofText out) = .ok es' ∧ Holds es' (s.insert r.kid r.pair) := by
  obtain ⟨written, pem, hpem, hprivate, hpublic⟩ := r.written_of_success hsuccess
  rw [FileTree.makeDirectories_of_list hlist] at hprivate
  obtain ⟨hlength, mode, hlist'⟩ := FileTree.list_of_write hlist
    (KeyDirectory.isPlain_of_valid r.validKid).1 (h.isFree _) hprivate
  have hfree : (es.set (privateName r.kid) (.file mode (utf8 pem))).IsFree (publicName r.kid) := by
    have hname : publicName r.kid ≠ privateName r.kid :=
      (KeyDirectory.privateName_ne_publicName r.kid r.kid).symm
    rw [Entries.IsFree, Entries.find?_set, if_neg hname]
    exact h.isFree _
  obtain ⟨-, mode', hlist''⟩ := FileTree.list_of_write hlist'
    (KeyDirectory.isPlain_of_valid r.validKid).2 hfree hpublic
  exact ⟨_, hlist'', h.insert r.validKid r.drawn hlength hpem⟩

/-! ### Runs one after the other -/

/-- The tree behind runs that are made one after the other. -/
def treeAfter (t : FileTree) (rs : List (KeyRun out)) : FileTree :=
  rs.foldl (fun t r => (r.on t).2) t

/-- Every run succeeds on the tree that the ones before it leave. -/
def AllSucceed : FileTree → List (KeyRun out) → Prop
  | _, [] => True
  | t, r :: rs => (r.on t).1.status = .success ∧ AllSucceed (r.on t).2 rs

instance AllSucceed.decidable : (t : FileTree) → (rs : List (KeyRun out)) →
    Decidable (AllSucceed t rs)
  | _, [] => .isTrue trivial
  | t, r :: rs =>
      haveI := AllSucceed.decidable (r.on t).2 rs
      inferInstanceAs (Decidable ((r.on t).1.status = .success ∧ AllSucceed (r.on t).2 rs))

/-- The store in which the pairs of runs are registered one after the other. -/
def registered (rs : List (KeyRun out)) : KeyStore :=
  rs.foldl (fun s r => s.insert r.kid r.pair) KeyStore.empty

/-- The last run for a key id. -/
def lastRun? (rs : List (KeyRun out)) (kid : String) : Option (KeyRun out) :=
  rs.reverse.find? (·.kid = kid)

variable {rs : List (KeyRun out)}

/-- What succeeds succeeds as far as it goes. -/
theorem allSucceed_of_append {front back : List (KeyRun out)} (h : AllSucceed t (front ++ back)) :
    AllSucceed t front := by
  induction front generalizing t with
  | nil => trivial
  | cons r front ih => exact ⟨h.1, ih h.2⟩

/-- Runs that succeed in a directory that holds a store register their pairs in the store. -/
theorem holds_treeAfter (hlist : t.list (Path.ofText out) = .ok es) (h : Holds es s)
    (hall : AllSucceed t rs) :
    ∃ es', (treeAfter t rs).list (Path.ofText out) = .ok es' ∧
      Holds es' (rs.foldl (fun s r => s.insert r.kid r.pair) s) := by
  induction rs generalizing t es s with
  | nil => exact ⟨es, hlist, h⟩
  | cons r rs ih =>
    obtain ⟨es', hlist', h'⟩ := r.holds_on hlist h hall.1
    exact ih hlist' h' hall.2

/-- Under a key id the pair of the last run for it is registered. -/
theorem find?_registered (rs : List (KeyRun out)) (kid : String) :
    (registered rs).pairs.find? kid = (lastRun? rs kid).map (·.pair) := by
  induction rs using List.reverseRecOn with
  | nil => rfl
  | append_singleton rs r ih =>
    have hstep : registered (rs ++ [r]) = (registered rs).insert r.kid r.pair :=
      List.foldl_concat ..
    rw [hstep, KeyStore.insert, Registry.find?_insert, lastRun?, List.reverse_concat,
      List.find?_cons]
    by_cases hkid : r.kid = kid
    · simp [hkid]
    · simp [hkid, Ne.symm hkid, ih, lastRun?]

/-- The registered key ids are those of the runs. -/
theorem mem_kids_registered {kid : String} :
    kid ∈ (registered rs).kids ↔ ∃ r ∈ rs, r.kid = kid := by
  rw [KeyStore.kids, Registry.mem_names_iff, Registry.contains, find?_registered, Option.isSome_map,
    lastRun?, List.find?_isSome]
  simp

/-- After runs into an empty directory the store of their pairs is loaded from it. -/
theorem ofDirectory_registered (hempty : t.list (Path.ofText out) = .ok .nil)
    (hall : AllSucceed t rs) :
    KeyStore.ofDirectory (treeAfter t rs) (Path.ofText out) =
      (.ok (registered rs),
        List.replicate (registered rs).size .keyLoaded ++ [.storeLoaded]) := by
  obtain ⟨es, hlist, hholds⟩ := holds_treeAfter hempty KeyDirectory.holds_nil hall
  exact KeyDirectory.ofDirectory_of_holds hholds hlist

/-- What a directory of generated pairs is loaded as.  After any successful runs into an empty
directory, each under a key id, the directory is loaded.  The key ids are those of the runs, in
order; each has the pair of the last run for it.  The public files stand in the directory and are
not among those that are loaded.  No run changes the pair of another key id. -/
theorem ofDirectory_treeAfter (hempty : t.list (Path.ofText out) = .ok .nil)
    (hall : AllSucceed t rs) :
    ∃ store es,
      KeyStore.ofDirectory (treeAfter t rs) (Path.ofText out) =
        (.ok store, List.replicate store.size .keyLoaded ++ [.storeLoaded]) ∧
      store.kids.Pairwise (· < ·) ∧ (∀ kid, kid ∈ store.kids ↔ ∃ r ∈ rs, r.kid = kid) ∧
      (∀ kid r, lastRun? rs kid = some r → ∃ pem, r.pair.privatePem = .ok pem ∧
        store.privatePem kid = .ok pem ∧ store.publicPem kid = .ok r.pair.publicPem) ∧
      (treeAfter t rs).list (Path.ofText out) = .ok es ∧
      (∀ place, place ∈ KeyDirectory.keyFiles es ↔ ∃ kid ∈ store.kids, place = [privateName kid]) ∧
      (∀ kid ∈ store.kids, publicName kid ∈ es.names ∧
        [publicName kid] ∉ KeyDirectory.keyFiles es) ∧
      ∀ front r back, rs = front ++ r :: back → ∃ before after,
        (KeyStore.ofDirectory (treeAfter t front) (Path.ofText out)).1 = .ok before ∧
        (KeyStore.ofDirectory (treeAfter t (front ++ [r])) (Path.ofText out)).1 = .ok after ∧
        ∀ other, other ≠ r.kid → after.pair other = before.pair other := by
  obtain ⟨es, hlist, hholds⟩ := holds_treeAfter hempty KeyDirectory.holds_nil hall
  refine ⟨registered rs, es, ofDirectory_registered hempty hall, Registry.names_sorted _,
    fun kid => mem_kids_registered, ?_, hlist, fun place => hholds.mem_keyFiles_iff,
    fun kid => hholds.publicName_mem, ?_⟩
  · intro kid r hlast
    apply hholds.answers
    exact (find?_registered rs kid).trans (congrArg (Option.map (·.pair)) hlast)
  · rintro front r back rfl
    rw [List.append_cons] at hall
    have hafter : AllSucceed t (front ++ [r]) := allSucceed_of_append hall
    have hbefore : AllSucceed t front := allSucceed_of_append hafter
    refine ⟨registered front, registered (front ++ [r]), ?_, ?_, ?_⟩
    · rw [ofDirectory_registered hempty hbefore]
    · rw [ofDirectory_registered hempty hafter]
    · intro other hother
      have hstep : registered (front ++ [r]) = (registered front).insert r.kid r.pair :=
        List.foldl_concat ..
      rw [KeyStore.pair, KeyStore.pair, hstep, KeyStore.insert, Registry.find?_insert,
        if_neg hother]

/-- A tree with an empty directory for keys. -/
def emptyTree : FileTree :=
  ⟨.directory (.cons (utf8 "keys") (.directory .nil) .nil), []⟩

/-- A run for a key id that ends like a file name. -/
def firstRun : KeyRun "keys" :=
  ⟨["--out", "keys", "--kid", "a.pem"], "a.pem", Fixtures.primaryPair, by decide +kernel,
    by decide +kernel, primaryPair_drawn⟩

/-- Another run for the same key id. -/
def laterRun : KeyRun "keys" :=
  ⟨["--kid=a.pem", "--out", "keys"], "a.pem", Fixtures.secondaryPair, by decide +kernel,
    by decide +kernel, secondaryPair_drawn⟩

/-- A run for a key id that is the front of the other one. -/
def shorterRun : KeyRun "keys" :=
  ⟨["--out=keys", "--kid", "a"], "a", Fixtures.primaryPair, by decide +kernel,
    by decide +kernel, primaryPair_drawn⟩

/-- Such runs succeed.  The key id that was used twice has the pair of the later run, and is not
taken for the shorter one. -/
theorem ofDirectory_treeAfter_later :
    emptyTree.list (Path.ofText "keys") = .ok .nil ∧
      AllSucceed emptyTree [firstRun, laterRun, shorterRun] ∧
      ∃ store pem other,
        (KeyStore.ofDirectory (treeAfter emptyTree [firstRun, laterRun, shorterRun])
          (Path.ofText "keys")).1 = .ok store ∧
        (∀ kid, kid ∈ store.kids ↔ kid = "a.pem" ∨ kid = "a") ∧
        laterRun.pair.privatePem = .ok pem ∧ store.privatePem "a.pem" = .ok pem ∧
        shorterRun.pair.privatePem = .ok other ∧ store.privatePem "a" = .ok other := by
  have hempty : emptyTree.list (Path.ofText "keys") = .ok .nil := by rfl
  have hall : AllSucceed emptyTree [firstRun, laterRun, shorterRun] := by decide +kernel
  obtain ⟨store, es, hload, -, hkids, hlast, -⟩ := ofDirectory_treeAfter hempty hall
  obtain ⟨pem, hpem, hprivate, -⟩ := hlast "a.pem" laterRun rfl
  obtain ⟨other, hother, hprivate', -⟩ := hlast "a" shorterRun rfl
  refine ⟨hempty, hall, store, pem, other, congrArg Prod.fst hload, ?_, hpem, hprivate, hother,
    hprivate'⟩
  intro kid
  rw [hkids]
  simp [firstRun, laterRun, shorterRun, eq_comm]

end Keygen

end BearerAuth
