import Mathlib
import BearerAuth.Proofs.KeyDirectory.Contents

/-!
# What a directory is loaded as

Key files are loaded in the order of their places.  The first one that holds no pair ends the
loading; if all of them hold pairs, the last one of every key id counts.  So the outcome depends on
where the key files stand and on what is read under their paths, and on nothing else, in particular
not on the order in which directories are listed.

Main statements: `KeyDirectory.loadAll_cases` and `KeyDirectory.ofDirectory_outcome`.
-/

namespace BearerAuth

namespace KeyDirectory

variable {es : Entries} {place : Location} {kid : String}

variable {fs fs' : FileSystem} {directory : Path} {pair : KeyPair} {store : KeyStore}

/-! ### Loading in order -/

/-- Whatever is to be loaded from the place holds a pair. -/
def Loads (fs : FileSystem) (directory : Path) (place : Location) : Prop :=
  ∀ kid, kidOf? place = some kid → ∃ pair, pairAt fs directory place kid = .ok pair

/-- The last of the places for a key id. -/
def lastPlace? (places : List Location) (kid : String) : Option Location :=
  places.reverse.find? fun place => kidOf? place = some kid

theorem loadAll_cons_of_none (h : kidOf? place = none) (places : List Location)
    (store : KeyStore) :
    (loadAll fs directory (place :: places) store).1 = (loadAll fs directory places store).1 := by
  rw [loadAll, h]

/-- A file is loaded by registering the pair that it holds. -/
theorem keyText_bind_load (store : KeyStore) :
    (keyText fs kid (pathBelow directory place) >>= store.load kid) =
      (pairAt fs directory place kid).map (store.insert kid) := by
  rw [pairAt]
  cases keyText fs kid (pathBelow directory place) <;> rfl

theorem loadAll_cons_of_error {e : KeyFailure} (h : kidOf? place = some kid)
    (hpair : pairAt fs directory place kid = .error e) (places : List Location) (store : KeyStore) :
    (loadAll fs directory (place :: places) store).1 = .error e := by
  rw [loadAll, h]
  dsimp only
  rw [keyText_bind_load, hpair]
  rfl

theorem loadAll_cons_of_ok (h : kidOf? place = some kid)
    (hpair : pairAt fs directory place kid = .ok pair) (places : List Location) (store : KeyStore) :
    (loadAll fs directory (place :: places) store).1 =
      (loadAll fs directory places (store.insert kid pair)).1 := by
  rw [loadAll, h]
  dsimp only
  rw [keyText_bind_load, hpair]
  rfl

/-- The last place for a key id is one of them, and behind it there is no other. -/
theorem lastPlace?_eq_some_iff {places : List Location} :
    lastPlace? places kid = some place ↔ kidOf? place = some kid ∧
      ∃ front back, places = front ++ place :: back ∧ ∀ p ∈ back, kidOf? p ≠ some kid := by
  rw [lastPlace?, List.find?_eq_some_iff_append]
  simp only [decide_eq_true_eq]
  refine and_congr_right fun hplace => ?_
  constructor
  · rintro ⟨back, front, hreverse, hback⟩
    refine ⟨front.reverse, back.reverse, ?_, ?_⟩
    · rw [← List.reverse_reverse places, hreverse]
      simp
    · intro p hp
      simpa using hback p (List.mem_reverse.mp hp)
  · rintro ⟨front, back, rfl, hback⟩
    refine ⟨back.reverse, front.reverse, by simp, ?_⟩
    intro p hp
    simpa using hback p (List.mem_reverse.mp hp)

theorem lastPlace?_cons (place : Location) (places : List Location) (kid : String) :
    lastPlace? (place :: places) kid =
      (lastPlace? places kid).or (if kidOf? place = some kid then some place else none) := by
  rw [lastPlace?, lastPlace?, List.reverse_cons, List.find?_append, List.find?_singleton]
  simp only [decide_eq_true_eq]

/-- What a store that was loaded from the places registers under the key id: the pair in the last
place for it, or what was registered before. -/
def Registers (fs : FileSystem) (directory : Path) (places : List Location)
    (before after : KeyStore) (kid : String) : Prop :=
  match lastPlace? places kid with
  | some place =>
      ∃ pair, pairAt fs directory place kid = .ok pair ∧ after.pairs.find? kid = some pair
  | none => after.pairs.find? kid = before.pairs.find? kid

/-- A place in front that is for no key id changes nothing. -/
theorem Registers.cons_of_none {places : List Location} {before after : KeyStore}
    (h : Registers fs directory places before after kid) (hplace : kidOf? place = none) :
    Registers fs directory (place :: places) before after kid := by
  have hlast : lastPlace? (place :: places) kid = lastPlace? places kid := by
    rw [lastPlace?_cons, hplace, if_neg (by simp), Option.or_none]
  rwa [Registers, hlast]

/-- A place in front counts if there is no later one for its key id. -/
theorem Registers.cons_of_ok {places : List Location} {before after : KeyStore} {other : String}
    (h : Registers fs directory places (before.insert other pair) after kid)
    (hplace : kidOf? place = some other) (hpair : pairAt fs directory place other = .ok pair) :
    Registers fs directory (place :: places) before after kid := by
  rw [Registers, lastPlace?_cons, hplace]
  rw [Registers, KeyStore.insert, Registry.find?_insert] at h
  cases hlast : lastPlace? places kid with
  | some last =>
    rw [hlast] at h
    exact h
  | none =>
    rw [hlast] at h
    by_cases hkid : kid = other
    · subst hkid
      rw [if_pos rfl]
      rw [if_pos rfl] at h
      exact ⟨pair, hpair, h⟩
    · rw [if_neg fun heq => hkid (Option.some.inj heq).symm]
      rw [if_neg hkid] at h
      exact h

/-- Loading files one after the other ends at the first that holds no pair.  If all of them hold
pairs, every key id gets the pair in its last place, or keeps the one that it had. -/
theorem loadAll_cases (fs : FileSystem) (directory : Path) (places : List Location)
    (store : KeyStore) :
    (∃ front place back kid e, places = front ++ place :: back ∧ kidOf? place = some kid ∧
      pairAt fs directory place kid = .error e ∧ (∀ p ∈ front, Loads fs directory p) ∧
      (loadAll fs directory places store).1 = .error e) ∨
    (∀ p ∈ places, Loads fs directory p) ∧
      ∃ loaded, (loadAll fs directory places store).1 = .ok loaded ∧
        ∀ kid, Registers fs directory places store loaded kid := by
  induction places generalizing store with
  | nil => exact .inr ⟨List.forall_mem_nil _, store, rfl, fun kid => rfl⟩
  | cons place places ih =>
    cases hplace : kidOf? place with
    | none =>
      have hloads : Loads fs directory place := by
        intro kid hkid
        rw [hplace] at hkid
        cases hkid
      rw [loadAll_cons_of_none hplace]
      obtain ⟨front, p, back, kid, e, rfl, hkid, hpair, hfront, hresult⟩ |
        ⟨hall, loaded, hresult, hregisters⟩ := ih store
      · exact .inl ⟨place :: front, p, back, kid, e, rfl, hkid, hpair,
          List.forall_mem_cons.mpr ⟨hloads, hfront⟩, hresult⟩
      · exact .inr ⟨List.forall_mem_cons.mpr ⟨hloads, hall⟩, loaded, hresult,
          fun kid => (hregisters kid).cons_of_none hplace⟩
    | some kid =>
      cases hpair : pairAt fs directory place kid with
      | error e =>
        exact .inl ⟨[], place, places, kid, e, rfl, hplace, hpair, List.forall_mem_nil _,
          loadAll_cons_of_error hplace hpair places store⟩
      | ok pair =>
        have hloads : Loads fs directory place := by
          intro other hother
          obtain rfl := Option.some.inj (hplace.symm.trans hother)
          exact ⟨pair, hpair⟩
        rw [loadAll_cons_of_ok hplace hpair]
        obtain ⟨front, p, back, other, e, rfl, hother, herror, hfront, hresult⟩ |
          ⟨hall, loaded, hresult, hregisters⟩ := ih (store.insert kid pair)
        · exact .inl ⟨place :: front, p, back, other, e, rfl, hother, herror,
            List.forall_mem_cons.mpr ⟨hloads, hfront⟩, hresult⟩
        · exact .inr ⟨List.forall_mem_cons.mpr ⟨hloads, hall⟩, loaded, hresult,
            fun other => (hregisters other).cons_of_ok hplace hpair⟩

/-! ### Places in order -/

/-- Places are sorted by their order. -/
theorem pairwise_mergeSort_precedes (places : List Location) :
    (places.mergeSort precedes).Pairwise (· ≤ ·) := by
  have hsorted : (places.mergeSort precedes).Pairwise fun a b => precedes a b = true := by
    apply List.pairwise_mergeSort
    · intro a b c hab hbc
      exact decide_eq_true (List.le_trans (of_decide_eq_true hab) (of_decide_eq_true hbc))
    · intro a b
      rw [precedes, precedes, Bool.or_eq_true, decide_eq_true_iff, decide_eq_true_iff]
      exact List.le_total a b
  exact hsorted.imp of_decide_eq_true

theorem lastPlace?_eq_none_iff {places : List Location} :
    lastPlace? places kid = none ↔ ∀ p ∈ places, kidOf? p ≠ some kid := by
  simp [lastPlace?]

/-- Of sorted places the last one for a key id is the greatest. -/
theorem lastPlace?_eq_some_iff_of_sorted {places : List Location}
    (hsorted : places.Pairwise (· ≤ ·)) :
    lastPlace? places kid = some place ↔ (place ∈ places ∧ kidOf? place = some kid) ∧
      ∀ q ∈ places, kidOf? q = some kid → q ≤ place := by
  have hgreatest : ∀ {p}, lastPlace? places kid = some p → (p ∈ places ∧ kidOf? p = some kid) ∧
      ∀ q ∈ places, kidOf? q = some kid → q ≤ p := by
    intro p hp
    obtain ⟨hkid, front, back, rfl, hback⟩ := lastPlace?_eq_some_iff.mp hp
    refine ⟨⟨by simp, hkid⟩, ?_⟩
    intro q hq hqkid
    rw [List.append_cons] at hsorted
    rcases List.mem_append.mp hq with hfront | hrest
    · exact (List.pairwise_append.mp (List.pairwise_append.mp hsorted).1).2.2 q hfront p
        List.mem_cons_self
    · rcases List.mem_cons.mp hrest with rfl | hlater
      · exact List.le_refl q
      · exact absurd hqkid (hback q hlater)
  refine ⟨hgreatest, ?_⟩
  rintro ⟨⟨hplace, hkid⟩, hall⟩
  cases hlast : lastPlace? places kid with
  | none => exact absurd hkid (lastPlace?_eq_none_iff.mp hlast place hplace)
  | some p =>
    obtain ⟨⟨hp, hpkid⟩, hall'⟩ := hgreatest hlast
    rw [List.le_antisymm (hall p hp hpkid) (hall' place hplace hkid)]

/-! ### The outcome -/

/-- What a directory is loaded as, where it is known which key files stand below it and what they
hold: the failure of the first one that holds no pair, or else the store that has for every key id
the pair of the last one. -/
inductive Outcome (files : Location → String → Prop)
    (held : Location → String → Except KeyFailure KeyPair) : Except KeyFailure KeyStore → Prop
  | failed {place : Location} {kid : String} {e : KeyFailure} (stands : files place kid)
      (fails : held place kid = .error e)
      (first : ∀ p k, files p k → p < place → ∃ pair, held p k = .ok pair) :
      Outcome files held (.error e)
  | loaded {store : KeyStore} (all : ∀ p k, files p k → ∃ pair, held p k = .ok pair)
      (kids : ∀ k, k ∈ store.kids ↔ ∃ p, files p k)
      (last : ∀ k pair, store.pairs.find? k = some pair ↔
        ∃ p, files p k ∧ (∀ q, files q k → q ≤ p) ∧ held p k = .ok pair) :
      Outcome files held (.ok store)

section Outcome

variable {files files' : Location → String → Prop}
  {held held' : Location → String → Except KeyFailure KeyPair}
  {result result' : Except KeyFailure KeyStore}

/-- There is at most one outcome if a place is for one key id. -/
theorem Outcome.unique (hfiles : ∀ p k k', files p k → files p k' → k = k')
    (h : Outcome files held result) (h' : Outcome files held result') : result = result' := by
  cases h with
  | @failed place kid e stands fails first =>
    cases h' with
    | @failed place' kid' e' stands' fails' first' =>
      have hnot : ¬ place < place' := by
        intro hlt
        obtain ⟨pair, hpair⟩ := first' place kid stands hlt
        rw [fails] at hpair
        cases hpair
      have hnot' : ¬ place' < place := by
        intro hlt
        obtain ⟨pair, hpair⟩ := first place' kid' stands' hlt
        rw [fails'] at hpair
        cases hpair
      obtain rfl := List.le_antisymm (List.not_lt.mp hnot') (List.not_lt.mp hnot)
      obtain rfl := hfiles _ _ _ stands stands'
      exact congrArg Except.error (Except.error.inj (fails.symm.trans fails'))
    | loaded all' _ _ =>
      obtain ⟨pair, hpair⟩ := all' _ _ stands
      rw [fails] at hpair
      cases hpair
  | @loaded store all _ last =>
    cases h' with
    | failed stands' fails' _ =>
      obtain ⟨pair, hpair⟩ := all _ _ stands'
      rw [fails'] at hpair
      cases hpair
    | @loaded store' _ _ last' =>
      have hpairs : store.pairs = store'.pairs := by
        apply Registry.ext_find?
        intro kid
        apply Option.ext
        intro pair
        rw [last, last']
      cases store
      cases store'
      cases hpairs
      rfl

/-- The outcome is the same where the same key files hold the same. -/
theorem Outcome.congr (hfiles : ∀ p k, files' p k ↔ files p k)
    (hheld : ∀ p k, files p k → held' p k = held p k) (h : Outcome files held result) :
    Outcome files' held' result := by
  cases h with
  | failed stands fails first =>
    refine .failed ((hfiles _ _).mpr stands) ((hheld _ _ stands).trans fails) ?_
    intro p k hp hlt
    rw [hheld p k ((hfiles p k).mp hp)]
    exact first p k ((hfiles p k).mp hp) hlt
  | loaded all kids last =>
    refine .loaded ?_ ?_ ?_
    · intro p k hp
      rw [hheld p k ((hfiles p k).mp hp)]
      exact all p k ((hfiles p k).mp hp)
    · intro k
      simp only [kids, hfiles]
    · intro k pair
      rw [last]
      refine exists_congr fun p => ?_
      simp only [hfiles]
      refine and_congr_right fun hp => ?_
      rw [hheld p k hp]

end Outcome

section Sorted

variable {places : List Location} {files : Location → String → Prop} {loaded : KeyStore}
  (hsorted : places.Pairwise (· ≤ ·))
  (hfiles : ∀ p k, p ∈ places ∧ kidOf? p = some k ↔ files p k)

include hsorted hfiles

/-- Of sorted places the last one for a key id is that of its last file. -/
theorem lastPlace?_eq_some_iff_of_files :
    lastPlace? places kid = some place ↔ files place kid ∧ ∀ q, files q kid → q ≤ place := by
  rw [lastPlace?_eq_some_iff_of_sorted hsorted, hfiles]
  simp only [← hfiles, and_imp]

/-- A store that was empty registers for every key id the pair of its last file. -/
theorem Registers.find?_eq_some_iff
    (h : Registers fs directory places KeyStore.empty loaded kid) :
    loaded.pairs.find? kid = some pair ↔
      ∃ p, files p kid ∧ (∀ q, files q kid → q ≤ p) ∧ pairAt fs directory p kid = .ok pair := by
  simp only [← and_assoc, ← lastPlace?_eq_some_iff_of_files hsorted hfiles]
  rw [Registers] at h
  cases hlast : lastPlace? places kid with
  | none =>
    rw [hlast] at h
    have hnone : loaded.pairs.find? kid = none := h
    simp [hnone]
  | some place =>
    rw [hlast] at h
    obtain ⟨found, hfound, hregistered⟩ := h
    simp [hregistered, hfound]

/-- A store that was empty has the key ids of the files. -/
theorem Registers.mem_kids_iff (h : Registers fs directory places KeyStore.empty loaded kid) :
    kid ∈ loaded.kids ↔ ∃ p, files p kid := by
  rw [KeyStore.kids, Registry.mem_names_iff_exists]
  constructor
  · rintro ⟨pair, hpair⟩
    obtain ⟨p, hp, -⟩ := (h.find?_eq_some_iff hsorted hfiles).mp hpair
    exact ⟨p, hp⟩
  · rintro ⟨p, hp⟩
    obtain ⟨hmem, hkid⟩ := (hfiles p kid).mpr hp
    rw [Registers] at h
    cases hlast : lastPlace? places kid with
    | none => exact absurd hkid (lastPlace?_eq_none_iff.mp hlast p hmem)
    | some place =>
      rw [hlast] at h
      obtain ⟨pair, -, hregistered⟩ := h
      exact ⟨pair, hregistered⟩

/-- Sorted places are loaded with the outcome that their files and what these hold decide. -/
theorem loadAll_outcome :
    Outcome files (pairAt fs directory) (loadAll fs directory places KeyStore.empty).1 := by
  obtain ⟨front, place, back, kid, e, rfl, hkid, herror, hfront, hresult⟩ |
    ⟨hall, loaded, hresult, hregisters⟩ := loadAll_cases fs directory places KeyStore.empty
  · rw [hresult]
    refine .failed ((hfiles place kid).mp ⟨by simp, hkid⟩) herror ?_
    intro p k hp hlt
    obtain ⟨hmem, hpkid⟩ := (hfiles p k).mpr hp
    rcases List.mem_append.mp hmem with hearlier | hrest
    · exact hfront p hearlier k hpkid
    · -- The others are not less than the place.
      have hle : place ≤ p := by
        rcases List.mem_cons.mp hrest with rfl | hlater
        · exact List.le_refl p
        · exact (List.pairwise_cons.mp (List.pairwise_append.mp hsorted).2.1).1 p hlater
      exact absurd hlt (List.not_lt.mpr hle)
  · rw [hresult]
    refine .loaded ?_ (fun k => (hregisters k).mem_kids_iff hsorted hfiles)
      fun k pair => (hregisters k).find?_eq_some_iff hsorted hfiles
    intro p k hp
    obtain ⟨hmem, hkid⟩ := (hfiles p k).mpr hp
    exact hall p hmem k hkid

end Sorted

/-- A directory that lists no name twice, and below which all directories can be listed, is loaded
with the outcome that its key files decide. -/
theorem outcome_of_list (honce : (Node.directory es).ListsOnce)
    (hlist : fs.list directory = .ok es) (hbelow : ListsBelow fs directory (.directory es)) :
    Outcome (KeyFileAt es) (pairAt fs directory) (KeyStore.ofDirectory fs directory).1 := by
  rw [ofDirectory_of_listsBelow honce hlist hbelow]
  refine loadAll_outcome (pairwise_mergeSort_precedes _) ?_
  intro p k
  rw [(List.mergeSort_perm _ _).mem_iff]
  exact keyFileAt_iff honce

/-- The same where nothing is refused. -/
theorem outcome_of_tree {t : FileTree} (honce : (Node.directory es).ListsOnce)
    (hlist : t.list directory = .ok es) :
    Outcome (KeyFileAt es) (pairAt t directory) (KeyStore.ofDirectory t directory).1 :=
  outcome_of_list honce ((FileSystem.list_coe t directory).trans hlist)
    (listsBelow_lenient t directory _)

/-- The directory that is listed lists no name twice if no directory of the tree does. -/
theorem listsOnce_of_list {t : FileTree} (honce : t.root.ListsOnce)
    (hlist : t.list directory = .ok es) : (Node.directory es).ListsOnce := by
  obtain ⟨d, -, hd⟩ := FileTree.list_eq_ok_iff.mp hlist
  exact honce.of_at? hd

/-- What can be listed below a directory can be listed where the entries have another order. -/
theorem ListsBelow.of_sameBelow {es' : Entries} (h : ListsBelow fs directory (.directory es))
    (hsame : (Node.directory es).SameBelow (.directory es'))
    (hrefusal : ∀ access path, fs'.refusal? access path = fs.refusal? access path) :
    ListsBelow fs' directory (.directory es') := by
  intro place below hbelow
  obtain ⟨_, hes⟩ := hsame.symm.exists_directory hbelow
  rw [hrefusal]
  exact h place _ hes

/-- What decides how a directory is loaded whose entries are given. -/
structure DecidedByFiles (fs : FileSystem) (directory : Path) (es : Entries) : Prop where
  /-- The first key file that holds no pair ends the loading; if there is none, every key id has the
  pair of the last one. -/
  outcome : Outcome (KeyFileAt es) (pairAt fs directory) (KeyStore.ofDirectory fs directory).1
  /-- The verdict on a key file is reached by what is read under its path. -/
  verdict : ∀ place kid, Verdict (pathBelow directory place) kid
    (fs.read (pathBelow directory place)) (pairAt fs directory place kid)
  /-- A key file holds a pair if it can be read as a text that is not too long, in which the pair is
  found. -/
  holds_iff : ∀ place kid pair, pairAt fs directory place kid = .ok pair ↔
    ∃ text, fs.read (pathBelow directory place) = .ok (utf8 text) ∧
      (utf8 text).length ≤ maxFileSize ∧ KeyPair.ofPem? text = some pair
  /-- It does not matter in which order the directories of the tree are listed. -/
  inAnyOrder : ∀ fs', fs.SameUpToOrder fs' →
    (KeyStore.ofDirectory fs' directory).1 = (KeyStore.ofDirectory fs directory).1
  /-- Nothing matters but the key files and what is read of them. -/
  forSameFiles : ∀ fs' es', fs'.tree.root.ListsOnce → fs'.list directory = .ok es' →
    ListsBelow fs' directory (.directory es') →
    (∀ place kid, KeyFileAt es' place kid ↔ KeyFileAt es place kid) →
    (∀ place kid, KeyFileAt es place kid →
      fs'.read (pathBelow directory place) = fs.read (pathBelow directory place)) →
    (KeyStore.ofDirectory fs' directory).1 = (KeyStore.ofDirectory fs directory).1

/-- Loading a directory below which all directories can be listed depends on its key files alone.
These are the files and links, in any depth, whose names are a key id with the ending.  So the
outcome is the same in whatever order the directories of the tree are listed, and for any two trees
that have the same key files of which the same is read. -/
theorem ofDirectory_outcome (honce : fs.tree.root.ListsOnce) (hlist : fs.list directory = .ok es)
    (hbelow : ListsBelow fs directory (.directory es)) : DecidedByFiles fs directory es := by
  have hdirectory := listsOnce_of_list honce (FileSystem.list_eq_ok_iff.mp hlist).2
  have houtcome := outcome_of_list hdirectory hlist hbelow
  -- Whatever has the same key files of which the same is read has the same outcome.
  have hsame : ∀ {fs' es'}, (Node.directory es').ListsOnce → fs'.list directory = .ok es' →
      ListsBelow fs' directory (.directory es') →
      (∀ place kid, KeyFileAt es' place kid ↔ KeyFileAt es place kid) →
      (∀ place kid, KeyFileAt es place kid →
        fs'.read (pathBelow directory place) = fs.read (pathBelow directory place)) →
      (KeyStore.ofDirectory fs' directory).1 = (KeyStore.ofDirectory fs directory).1 := by
    intro fs' es' honce' hlist' hbelow' hfiles hread
    have hheld : ∀ place kid, KeyFileAt es place kid →
        pairAt fs' directory place kid = pairAt fs directory place kid :=
      fun place kid hfile => pairAt_congr (hread place kid hfile)
    have houtcome' : Outcome (KeyFileAt es') (pairAt fs' directory)
        (KeyStore.ofDirectory fs directory).1 := houtcome.congr hfiles hheld
    have hone : ∀ place kid other, KeyFileAt es' place kid → KeyFileAt es' place other →
        kid = other := fun _ _ _ h h' => h.unique h'
    exact (outcome_of_list honce' hlist' hbelow').unique hone houtcome'
  refine ⟨houtcome, fun place kid => verdict_pairAt fs directory place kid,
    fun place kid pair => pairAt_eq_ok_iff, ?_, ?_⟩
  · intro fs' horder
    obtain ⟨es', hlist', hentries⟩ := horder.exists_list hlist
    refine hsame (hdirectory.of_sameBelow hentries) hlist'
      (hbelow.of_sameBelow hentries horder.refusal?) ?_ fun _ _ _ => horder.read_eq _
    intro place kid
    exact ⟨fun h => ⟨hentries.symm.exists_notDirectory h.stands, h.named, h.kid_ne⟩,
      fun h => ⟨hentries.exists_notDirectory h.stands, h.named, h.kid_ne⟩⟩
  · intro fs' es' honce' hlist'
    exact hsame (listsOnce_of_list honce' (FileSystem.list_eq_ok_iff.mp hlist').2) hlist'

/-- Two key files for one key id, one of them in a directory whose own name is that of a key file,
and a file in front of whose ending there is no key id. -/
def nestedEntries (pem other : String) : Entries :=
  .cons (utf8 "b.pem") (.directory (.cons (utf8 "a.pem") (.file 0o600 (utf8 other)) .nil))
    (.cons (utf8 ".pem") (.file 0o644 [])
      (.cons (utf8 "a.pem") (.file 0o600 (utf8 pem)) .nil))

/-- A tree with these files in a directory for keys. -/
def nestedTree (pem other : String) : FileTree :=
  ⟨.directory (.cons (utf8 "keys") (.directory (nestedEntries pem other)) .nil), []⟩

theorem listsOnce_nestedTree (pem other : String) : (nestedTree pem other).root.ListsOnce := by
  have hfile : ∀ mode content, (Node.file mode content).ListsOnce :=
    fun _ _ => Node.listsOnce_of_notDirectory rfl
  have hkeys : (nestedEntries pem other).names = [utf8 "b.pem", utf8 ".pem", utf8 "a.pem"] := rfl
  have hnested : (Node.directory (nestedEntries pem other)).ListsOnce := by
    refine Node.listsOnce_directory (by rw [hkeys]; decide +kernel) ?_
    intro e he
    simp only [nestedEntries, Entries.toList, List.mem_cons, List.not_mem_nil, or_false] at he
    rcases he with rfl | rfl | rfl
    · refine Node.listsOnce_directory (List.nodup_singleton _) ?_
      intro e he
      obtain rfl := List.mem_singleton.mp he
      exact hfile _ _
    · exact hfile _ _
    · exact hfile _ _
  refine Node.listsOnce_directory (List.nodup_singleton _) ?_
  intro e he
  obtain rfl := List.mem_singleton.mp he
  exact hnested

theorem list_nestedTree (pem other : String) :
    (nestedTree pem other).list (Path.ofText "keys") = .ok (nestedEntries pem other) := by rfl

theorem keyFileAt_nestedEntries_iff (pem other : String) :
    KeyFileAt (nestedEntries pem other) place kid ↔
      (place = [utf8 "b.pem", utf8 "a.pem"] ∨ place = [utf8 "a.pem"]) ∧ kid = "a" := by
  have hplaces : keyFiles (nestedEntries pem other) =
      [[utf8 "b.pem", utf8 "a.pem"], [utf8 "a.pem"]] := by rfl
  have honce := listsOnce_of_list (listsOnce_nestedTree pem other) (list_nestedTree pem other)
  rw [← keyFileAt_iff honce, hplaces, List.mem_pair]
  refine and_congr_right ?_
  rintro (rfl | rfl)
  · have hkid : kidOf? [utf8 "b.pem", utf8 "a.pem"] = some "a" := by decide +kernel
    rw [hkid, Option.some.injEq, eq_comm]
  · have hkid : kidOf? [utf8 "a.pem"] = some "a" := by decide +kernel
    rw [hkid, Option.some.injEq, eq_comm]

/-- A host that lets a program list directories and read no file. -/
def unreadableHost : Host :=
  { Host.lenient with
    refusal? := fun _ access _ => if access = .read then some .permissionDenied else none }

/-- The tree with the two key files under this host. -/
def unreadableSystem (pem other : String) : FileSystem :=
  ⟨unreadableHost, nestedTree pem other⟩

section Nested

variable {pem other : String} {result : Except KeyFailure KeyStore}

/-- Where both files hold their pairs, the outcome has the pair of the nested one. -/
theorem Outcome.exists_store_nested
    (hfirst : pairAt (nestedTree pem other) (Path.ofText "keys") [utf8 "a.pem"] "a" =
      .ok Fixtures.primaryPair)
    (hlast : pairAt (nestedTree pem other) (Path.ofText "keys") [utf8 "b.pem", utf8 "a.pem"] "a" =
      .ok Fixtures.secondaryPair)
    (h : Outcome (KeyFileAt (nestedEntries pem other))
      (pairAt (nestedTree pem other) (Path.ofText "keys")) result) :
    ∃ store, result = .ok store ∧ (∀ kid, kid ∈ store.kids ↔ kid = "a") ∧
      store.pairs.find? "a" = some Fixtures.secondaryPair := by
  cases h with
  | failed stands fails first =>
    obtain ⟨rfl | rfl, rfl⟩ := (keyFileAt_nestedEntries_iff pem other).mp stands
    · rw [hlast] at fails
      cases fails
    · rw [hfirst] at fails
      cases fails
  | @loaded store all kids last =>
    refine ⟨store, rfl, ?_, (last _ _).mpr
      ⟨_, (keyFileAt_nestedEntries_iff pem other).mpr ⟨.inl rfl, rfl⟩, ?_, hlast⟩⟩
    · intro kid
      rw [kids]
      constructor
      · rintro ⟨place, hfile⟩
        exact ((keyFileAt_nestedEntries_iff pem other).mp hfile).2
      · rintro rfl
        exact ⟨_, (keyFileAt_nestedEntries_iff pem other).mpr ⟨.inr rfl, rfl⟩⟩
    · intro place hfile
      obtain ⟨rfl | rfl, -⟩ := (keyFileAt_nestedEntries_iff pem other).mp hfile
      · exact List.le_refl _
      · decide +kernel

/-- Where no file can be read, the outcome is that the first one cannot. -/
theorem Outcome.eq_error_unreadable
    (h : Outcome (KeyFileAt (nestedEntries pem other))
      (pairAt (unreadableSystem pem other) (Path.ofText "keys")) result) :
    result = .error (.io (Path.ofText "keys/a.pem") .permissionDenied) := by
  have hdenied : ∀ place kid, pairAt (unreadableSystem pem other) (Path.ofText "keys") place kid =
      .error (.io (pathBelow (Path.ofText "keys") place) .permissionDenied) := fun _ _ => rfl
  have hpath : pathBelow (Path.ofText "keys") [utf8 "a.pem"] = Path.ofText "keys/a.pem" := by
    decide +kernel
  have hfile : KeyFileAt (nestedEntries pem other) [utf8 "a.pem"] "a" :=
    (keyFileAt_nestedEntries_iff pem other).mpr ⟨.inr rfl, rfl⟩
  cases h with
  | failed stands fails first =>
    obtain ⟨rfl | rfl, rfl⟩ := (keyFileAt_nestedEntries_iff pem other).mp stands
    · obtain ⟨pair, hpair⟩ := first _ _ hfile (by decide +kernel)
      rw [hdenied] at hpair
      cases hpair
    · rw [hdenied, hpath] at fails
      rw [Except.error.inj fails]
  | loaded all kids last =>
    obtain ⟨pair, hpair⟩ := all _ _ hfile
    rw [hdenied] at hpair
    cases hpair

end Nested

/-- Both files are loaded, and the nested one counts because it is the later one.  If no file can be
read, this is reported of the other one, which is the first one, though it is listed last. -/
theorem ofDirectory_outcome_nested :
    ∃ pem other store, Fixtures.primaryPair.privatePem = .ok pem ∧
      Fixtures.secondaryPair.privatePem = .ok other ∧
      (nestedTree pem other).root.ListsOnce ∧
      (nestedTree pem other).list (Path.ofText "keys") = .ok (nestedEntries pem other) ∧
      ListsBelow (nestedTree pem other) (Path.ofText "keys")
        (.directory (nestedEntries pem other)) ∧
      (KeyStore.ofDirectory (nestedTree pem other) (Path.ofText "keys")).1 = .ok store ∧
      (∀ kid, kid ∈ store.kids ↔ kid = "a") ∧
      store.pairs.find? "a" = some Fixtures.secondaryPair ∧
      (unreadableSystem pem other).list (Path.ofText "keys") = .ok (nestedEntries pem other) ∧
      ListsBelow (unreadableSystem pem other) (Path.ofText "keys")
        (.directory (nestedEntries pem other)) ∧
      (KeyStore.ofDirectory (unreadableSystem pem other) (Path.ofText "keys")).1 =
        .error (.io (Path.ofText "keys/a.pem") .permissionDenied) := by
  obtain ⟨pem, hpem⟩ := Fixtures.exists_primaryPem
  obtain ⟨other, hother⟩ := Fixtures.exists_secondaryPem
  have honce := listsOnce_nestedTree pem other
  have hlist := (FileSystem.list_coe _ _).trans (list_nestedTree pem other)
  have hbelow := listsBelow_lenient (nestedTree pem other) (Path.ofText "keys")
    (.directory (nestedEntries pem other))
  have hlist' : (unreadableSystem pem other).list (Path.ofText "keys") =
      .ok (nestedEntries pem other) := list_nestedTree pem other
  have hbelow' : ListsBelow (unreadableSystem pem other) (Path.ofText "keys")
      (.directory (nestedEntries pem other)) := fun _ _ _ => rfl
  obtain ⟨store, hstore, hkids, hlast⟩ :=
    (ofDirectory_outcome honce hlist hbelow).outcome.exists_store_nested
      (pairAt_of_drawn Fixtures.primaryPair_drawn hpem rfl)
      (pairAt_of_drawn Fixtures.secondaryPair_drawn hother rfl)
  exact ⟨pem, other, store, hpem, hother, honce, list_nestedTree pem other, hbelow, hstore, hkids,
    hlast, hlist', hbelow', (ofDirectory_outcome honce hlist' hbelow').outcome.eq_error_unreadable⟩

end KeyDirectory

end BearerAuth
