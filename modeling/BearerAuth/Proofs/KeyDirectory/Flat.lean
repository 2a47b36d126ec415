import Mathlib
import BearerAuth.Proofs.FileTree.Writing
import BearerAuth.Proofs.KeyDirectory.Loading

/-!
# Directories of files

A directory that has nothing but files stays one when a file is written somewhere in the tree:
either the file is one of its entries, or nothing changes in it.  If it is loaded, its key ids are
those whose private files it lists.

Main statements: `FileTree.exists_list_of_write` and `KeyDirectory.mem_kids_iff_of_isFlat`.
-/

namespace BearerAuth

/-- The directory lists files only, no name twice and no name with a slash. -/
structure Entries.IsFlat (es : Entries) : Prop where
  nodup : es.names.Nodup
  files : ∀ e ∈ es.toList, (∃ mode content, e.2 = .file mode content) ∧ Path.slash ∉ e.1

namespace Entries.IsFlat

variable {es : Entries} {name : FileName}

theorem nil : Entries.nil.IsFlat :=
  ⟨List.nodup_nil, List.forall_mem_nil _⟩

theorem set (h : es.IsFlat) (hslash : Path.slash ∉ name) (mode : FileMode) (content : Bytes) :
    (es.set name (.file mode content)).IsFlat := by
  refine ⟨Entries.nodup_names_set h.nodup, ?_⟩
  intro e he
  rcases Entries.mem_toList_set he with rfl | hold
  · exact ⟨⟨mode, content, rfl⟩, hslash⟩
  · exact h.files e hold

/-- What is found is a file. -/
theorem exists_file {node : Node} (h : es.IsFlat) (hfind : es.find? name = some node) :
    ∃ mode content, node = .file mode content :=
  (h.files _ (Entries.mem_toList_of_find? hfind)).1

theorem slash_notMem (h : es.IsFlat) (hname : name ∈ es.names) : Path.slash ∉ name := by
  obtain ⟨e, he, rfl⟩ := List.mem_map.mp hname
  exact (h.files e he).2

theorem listsOnce (h : es.IsFlat) : (Node.directory es).ListsOnce := by
  refine Node.listsOnce_directory h.nodup ?_
  intro e he
  obtain ⟨⟨mode, content, hfile⟩, -⟩ := h.files e he
  rw [hfile]
  exact Node.listsOnce_of_notDirectory rfl

/-- Only the entries stand below the directory. -/
theorem at?_eq_some_iff {place : Location} {node : Node} (h : es.IsFlat) (hplace : place ≠ []) :
    (Node.directory es).at? place = some node ↔
      ∃ name, place = [name] ∧ es.find? name = some node := by
  obtain ⟨name, below, rfl⟩ := List.exists_cons_of_ne_nil hplace
  rw [Node.at?]
  cases hfind : es.find? name with
  | none => simp [hfind]
  | some child =>
    obtain ⟨mode, content, rfl⟩ := h.exists_file hfind
    cases below with
    | nil => simp [Node.at?, hfind]
    | cons n below => simp [Node.at?]

end Entries.IsFlat

namespace FileTree

variable {t t' : FileTree} {path directory : Path} {es : Entries} {mode : FileMode}
  {content : Bytes}

/-- A directory of files stays one, whatever file is written. -/
theorem exists_list_of_write (hstart : t.HasDirectory t.workingDirectory) (hflat : es.IsFlat)
    (hlist : t.list directory = .ok es) (h : t.write path mode content = .ok t') :
    ∃ es', t'.list directory = .ok es' ∧ es'.IsFlat := by
  obtain ⟨d, hwalk, hd⟩ := list_eq_ok_iff.mp hlist
  obtain ⟨parent, name, below, -, hparent, hfree, hslash, rfl⟩ := exists_of_write hstart h
  have hwritten := written_put_file hparent hfree (modeOver (t.at? (parent ++ [name])) mode) content
  have hwalk' := hwritten.walk_eq hwalk
  by_cases hsame : parent = d.place
  · subst hsame
    obtain rfl : below = es := by
      rw [hparent] at hd
      cases hd
      rfl
    exact ⟨_, list_eq_ok_iff.mpr ⟨d, hwalk', at?_put_entry hd name _⟩, hflat.set hslash _ _⟩
  · refine ⟨es, list_eq_ok_iff.mpr ⟨d, hwalk', ?_⟩, hflat⟩
    have hnot : ¬ t.HasDirectory (parent ++ [name]) :=
      ((isFree_append_singleton hparent).mpr hfree).not_hasDirectory
    rw [← hd]
    apply Node.at?_put_of_apart
    · rintro ⟨rest, hrest⟩
      exact hnot (HasDirectory.of_append rest ⟨es, by rw [hrest]; exact hd⟩)
    · intro habove
      rcases List.prefix_concat_iff.mp habove with heq | ⟨rest, hrest⟩
      · exact hnot ⟨es, by rw [← heq]; exact hd⟩
      · -- Below the directory there is no other directory.
        have hrestNe : rest ≠ [] := by
          rintro rfl
          exact hsame (by rw [← hrest, List.append_nil])
        rw [← hrest, at?, Node.at?_append] at hparent
        rw [at?] at hd
        rw [hd, Option.bind_some, hflat.at?_eq_some_iff hrestNe] at hparent
        obtain ⟨n, -, hfind⟩ := hparent
        obtain ⟨m, c, hfile⟩ := hflat.exists_file hfind
        cases hfile

end FileTree

namespace KeyDirectory

variable {es : Entries} {place : Location} {kid : String}

/-- The key files of such a directory are the private files that it lists. -/
theorem keyFileAt_iff_of_isFlat (h : es.IsFlat) :
    KeyFileAt es place kid ↔ kid ≠ "" ∧ place = [privateName kid] ∧ privateName kid ∈ es.names := by
  constructor
  · rintro ⟨⟨node, hat, hnode⟩, ⟨front, hplace⟩, hne⟩
    have hplaceNe : place ≠ [] := by
      rw [hplace]
      simp
    obtain ⟨name, rfl, hfind⟩ := (h.at?_eq_some_iff hplaceNe).mp hat
    have hname : [name] = [privateName kid] := by
      cases front with
      | nil => exact hplace
      | cons n front => simp at hplace
    obtain rfl := (List.cons.inj hname).1
    exact ⟨hne, rfl, Entries.mem_names_of_find? hfind⟩
  · rintro ⟨hne, rfl, hname⟩
    obtain ⟨node, hfind⟩ : ∃ node, es.find? (privateName kid) = some node := by
      cases hfind : es.find? (privateName kid) with
      | none => exact absurd hname (Entries.find?_eq_none_iff.mp hfind)
      | some node => exact ⟨node, rfl⟩
    obtain ⟨mode, content, rfl⟩ := h.exists_file hfind
    exact ⟨⟨_, (h.at?_eq_some_iff (List.cons_ne_nil _ _)).mpr ⟨_, rfl, hfind⟩, rfl⟩, ⟨[], rfl⟩, hne⟩

variable {t : FileTree} {directory : Path} {store : KeyStore}

/-- The key ids of the store that is loaded are those whose private files are listed. -/
theorem mem_kids_iff_of_isFlat (h : es.IsFlat) (hlist : t.list directory = .ok es)
    (hload : (KeyStore.ofDirectory t directory).1 = .ok store) :
    kid ∈ store.kids ↔ kid ≠ "" ∧ privateName kid ∈ es.names := by
  have houtcome := outcome_of_tree h.listsOnce hlist
  rw [hload] at houtcome
  cases houtcome with
  | loaded all kids last =>
    rw [kids]
    simp only [keyFileAt_iff_of_isFlat h]
    constructor
    · rintro ⟨place, hne, -, hname⟩
      exact ⟨hne, hname⟩
    · rintro ⟨hne, hname⟩
      exact ⟨_, hne, rfl, hname⟩

/-- A text that is empty or has a slash is not loaded as a key id. -/
theorem slash_notMem_of_mem_kids (h : es.IsFlat) (hlist : t.list directory = .ok es)
    (hload : (KeyStore.ofDirectory t directory).1 = .ok store) (hkid : kid ∈ store.kids) :
    kid ≠ "" ∧ '/' ∉ kid.toList := by
  obtain ⟨hne, hname⟩ := (mem_kids_iff_of_isFlat h hlist hload).mp hkid
  refine ⟨hne, fun hslash => h.slash_notMem hname ?_⟩
  rw [privateName_eq]
  exact List.mem_append_left _ ((ascii_mem_utf8_iff (by decide)).mpr hslash)

/-- Such a directory is loaded if the private files that it lists hold pairs. -/
theorem exists_store_of_isFlat (h : es.IsFlat) (hlist : t.list directory = .ok es)
    (hheld : ∀ kid, kid ≠ "" → privateName kid ∈ es.names →
      ∃ pair, pairAt t directory [privateName kid] kid = .ok pair) :
    ∃ store, (KeyStore.ofDirectory t directory).1 = .ok store := by
  have houtcome := outcome_of_tree h.listsOnce hlist
  generalize (KeyStore.ofDirectory t directory).1 = result at houtcome
  cases houtcome with
  | failed stands fails first =>
    obtain ⟨hne, rfl, hname⟩ := (keyFileAt_iff_of_isFlat h).mp stands
    obtain ⟨pair, hpair⟩ := hheld _ hne hname
    rw [fails] at hpair
    cases hpair
  | @loaded store all kids last => exact ⟨store, rfl⟩

end KeyDirectory

end BearerAuth
