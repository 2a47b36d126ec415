import Mathlib
import BearerAuth.Proofs.FileTree.Listing
import BearerAuth.Proofs.KeyDirectory

/-!
# Where key files stand

The key files of a directory are the files and links below it whose names are a key id with the
ending.  A place is for one key id.

Main statement: `KeyDirectory.keyFileAt_iff`.
-/

namespace BearerAuth

namespace KeyDirectory

variable {es : Entries} {name : FileName} {place : Location} {kid : String}

/-! ### Places of key files -/

/-- A place among the key files starts with the name of an entry under which it is found. -/
theorem mem_keyFiles_iff_exists : ∀ {es : Entries},
    place ∈ keyFiles es ↔ ∃ e ∈ es.toList, place ∈ keyFilesUnder e.1 e.2
  | .nil => by simp [keyFiles, Entries.toList]
  | .cons n x rest => by
    rw [keyFiles, List.mem_append, mem_keyFiles_iff_exists, Entries.toList,
      List.exists_mem_cons_iff]

/-- An entry stands for places that start with its name. -/
theorem exists_cons_of_mem_keyFilesUnder {node : Node} (h : place ∈ keyFilesUnder name node) :
    ∃ below, place = name :: below := by
  cases node with
  | directory entries =>
    rw [keyFilesUnder] at h
    obtain ⟨below, -, rfl⟩ := List.mem_map.mp h
    exact ⟨below, rfl⟩
  | file mode content =>
    rw [keyFilesUnder] at h
    split at h
    · exact ⟨[], List.mem_singleton.mp h⟩
    · cases h
  | link target =>
    rw [keyFilesUnder] at h
    split at h
    · exact ⟨[], List.mem_singleton.mp h⟩
    · cases h

/-- Where no name is listed twice, the places under a name are those of its entry. -/
theorem cons_mem_keyFiles_iff {below : Location} (h : es.names.Nodup) :
    name :: below ∈ keyFiles es ↔
      ∃ node, es.find? name = some node ∧ name :: below ∈ keyFilesUnder name node := by
  rw [mem_keyFiles_iff_exists]
  constructor
  · rintro ⟨⟨other, node⟩, hmem, hplace⟩
    obtain ⟨_, heq⟩ := exists_cons_of_mem_keyFilesUnder hplace
    obtain ⟨rfl, -⟩ := List.cons.inj heq
    exact ⟨node, Entries.find?_of_mem_toList h hmem, hplace⟩
  · rintro ⟨node, hfind, hplace⟩
    exact ⟨(name, node), Entries.mem_toList_of_find? hfind, hplace⟩

theorem cons_mem_keyFilesUnder_directory {below : Location} :
    name :: below ∈ keyFilesUnder name (.directory es) ↔ below ∈ keyFiles es := by
  rw [keyFilesUnder, List.mem_map]
  constructor
  · rintro ⟨found, hmem, heq⟩
    obtain ⟨-, rfl⟩ := List.cons.inj heq
    exact hmem
  · exact fun hmem => ⟨below, hmem, rfl⟩

/-- What is not a directory is a key file if its own name is that of one. -/
theorem cons_mem_keyFilesUnder_of_notDirectory {node : Node} {below : Location}
    (h : node.isDirectory = false) :
    name :: below ∈ keyFilesUnder name node ↔ below = [] ∧ isKeyFile name = true := by
  have hfile : keyFilesUnder name node = if isKeyFile name then [[name]] else [] := by
    cases node with
    | directory entries => cases h
    | file mode content => rfl
    | link target => rfl
  rw [hfile]
  split
  · rename_i hname
    simp [hname]
  · rename_i hname
    simp [hname]

/-- Below what is not a directory there is nothing. -/
theorem at?_of_notDirectory {node found : Node} {below : Location} (h : node.isDirectory = false) :
    node.at? below = some found ↔ below = [] ∧ found = node := by
  cases below with
  | nil => simp [Node.at?, eq_comm]
  | cons n below =>
    cases node with
    | directory entries => cases h
    | file mode content => simp [Node.at?]
    | link target => simp [Node.at?]

/-- The key files are the files and links, in any depth, whose names have the ending. -/
theorem mem_keyFiles_iff (h : (Node.directory es).ListsOnce) :
    place ∈ keyFiles es ↔ ∃ node last, (Node.directory es).at? place = some node ∧
      node.isDirectory = false ∧ place.getLast? = some last ∧ isKeyFile last = true := by
  have hnil : ∀ {es : Entries}, [] ∉ keyFiles es := by
    intro es hmem
    obtain ⟨e, -, hplace⟩ := mem_keyFiles_iff_exists.mp hmem
    obtain ⟨below, heq⟩ := exists_cons_of_mem_keyFilesUnder hplace
    cases heq
  induction place generalizing es with
  | nil => simp [hnil]
  | cons name below ih =>
    rw [cons_mem_keyFiles_iff (h [] es rfl)]
    cases hfind : es.find? name with
    | none => simp [Node.at?, hfind]
    | some node =>
      have hat : (Node.directory es).at? (name :: below) = node.at? below := by
        rw [Node.at?, hfind]
      simp only [hat, Option.some.injEq, exists_eq_left']
      cases hnode : node.isDirectory with
      | false =>
        simp only [cons_mem_keyFilesUnder_of_notDirectory hnode, at?_of_notDirectory hnode]
        constructor
        · rintro ⟨rfl, hname⟩
          exact ⟨node, name, ⟨rfl, rfl⟩, hnode, rfl, hname⟩
        · rintro ⟨_, last, ⟨rfl, rfl⟩, -, hlast, hname⟩
          obtain rfl := Option.some.inj hlast
          exact ⟨rfl, hname⟩
      | true =>
        obtain ⟨entries, rfl⟩ : ∃ entries, node = .directory entries := by
          cases node with
          | directory entries => exact ⟨entries, rfl⟩
          | file mode content => cases hnode
          | link target => cases hnode
        have hbelow : (Node.directory entries).ListsOnce := by
          have hentry : (Node.directory es).at? [name] = some (.directory entries) := by
            simp [Node.at?, hfind]
          exact h.of_at? hentry
        rw [cons_mem_keyFilesUnder_directory]
        cases below with
        | nil => simp [hnil, Node.at?, Node.isDirectory]
        | cons n below => simp only [ih hbelow, List.getLast?_cons_cons]

/-! ### Names of key files -/

/-- The names of key files are the names of the private files of key ids, none of which is empty. -/
theorem isKeyFile_and_stem_iff :
    isKeyFile name = true ∧ (FileName.stem name).text? = some kid ↔
      kid ≠ "" ∧ name = privateName kid := by
  have hending : ascii '.' ∉ utf8 "pem" := by decide
  have hempty : utf8 kid = [] ↔ kid = "" := by
    constructor
    · exact fun h => Bytes.utf8_injective h
    · rintro rfl
      rfl
  constructor
  · rintro ⟨hkey, hstem⟩
    have hextension : FileName.extension? name = some (utf8 "pem") := of_decide_eq_true hkey
    obtain ⟨⟨stem, _⟩, hsplit, rfl⟩ := Option.map_eq_some_iff.mp hextension
    rw [FileName.stem, hsplit] at hstem
    obtain rfl := Bytes.eq_utf8_of_text? hstem
    obtain ⟨hname, hne, -⟩ := FileName.splitExtension?_eq_some_iff.mp hsplit
    exact ⟨fun h => hne (hempty.mpr h), hname.trans (privateName_eq kid).symm⟩
  · rintro ⟨hne, rfl⟩
    have hsplit : FileName.splitExtension? (privateName kid) = some (utf8 kid, utf8 "pem") := by
      rw [privateName_eq]
      exact FileName.splitExtension?_append (fun h => hne (hempty.mp h)) hending
    rw [isKeyFile, FileName.extension?, FileName.stem, hsplit]
    exact ⟨rfl, Bytes.text?_utf8 kid⟩

/-- Below the directory a file or a link stands in the place, and its name is the key id, which is
not empty, with the ending of key files. -/
structure KeyFileAt (es : Entries) (place : Location) (kid : String) : Prop where
  stands : ∃ node, (Node.directory es).at? place = some node ∧ node.isDirectory = false
  named : ∃ front, place = front ++ [privateName kid]
  kid_ne : kid ≠ ""

/-- A place is for one key id. -/
theorem KeyFileAt.unique {other : String} (h : KeyFileAt es place kid)
    (h' : KeyFileAt es place other) : kid = other := by
  obtain ⟨front, hplace⟩ := h.named
  obtain ⟨front', hplace'⟩ := h'.named
  rw [hplace] at hplace'
  have hname : [privateName kid] = [privateName other] := List.append_inj_right' hplace' rfl
  exact privateName_injective (List.cons.inj hname).1

/-- The places that loading goes through are those of key files for a key id. -/
theorem keyFileAt_iff (h : (Node.directory es).ListsOnce) :
    place ∈ keyFiles es ∧ kidOf? place = some kid ↔ KeyFileAt es place kid := by
  rw [mem_keyFiles_iff h, kidOf?]
  constructor
  · rintro ⟨⟨node, last, hat, hnode, hlast, hkey⟩, hkid⟩
    rw [hlast, Option.bind_some] at hkid
    obtain ⟨hne, rfl⟩ := isKeyFile_and_stem_iff.mp ⟨hkey, hkid⟩
    obtain ⟨front, hplace⟩ := List.getLast?_eq_some_iff.mp hlast
    exact ⟨⟨node, hat, hnode⟩, ⟨front, hplace⟩, hne⟩
  · rintro ⟨⟨node, hat, hnode⟩, ⟨front, hplace⟩, hne⟩
    obtain ⟨hkey, hstem⟩ := isKeyFile_and_stem_iff.mpr ⟨hne, rfl⟩
    have hlast : place.getLast? = some (privateName kid) := by
      rw [hplace, List.getLast?_concat]
    refine ⟨⟨node, privateName kid, hat, hnode, hlast, hkey⟩, ?_⟩
    rw [hlast]
    exact hstem

end KeyDirectory

end BearerAuth
