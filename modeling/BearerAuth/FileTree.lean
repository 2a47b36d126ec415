import BearerAuth.FileTree.Path

/-!
# File trees

A tree of directories, files and symbolic links, and the directory in which a program runs.  The
entries of a directory have an order, in which they are listed; it is whatever the system chooses,
and no name occurs twice.  A file has one name: that a second name stands for the same file is not
modelled, and neither are nodes of other kinds, such as pipes and devices.

A place in the tree is given by the names that lead to it from the root.  Main statements:
`Node.at?_put_self` and `Node.at?_put_of_apart` say what putting a node in a place changes.
-/

namespace BearerAuth

/-- Permission bits. -/
abbrev FileMode := Nat

/-- The names that lead from the root to a place. -/
abbrev Location := List FileName

mutual

/-- What stands in a place. -/
inductive Node where
  | file (mode : FileMode) (content : Bytes)
  /-- A symbolic link. -/
  | link (target : Path)
  | directory (entries : Entries)

/-- The entries of a directory, in the order in which they are listed. -/
inductive Entries where
  | nil
  | cons (name : FileName) (node : Node) (rest : Entries)

end

namespace Entries

/-- The entry of a name. -/
def find? (name : FileName) : Entries → Option Node
  | nil => none
  | cons n node rest => if name = n then some node else rest.find? name

/-- Puts an entry in the place of the one of the same name, or else behind the others. -/
def set (name : FileName) (node : Node) : Entries → Entries
  | nil => cons name node nil
  | cons n old rest => if name = n then cons name node rest else cons n old (rest.set name node)

/-- The entries, in order. -/
def toList : Entries → List (FileName × Node)
  | nil => []
  | cons name node rest => (name, node) :: rest.toList

theorem find?_set (name other : FileName) (node : Node) : ∀ es : Entries,
    (es.set name node).find? other = if other = name then some node else es.find? other
  | nil => by simp [set, find?]
  | cons n old rest => by
    have ih := find?_set name other node rest
    grind [set, find?]

end Entries

namespace Node

/-- The node is a directory. -/
def isDirectory : Node → Bool
  | directory _ => true
  | _ => false

/-- What stands in a place below a node; links are not followed. -/
def at? : Node → Location → Option Node
  | node, [] => some node
  | directory entries, name :: rest =>
      match entries.find? name with
      | some child => at? child rest
      | none => none
  | _, _ :: _ => none

/-- Puts a node in a place, if the place is one or could be an entry of a directory. -/
def put (new : Node) : Location → Node → Node
  | [], _ => new
  | name :: rest, directory entries =>
      match entries.find? name, rest with
      | some child, rest => directory (entries.set name (put new rest child))
      | none, [] => directory (entries.set name new)
      | none, _ :: _ => directory entries
  | _ :: _, node => node

theorem at?_put_self {new node : Node} {place : Location} {name : FileName} {entries : Entries}
    (h : node.at? place = some (directory entries)) :
    (put new (place ++ [name]) node).at? (place ++ [name]) = some new := by
  induction place generalizing node with
  | nil =>
    obtain rfl : node = directory entries := by simpa [at?] using h
    cases hf : entries.find? name <;> simp [put, at?, hf, Entries.find?_set]
  | cons n place ih =>
    cases node with
    | directory es =>
      cases hf : es.find? n with
      | none => simp [at?, hf] at h
      | some child =>
        have hc : child.at? place = some (directory entries) := by simpa [at?, hf] using h
        simp [put, at?, hf, Entries.find?_set, ih hc]
    | file _ _ => simp [at?] at h
    | link _ => simp [at?] at h

/-- Putting a node in a place changes nothing in places that are neither below nor above it. -/
theorem at?_put_of_apart {new node : Node} {place other : Location}
    (hb : ¬ place <+: other) (ha : ¬ other <+: place) :
    (put new place node).at? other = node.at? other := by
  induction place generalizing node other with
  | nil => simp at hb
  | cons n place ih =>
    cases other with
    | nil => simp at ha
    | cons m other =>
      cases node with
      | directory es =>
        by_cases hm : m = n
        · subst hm
          simp only [List.cons_prefix_cons, true_and] at hb ha
          cases hf : es.find? m with
          | none =>
            cases place with
            | nil => simp at hb
            | cons _ _ => simp [put, at?, hf]
          | some child => simp [put, at?, hf, Entries.find?_set, ih hb ha]
        · cases hf : es.find? n with
          | none => cases place <;> simp [put, at?, hf, Entries.find?_set, hm]
          | some child => simp [put, at?, hf, Entries.find?_set, hm]
      | file _ _ => simp [put]
      | link _ => simp [put]

end Node

/-- A tree, and the directory in which a program runs. -/
structure FileTree where
  root : Node
  workingDirectory : Location

namespace FileTree

/-- What stands in a place. -/
def at? (t : FileTree) (place : Location) : Option Node :=
  t.root.at? place

/-- Puts a node in a place. -/
def put (t : FileTree) (place : Location) (node : Node) : FileTree :=
  { t with root := node.put place t.root }

end FileTree

end BearerAuth
