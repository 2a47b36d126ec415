import Mathlib
import BearerAuth.Proofs.FileTree.Access
import BearerAuth.Proofs.FileTree.Entries

/-!
# The order in which directories are listed

The system lists the entries of a directory in an order of its own.  Trees that differ in nothing
else have the same in every place, so that a path leads to the same place in both, and a file has
the same content.

Main statements: `FileTree.SameUpToOrder.read_eq` and `FileTree.SameUpToOrder.exists_list`, and the
same of file systems whose hosts refuse the same.
-/

namespace BearerAuth

/-! ### Trees -/

/-- The nodes are the same, except that a directory may list its names in another order. -/
inductive Node.Alike : Node → Node → Prop
  | file (mode : FileMode) (content : Bytes) : Alike (.file mode content) (.file mode content)
  | link (target : Path) : Alike (.link target) (.link target)
  | directory {es es' : Entries} (h : es.names.Perm es'.names) :
      Alike (.directory es) (.directory es')

/-- Below the nodes the same stands in every place, except that directories may list their names in
another order. -/
def Node.SameBelow (x y : Node) : Prop :=
  ∀ place, Option.Rel Node.Alike (x.at? place) (y.at? place)

/-- No directory below the node lists a name twice. -/
def Node.ListsOnce (x : Node) : Prop :=
  ∀ place es, x.at? place = some (.directory es) → es.names.Nodup

namespace FileTree

/-- The trees differ only in the orders in which their directories are listed. -/
structure SameUpToOrder (t t' : FileTree) : Prop where
  workingDirectory : t'.workingDirectory = t.workingDirectory
  root : t.root.SameBelow t'.root

variable {t t' : FileTree}

/-! ### Walks -/

/-- A walk does not depend on the order of entries, if the walk behind a link does not. -/
theorem SameUpToOrder.walkFrom_eq (h : t.SameUpToOrder t') (b : Bool)
    (follow : Path → Location → List Path.Step → Except IoCause Destination)
    (steps : List Path.Step) (place : Location) :
    walkFrom t' b follow steps place = walkFrom t b follow steps place := by
  induction steps generalizing place with
  | nil => rfl
  | cons step steps ih =>
    cases step with
    | here => exact ih place
    | up => exact ih place.dropLast
    | entry name =>
      rw [walkFrom, walkFrom]
      split
      · rfl
      · have halike : Option.Rel Node.Alike (t.at? (place ++ [name])) (t'.at? (place ++ [name])) :=
          h.root _
        generalize t.at? (place ++ [name]) = x at halike
        generalize t'.at? (place ++ [name]) = y at halike
        cases halike with
        | none => rfl
        | some hxy =>
          cases hxy with
          | file => rfl
          | link => rfl
          | directory => exact ih _

theorem SameUpToOrder.walkSteps_eq (h : t.SameUpToOrder t') (links : Nat) (b : Bool)
    (steps : List Path.Step) (place : Location) :
    walkSteps t' links b steps place = walkSteps t links b steps place := by
  induction links generalizing b steps place with
  | zero => exact h.walkFrom_eq b _ steps place
  | succ links ih =>
    rw [walkSteps, walkSteps, h.walkFrom_eq]
    simp only [ih]

/-- A path leads to the same place. -/
theorem SameUpToOrder.walk_eq (h : t.SameUpToOrder t') (path : Path) :
    t'.walk path = t.walk path := by
  rw [walk, walk, h.walkSteps_eq, h.workingDirectory]

/-- A file has the same content under every path. -/
theorem SameUpToOrder.read_eq (h : t.SameUpToOrder t') (path : Path) :
    t'.read path = t.read path := by
  unfold read resolve
  rw [h.walk_eq]
  cases t.walk path with
  | error cause => rfl
  | ok d =>
    have halike : Option.Rel Node.Alike (t.at? d.place) (t'.at? d.place) := h.root _
    simp only [Except.ok_bind]
    generalize t.at? d.place = x at halike
    generalize t'.at? d.place = y at halike
    cases halike with
    | none => rfl
    | some hxy =>
      cases hxy with
      | file => rfl
      | link => rfl
      | directory => rfl

/-- A directory that is listed in one tree is listed in the other, and has the same below it. -/
theorem SameUpToOrder.exists_list {path : Path} {es : Entries} (h : t.SameUpToOrder t')
    (hlist : t.list path = .ok es) :
    ∃ es', t'.list path = .ok es' ∧ (Node.directory es).SameBelow (.directory es') := by
  obtain ⟨d, hwalk, hd⟩ := list_eq_ok_iff.mp hlist
  have halike : Option.Rel Node.Alike (t.at? d.place) (t'.at? d.place) := h.root _
  obtain ⟨es', hes'⟩ : ∃ es', t'.at? d.place = some (.directory es') := by
    generalize t'.at? d.place = y at halike
    rw [hd] at halike
    cases halike with
    | some hxy =>
      cases hxy with
      | directory => exact ⟨_, rfl⟩
  refine ⟨es', list_eq_ok_iff.mpr ⟨d, (h.walk_eq path).trans hwalk, hes'⟩, ?_⟩
  intro place
  have hbelow := h.root (d.place ++ place)
  rw [at?] at hd hes'
  rwa [Node.at?_append, Node.at?_append, hd, hes'] at hbelow

end FileTree

namespace Node

variable {x y : Node}

/-! ### Directories that list no name twice -/

/-- What is not a directory lists nothing. -/
theorem listsOnce_of_notDirectory (h : x.isDirectory = false) : x.ListsOnce := by
  intro place es hes
  cases place with
  | nil =>
    obtain rfl := Option.some.inj hes
    cases h
  | cons name place =>
    cases x with
    | directory entries => cases h
    | file mode content => cases hes
    | link target => cases hes

/-- A directory lists no name twice below it if none of its entries does. -/
theorem listsOnce_directory {es : Entries} (h : es.names.Nodup)
    (hentries : ∀ e ∈ es.toList, e.2.ListsOnce) : (directory es).ListsOnce := by
  intro place below hbelow
  cases place with
  | nil =>
    cases hbelow
    exact h
  | cons name place =>
    rw [at?] at hbelow
    cases hfind : es.find? name with
    | none =>
      rw [hfind] at hbelow
      cases hbelow
    | some child =>
      rw [hfind] at hbelow
      exact hentries _ (Entries.mem_toList_of_find? hfind) place below hbelow

/-- What lists no name twice has nothing below it that does. -/
theorem ListsOnce.of_at? {place : Location} (h : x.ListsOnce) (hy : x.at? place = some y) :
    y.ListsOnce := by
  intro below es hes
  refine h (place ++ below) es ?_
  rw [at?_append, hy]
  exact hes

/-- Another order brings no name twice. -/
theorem ListsOnce.of_sameBelow (h : x.ListsOnce) (hsame : x.SameBelow y) : y.ListsOnce := by
  intro place es hes
  have halike := hsame place
  rw [hes] at halike
  generalize hx : x.at? place = found at halike
  cases halike with
  | some hxy =>
    cases hxy with
    | directory hperm => exact hperm.nodup_iff.mp (h place _ hx)

/-- What is not a directory is found in the same places. -/
theorem SameBelow.exists_notDirectory {place : Location} (h : x.SameBelow y)
    (hx : ∃ node, x.at? place = some node ∧ node.isDirectory = false) :
    ∃ node, y.at? place = some node ∧ node.isDirectory = false := by
  obtain ⟨node, hnode, hfile⟩ := hx
  have halike := h place
  rw [hnode] at halike
  generalize y.at? place = found at halike ⊢
  cases halike with
  | some hxy =>
    cases hxy with
    | file => exact ⟨_, rfl, hfile⟩
    | link => exact ⟨_, rfl, hfile⟩
    | directory => cases hfile

/-- Where one node has a directory the other has one too. -/
theorem SameBelow.exists_directory {place : Location} {es : Entries} (h : x.SameBelow y)
    (hx : x.at? place = some (.directory es)) : ∃ es', y.at? place = some (.directory es') := by
  have halike := h place
  rw [hx] at halike
  generalize y.at? place = found at halike ⊢
  cases halike with
  | some hxy =>
    cases hxy with
    | directory => exact ⟨_, rfl⟩

theorem SameBelow.symm (h : x.SameBelow y) : y.SameBelow x := by
  intro place
  have halike := h place
  generalize x.at? place = found at halike ⊢
  generalize y.at? place = found' at halike ⊢
  cases halike with
  | none => exact .none
  | some hxy =>
    cases hxy with
    | file => exact .some (.file ..)
    | link => exact .some (.link _)
    | directory hperm => exact .some (.directory hperm.symm)

end Node

/-! ### File systems -/

namespace FileSystem

/-- The file systems differ only in the orders in which directories are listed: in the present
states of their trees the hosts refuse the same. -/
structure SameUpToOrder (s s' : FileSystem) : Prop where
  tree : s.tree.SameUpToOrder s'.tree
  refusal? : ∀ access path, s'.refusal? access path = s.refusal? access path

variable {s s' : FileSystem} {path : Path} {es : Entries}

/-- What is listed is what stands in the tree, and listing it is not refused. -/
theorem list_eq_ok_iff :
    s.list path = .ok es ↔ s.refusal? .list path = none ∧ s.tree.list path = .ok es := by
  rw [list]
  cases s.refusal? .list path <;> simp

/-- What is read under a path is the same in both. -/
theorem SameUpToOrder.read_eq (h : s.SameUpToOrder s') (path : Path) :
    s'.read path = s.read path := by
  rw [read, read, h.refusal?, h.tree.read_eq]

/-- A directory that is listed in one of them is listed in the other, and has the same below it. -/
theorem SameUpToOrder.exists_list (h : s.SameUpToOrder s') (hlist : s.list path = .ok es) :
    ∃ es', s'.list path = .ok es' ∧ (Node.directory es).SameBelow (.directory es') := by
  obtain ⟨hallowed, htree⟩ := list_eq_ok_iff.mp hlist
  obtain ⟨es', htree', hbelow⟩ := h.tree.exists_list htree
  exact ⟨es', list_eq_ok_iff.mpr ⟨(h.refusal? ..).trans hallowed, htree'⟩, hbelow⟩

end FileSystem

end BearerAuth
