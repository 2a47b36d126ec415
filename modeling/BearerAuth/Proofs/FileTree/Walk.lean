import Mathlib
import BearerAuth.Proofs.FileTree.Path

/-!
# Walks to a directory

A walk that ends at a directory has passed nothing but directories and links.  It can be extended by
a name, and without its last step it ends at a directory too.

Main statements: `FileTree.walkSteps_append_entry` and `FileTree.walkSteps_dropLast`.
-/

namespace BearerAuth

/-! ### Places -/

namespace Node

variable {node child new : Node}

/-- What stands below a place is found from the place. -/
theorem at?_append (node : Node) (place below : Location) :
    node.at? (place ++ below) = (node.at? place).bind fun child => child.at? below := by
  induction place generalizing node with
  | nil => rfl
  | cons n place ih =>
    cases node with
    | directory es =>
      rw [List.cons_append, at?, at?]
      cases es.find? n with
      | none => rfl
      | some child => exact ih child
    | file _ _ => rfl
    | link _ => rfl

/-- Only a directory has something below it. -/
theorem exists_directory_of_at? {name : FileName} (h : node.at? [name] = some child) :
    ∃ es, node = directory es := by
  cases node with
  | directory es => exact ⟨es, rfl⟩
  | file _ _ => cases h
  | link _ => cases h

/-- Putting a node below a place changes what stands in the place just there. -/
theorem at?_put_append {place below : Location} (h : node.at? place = some child) :
    (put new (place ++ below) node).at? place = some (put new below child) := by
  induction place generalizing node with
  | nil =>
    obtain rfl : node = child := Option.some.inj h
    rfl
  | cons n place ih =>
    cases node with
    | directory es =>
      cases hfind : es.find? n with
      | none => simp [at?, hfind] at h
      | some next =>
        have hnext : next.at? place = some child := by simpa [at?, hfind] using h
        simp [put, at?, hfind, Entries.find?_set, ih hnext]
    | file _ _ => cases h
    | link _ => cases h

/-- Putting a node in a directory sets its entry. -/
theorem put_singleton (name : FileName) (entries : Entries) :
    put new [name] (directory entries) = directory (entries.set name new) := by
  cases hfind : entries.find? name <;> simp [put, hfind]

end Node

namespace FileTree

variable {t : FileTree} {place : Location}

/-- A directory stands in the place. -/
def HasDirectory (t : FileTree) (place : Location) : Prop :=
  ∃ es, t.at? place = some (.directory es)

/-- Below a place that has an entry stands a directory. -/
theorem hasDirectory_of_at? {name : FileName} {child : Node}
    (h : t.at? (place ++ [name]) = some child) : t.HasDirectory place := by
  rw [at?, Node.at?_append] at h
  obtain ⟨node, hnode, hchild⟩ := Option.bind_eq_some_iff.mp h
  obtain ⟨es, rfl⟩ := Node.exists_directory_of_at? hchild
  exact ⟨es, hnode⟩

/-- Whatever leads to a directory is one. -/
theorem HasDirectory.of_append (below : Location) (h : t.HasDirectory (place ++ below)) :
    t.HasDirectory place := by
  cases below with
  | nil => rwa [List.append_nil] at h
  | cons name below =>
    obtain ⟨es, hes⟩ := h
    rw [← List.singleton_append, ← List.append_assoc, at?, Node.at?_append] at hes
    obtain ⟨child, hchild, -⟩ := Option.bind_eq_some_iff.mp hes
    exact hasDirectory_of_at? hchild

theorem HasDirectory.dropLast (h : t.HasDirectory place) : t.HasDirectory place.dropLast := by
  cases hlast : place.getLast? with
  | none =>
    obtain rfl := List.getLast?_eq_none_iff.mp hlast
    exact h
  | some name =>
    obtain ⟨front, rfl⟩ := List.getLast?_eq_some_iff.mp hlast
    rw [List.dropLast_concat]
    exact HasDirectory.of_append [name] h

theorem HasDirectory.startOf (h : t.HasDirectory place) (path : Path) :
    t.HasDirectory (startOf path place) := by
  unfold FileTree.startOf
  split
  · exact HasDirectory.of_append place h
  · exact h

/-! ### Walks -/

/-- A walk to a directory is the first part of a longer one. -/
theorem walkFrom_append {b b' : Bool} {d : Destination} {more : List Path.Step}
    {follow follow' : Path → Location → List Path.Step → Except IoCause Destination}
    {result : Except IoCause Destination} (hd : t.HasDirectory d.place)
    (hend : walkFrom t b' follow' more d.place = result)
    (hfollow : ∀ target q rest, follow target q rest = .ok d →
      follow' target q (rest ++ more) = result)
    {steps : List Path.Step} (h : walkFrom t b follow steps place = .ok d) :
    walkFrom t b' follow' (steps ++ more) place = result := by
  induction steps generalizing place with
  | nil =>
    obtain rfl : ⟨place, b⟩ = d := Except.ok.inj h
    exact hend
  | cons step steps ih =>
    cases step with
    | here => exact ih h
    | up => exact ih h
    | entry name =>
      rw [walkFrom] at h
      rw [List.cons_append, walkFrom]
      split at h
      · cases h
      · rename_i hlength
        rw [if_neg hlength]
        split at h
        · -- Nothing stands where the walk would have to end.
          rename_i hnone
          split at h
          · obtain rfl := Except.ok.inj h
            obtain ⟨es, hes⟩ := hd
            rw [hnone] at hes
            cases hes
          · cases h
        · rename_i hfile
          split at h
          · obtain rfl := Except.ok.inj h
            obtain ⟨es, hes⟩ := hd
            rw [hfile] at hes
            cases hes
          · cases h
        · exact ih h
        · exact hfollow _ place steps h

/-- Behind a walk to a directory a name leads to its place in the directory, unless the name is too
long.  There may be nothing yet, or a file. -/
theorem walkSteps_append_entry {links : Nat} {b : Bool} {steps : List Path.Step} {d : Destination}
    {name : FileName} (b' : Bool) (hd : t.HasDirectory d.place)
    (hfree : t.at? (d.place ++ [name]) = none ∨
      ∃ mode content, t.at? (d.place ++ [name]) = some (.file mode content))
    (h : walkSteps t links b steps place = .ok d) :
    walkSteps t links b' (steps ++ [.entry name]) place =
      if name.length > maxNameLength then .error .nameTooLong
      else .ok ⟨d.place ++ [name], b'⟩ := by
  have hend : ∀ follow, walkFrom t b' follow [.entry name] d.place =
      if name.length > maxNameLength then .error .nameTooLong
      else .ok ⟨d.place ++ [name], b'⟩ := by
    intro follow
    rw [walkFrom]
    rcases hfree with hnone | ⟨mode, content, hfile⟩
    · rw [hnone]
      rfl
    · rw [hfile]
      rfl
  induction links generalizing b steps place with
  | zero =>
    refine walkFrom_append hd (hend _) ?_ h
    intro target q rest hfollow
    cases hfollow
  | succ links ih =>
    refine walkFrom_append hd (hend _) ?_ h
    intro target q rest hfollow
    split at hfollow
    · cases hfollow
    · rename_i hne
      have hflag : (b' || ((rest ++ [Path.Step.entry name]).isEmpty && target.endsWithSlash)) =
          b' := by
        simp
      rw [if_neg hne, hflag, ← List.append_assoc]
      exact ih hfollow

/-- A single step into an entry leads to a directory only from a directory. -/
theorem hasDirectory_of_walkFrom_entry {b : Bool} {d : Destination} {name : FileName}
    {follow : Path → Location → List Path.Step → Except IoCause Destination}
    (hd : t.HasDirectory d.place) (h : walkFrom t b follow [.entry name] place = .ok d) :
    t.HasDirectory place := by
  rw [walkFrom] at h
  split at h
  · cases h
  · split at h
    · rename_i hnone
      obtain rfl := Except.ok.inj h
      obtain ⟨es, hes⟩ := hd
      rw [hnone] at hes
      cases hes
    · rename_i hfile
      exact hasDirectory_of_at? hfile
    · rename_i hes
      exact hasDirectory_of_at? hes
    · rename_i hlink
      exact hasDirectory_of_at? hlink

/-- Up to its last step a walk to a directory leads to a directory, or it starts outside of all
directories and only goes up. -/
theorem walkFrom_dropLast {b b' : Bool} {d : Destination} {last : Path.Step}
    {follow follow' : Path → Location → List Path.Step → Except IoCause Destination}
    (hd : t.HasDirectory d.place)
    (hfollow : ∀ target q rest, t.HasDirectory q → follow target q (rest ++ [last]) = .ok d →
      ∃ d', follow' target q rest = .ok d' ∧ t.HasDirectory d'.place)
    {steps : List Path.Step} (h : walkFrom t b follow (steps ++ [last]) place = .ok d) :
    (∃ d', walkFrom t b' follow' steps place = .ok d' ∧ t.HasDirectory d'.place) ∨
      ¬ t.HasDirectory place ∧ ∀ step ∈ steps ++ [last], ¬ step.IsEntry := by
  induction steps generalizing place with
  | nil =>
    by_cases hplace : t.HasDirectory place
    · exact .inl ⟨⟨place, b'⟩, rfl, hplace⟩
    · refine .inr ⟨hplace, ?_⟩
      intro step hstep hentry
      obtain rfl : step = last := List.mem_singleton.mp hstep
      cases step with
      | here => exact hentry
      | up => exact hentry
      | entry name => exact hplace (hasDirectory_of_walkFrom_entry hd h)
  | cons step steps ih =>
    cases step with
    | here =>
      rcases ih h with hwalk | ⟨hplace, hup⟩
      · exact .inl hwalk
      · exact .inr ⟨hplace, List.forall_mem_cons.mpr ⟨id, hup⟩⟩
    | up =>
      rcases ih h with hwalk | ⟨hplace, hup⟩
      · exact .inl hwalk
      · exact .inr ⟨fun hdirectory => hplace hdirectory.dropLast,
          List.forall_mem_cons.mpr ⟨id, hup⟩⟩
    | entry name =>
      have hmore : (steps ++ [last]).isEmpty = false := by simp
      rw [List.cons_append, walkFrom] at h
      rw [walkFrom]
      split at h
      · cases h
      · rename_i hlength
        rw [if_neg hlength]
        rw [hmore] at h
        split at h
        · cases h
        · cases h
        · rename_i es hes
          rcases ih h with hwalk | ⟨hplace, -⟩
          · exact .inl hwalk
          · exact absurd ⟨es, hes⟩ hplace
        · rename_i target hlink
          exact .inl (hfollow target place steps (hasDirectory_of_at? hlink) h)

/-- Up to its last step a walk to a directory leads to a directory, or it starts outside of all
directories and only goes up. -/
theorem walkSteps_dropLast {links : Nat} {b : Bool} {steps : List Path.Step} {last : Path.Step}
    {d : Destination} (b' : Bool) (hd : t.HasDirectory d.place)
    (h : walkSteps t links b (steps ++ [last]) place = .ok d) :
    (∃ d', walkSteps t links b' steps place = .ok d' ∧ t.HasDirectory d'.place) ∨
      ¬ t.HasDirectory place ∧ ∀ step ∈ steps ++ [last], ¬ step.IsEntry := by
  induction links generalizing b b' steps place with
  | zero =>
    refine walkFrom_dropLast hd ?_ h
    intro target q rest _ hfollow
    cases hfollow
  | succ links ih =>
    refine walkFrom_dropLast hd ?_ h
    intro target q rest hq hfollow
    split at hfollow
    · cases hfollow
    · rename_i hne
      rw [if_neg hne]
      rw [← List.append_assoc] at hfollow
      rcases ih _ hfollow with hwalk | ⟨hstart, -⟩
      · exact hwalk
      · exact absurd (hq.startOf target) hstart

end FileTree

end BearerAuth
