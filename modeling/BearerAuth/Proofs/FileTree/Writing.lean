import Mathlib
import BearerAuth.Proofs.FileTree.Access

/-!
# Files that are written by their paths

A path may lead anywhere, through links and upwards.  Where a file can be written under it, the path
leads to a name in a directory, under which nothing or a file stands.  The file is put there, with
its old mode if there was one, and no walk is led elsewhere by this.

To make a directory puts an empty one where nothing stood.

Main statements: `FileTree.Written.walk_eq`, `FileTree.list_of_write`, `FileTree.exists_of_write`
and `FileTree.grown_makeDirectory`.
-/

namespace BearerAuth

namespace Path

/-- A name that a path says has no slash. -/
theorem slash_notMem_of_mem_steps {p : Path} {name : FileName} (h : .entry name ∈ steps p) :
    slash ∉ name := by
  induction hlength : p.length using Nat.strong_induction_on generalizing p with
  | _ n ih =>
    by_cases hslash : slash ∈ p
    · obtain ⟨front, back, rfl, -⟩ := List.eq_append_cons_of_mem hslash
      rw [List.length_append, List.length_cons] at hlength
      rw [steps_append, List.mem_append] at h
      rcases h with hfront | hback
      · exact ih front.length (by omega) hfront rfl
      · exact ih back.length (by omega) hback rfl
    · have hpieces : cut p = [p] := List.splitOn_eq_singleton hslash
      rw [steps, hpieces, List.mem_filterMap] at h
      obtain ⟨piece, hpiece, hstep⟩ := h
      obtain rfl := List.mem_singleton.mp hpiece
      unfold Step.ofPiece? at hstep
      split at hstep
      · cases hstep
      · split at hstep
        · cases hstep
        · split at hstep
          · cases hstep
          · cases hstep
            exact hslash

end Path

namespace FileTree

variable {t t' : FileTree} {path : Path} {name : FileName} {place : Location} {es : Entries}
  {d : Destination}

/-! ### What stays where it is -/

/-- Nothing stands in the place, or a file. -/
def IsFree (t : FileTree) (place : Location) : Prop :=
  t.at? place = none ∨ ∃ mode content, t.at? place = some (.file mode content)

theorem isFree_append_singleton (h : t.at? place = some (.directory es)) :
    t.IsFree (place ++ [name]) ↔ es.IsFree name := by
  rw [IsFree, Entries.IsFree, at?_append_singleton h]

/-- A place is not both free and that of a directory. -/
theorem IsFree.not_hasDirectory (h : t.IsFree place) : ¬ t.HasDirectory place := by
  rintro ⟨es, hes⟩
  rcases h with hnone | ⟨mode, content, hfile⟩
  · rw [hnone] at hes
    cases hes
  · rw [hfile] at hes
    cases hes

/-- Files have been written to the tree, and nothing else has happened. -/
structure Written (t t' : FileTree) : Prop extends Keeps t t' where
  workingDirectory : t'.workingDirectory = t.workingDirectory
  free : ∀ {place}, t.IsFree place → t'.IsFree place

theorem Written.hasDirectory_workingDirectory (h : t.Written t')
    (hstart : t.HasDirectory t.workingDirectory) : t'.HasDirectory t'.workingDirectory := by
  rw [h.workingDirectory]
  exact h.directory hstart

/-- To put a file where a file can be written is to write it. -/
theorem written_put_file (h : t.at? place = some (.directory es)) (hfree : es.IsFree name)
    (mode : FileMode) (content : Bytes) :
    t.Written (t.put (place ++ [name]) (.file mode content)) := by
  have hleaf : ∀ n below, (Node.file mode content).at? (n :: below) = none := fun _ _ => rfl
  refine ⟨keeps_put_leaf h hfree hleaf, rfl, ?_⟩
  intro other hother
  rcases at?_put_leaf h hfree hleaf other with rfl | ⟨hdirectory, -⟩ | hsame
  · exact .inr ⟨mode, content, Node.at?_put_self h⟩
  · exact absurd hdirectory hother.not_hasDirectory
  · rwa [IsFree, hsame]

/-- A walk that ends goes the same way after files were written, if the walk behind a link does. -/
theorem Written.walkFrom_eq {b : Bool}
    {follow follow' : Path → Location → List Path.Step → Except IoCause Destination}
    (h : t.Written t')
    (hfollow : ∀ target q rest, follow target q rest = .ok d → follow' target q rest = .ok d)
    {steps : List Path.Step} (hwalk : walkFrom t b follow steps place = .ok d) :
    walkFrom t' b follow' steps place = .ok d := by
  induction steps generalizing place with
  | nil => exact hwalk
  | cons step steps ih =>
    cases step with
    | here => exact ih hwalk
    | up => exact ih hwalk
    | entry name =>
      -- Where nothing or a file stands, the walk has to end.
      have hend : t.IsFree (place ++ [name]) → steps.isEmpty = true →
          ⟨place ++ [name], b⟩ = d → ¬ name.length > maxNameLength →
          walkFrom t' b follow' (.entry name :: steps) place = .ok d := by
        rintro hfree hempty rfl hlength
        rw [walkFrom, if_neg hlength, hempty]
        rcases h.free hfree with hnone | ⟨mode, content, hfile⟩
        · rw [hnone]
          rfl
        · rw [hfile]
          rfl
      rw [walkFrom] at hwalk
      split at hwalk
      · cases hwalk
      · rename_i hlength
        split at hwalk
        · rename_i hnone
          split at hwalk
          · rename_i hempty
            exact hend (.inl hnone) hempty (Except.ok.inj hwalk) hlength
          · cases hwalk
        · rename_i hfile
          split at hwalk
          · rename_i hempty
            exact hend (.inr ⟨_, _, hfile⟩) hempty (Except.ok.inj hwalk) hlength
          · cases hwalk
        · rename_i entries hes
          obtain ⟨es', hes'⟩ := h.directory ⟨entries, hes⟩
          rw [walkFrom, if_neg hlength, hes']
          exact ih hwalk
        · rename_i target hlink
          rw [walkFrom, if_neg hlength, h.link hlink]
          exact hfollow target place steps hwalk

theorem Written.walkSteps_eq {links : Nat} {b : Bool} {steps : List Path.Step}
    (h : t.Written t') (hwalk : walkSteps t links b steps place = .ok d) :
    walkSteps t' links b steps place = .ok d := by
  induction links generalizing b steps place with
  | zero =>
    refine h.walkFrom_eq ?_ hwalk
    intro target q rest hfollow
    cases hfollow
  | succ links ih =>
    refine h.walkFrom_eq ?_ hwalk
    intro target q rest hfollow
    split at hfollow
    · cases hfollow
    · rename_i hne
      rw [if_neg hne]
      exact ih hfollow

/-- A path that leads to a place still leads there after files were written. -/
theorem Written.walk_eq (h : t.Written t') (hwalk : t.walk path = .ok d) :
    t'.walk path = .ok d := by
  obtain ⟨hnul, hne, hsteps⟩ := walk_eq_ok_iff.mp hwalk
  rw [← h.workingDirectory] at hsteps
  exact walk_eq_ok_iff.mpr ⟨hnul, hne, h.walkSteps_eq hsteps⟩

/-! ### Writing under a plain name -/

/-- To write a file under a plain name sets the entry of the directory; only a short name can be
written. -/
theorem list_of_write {mode : FileMode} {content : Bytes} (h : t.list path = .ok es)
    (hname : FileName.IsPlain name) (hfree : es.IsFree name)
    (hwrite : t.write (path.join name) mode content = .ok t') :
    name.length ≤ maxNameLength ∧
      ∃ mode', t'.list path = .ok (es.set name (.file mode' content)) := by
  obtain ⟨d, hwalk, hd⟩ := list_eq_ok_iff.mp h
  rw [write, walk_join hwalk hd hname hfree] at hwrite
  split at hwrite
  · cases hwrite
  · rename_i hlength
    refine ⟨Nat.not_lt.mp hlength, ?_⟩
    have hput : ∀ mode', t' = t.put (d.place ++ [name]) (.file mode' content) →
        t'.list path = .ok (es.set name (.file mode' content)) := by
      rintro mode' rfl
      have hwalk' := (written_put_file hd hfree mode' content).walk_eq hwalk
      exact list_eq_ok_iff.mpr ⟨d, hwalk', at?_put_entry hd name _⟩
    have hentry := at?_append_singleton hd name
    simp only [Except.ok_bind, Bool.false_eq_true, if_false, hentry] at hwrite
    rcases hfree with hnone | ⟨old, content', hfile⟩
    · rw [hnone] at hwrite
      exact ⟨mode, hput mode (Except.ok.inj hwrite).symm⟩
    · rw [hfile] at hwrite
      exact ⟨old, hput old (Except.ok.inj hwrite).symm⟩

/-! ### Where walks end -/

/-- The place is that of a directory, or of a name in a directory under which a file can be
written. -/
def Reached (t : FileTree) (place : Location) : Prop :=
  t.HasDirectory place ∨ ∃ parent name es, place = parent ++ [name] ∧
    t.at? parent = some (.directory es) ∧ es.IsFree name ∧ Path.slash ∉ name

/-- No step into an entry says a slash. -/
def SlashFree (steps : List Path.Step) : Prop :=
  ∀ name, .entry name ∈ steps → Path.slash ∉ name

/-- A walk that starts at a directory ends at one or at a name in one. -/
theorem reached_of_walkFrom {b : Bool}
    {follow : Path → Location → List Path.Step → Except IoCause Destination}
    (hfollow : ∀ target q rest, t.HasDirectory q → SlashFree rest →
      follow target q rest = .ok d → t.Reached d.place)
    {steps : List Path.Step} (hplace : t.HasDirectory place) (hsteps : SlashFree steps)
    (hwalk : walkFrom t b follow steps place = .ok d) : t.Reached d.place := by
  induction steps generalizing place with
  | nil =>
    obtain rfl : ⟨place, b⟩ = d := Except.ok.inj hwalk
    exact .inl hplace
  | cons step steps ih =>
    have hrest : SlashFree steps := fun name hname => hsteps name (List.mem_cons_of_mem _ hname)
    cases step with
    | here => exact ih hplace hrest hwalk
    | up => exact ih hplace.dropLast hrest hwalk
    | entry name =>
      obtain ⟨es, hes⟩ := hplace
      have hslash : Path.slash ∉ name := hsteps name List.mem_cons_self
      have hend : t.IsFree (place ++ [name]) → ⟨place ++ [name], b⟩ = d → t.Reached d.place := by
        rintro hfree rfl
        exact .inr ⟨place, name, es, rfl, hes, (isFree_append_singleton hes).mp hfree, hslash⟩
      rw [walkFrom] at hwalk
      split at hwalk
      · cases hwalk
      · split at hwalk
        · rename_i hnone
          split at hwalk
          · exact hend (.inl hnone) (Except.ok.inj hwalk)
          · cases hwalk
        · rename_i hfile
          split at hwalk
          · exact hend (.inr ⟨_, _, hfile⟩) (Except.ok.inj hwalk)
          · cases hwalk
        · rename_i entries hentries
          exact ih ⟨entries, hentries⟩ hrest hwalk
        · exact hfollow _ place steps ⟨es, hes⟩ hrest hwalk

theorem reached_of_walkSteps {links : Nat} {b : Bool} {steps : List Path.Step}
    (hplace : t.HasDirectory place) (hsteps : SlashFree steps)
    (hwalk : walkSteps t links b steps place = .ok d) : t.Reached d.place := by
  induction links generalizing b steps place with
  | zero =>
    refine reached_of_walkFrom ?_ hplace hsteps hwalk
    intro target q rest _ _ hfollow
    cases hfollow
  | succ links ih =>
    refine reached_of_walkFrom ?_ hplace hsteps hwalk
    intro target q rest hq hrest hfollow
    split at hfollow
    · cases hfollow
    · refine ih (hq.startOf target) ?_ hfollow
      intro name hname
      rcases List.mem_append.mp hname with htarget | hbehind
      · exact Path.slash_notMem_of_mem_steps htarget
      · exact hrest name hbehind

/-- A path that a program follows leads to a directory or to a name in one. -/
theorem reached_of_walk (hstart : t.HasDirectory t.workingDirectory)
    (hwalk : t.walk path = .ok d) : t.Reached d.place := by
  obtain ⟨-, -, hsteps⟩ := walk_eq_ok_iff.mp hwalk
  exact reached_of_walkSteps (hstart.startOf path)
    (fun name hname => Path.slash_notMem_of_mem_steps hname) hsteps

/-! ### Writing -/

/-- The mode of a file that is written over what stands in its place. -/
def modeOver (standing : Option Node) (mode : FileMode) : FileMode :=
  match standing with
  | some (.file old _) => old
  | _ => mode

/-- To write a file is to put it under a name in a directory. -/
theorem exists_of_write {mode : FileMode} {content : Bytes}
    (hstart : t.HasDirectory t.workingDirectory)
    (h : t.write path mode content = .ok t') :
    ∃ parent name es, t.walk path = .ok ⟨parent ++ [name], false⟩ ∧
      t.at? parent = some (.directory es) ∧ es.IsFree name ∧ Path.slash ∉ name ∧
      t' = t.put (parent ++ [name])
        (.file (modeOver (t.at? (parent ++ [name])) mode) content) := by
  obtain ⟨d, hwalk, h⟩ := Except.bind_eq_ok_iff.mp h
  split at h
  · cases h
  · rename_i hfile
    have hput : t.IsFree d.place ∧
        t' = t.put d.place (.file (modeOver (t.at? d.place) mode) content) := by
      split at h
      · rename_i hnone
        exact ⟨.inl hnone, by rw [hnone]; exact (Except.ok.inj h).symm⟩
      · rename_i old _ hold
        exact ⟨.inr ⟨_, _, hold⟩, by rw [hold]; exact (Except.ok.inj h).symm⟩
      · cases h
      · cases h
    rcases reached_of_walk hstart hwalk with hdirectory |
      ⟨parent, name, es, hplace, hes, hfree, hslash⟩
    · exact absurd hdirectory hput.1.not_hasDirectory
    · refine ⟨parent, name, es, ?_, hes, hfree, hslash, hplace ▸ hput.2⟩
      obtain ⟨place, asDirectory⟩ := d
      obtain rfl : asDirectory = false := Bool.eq_false_of_not_eq_true hfile
      obtain rfl : place = parent ++ [name] := hplace
      exact hwalk

/-- What a program finds after it has written a file: the path still leads to the same place, where
the file stands now, and every other file is as it was. -/
structure WrittenAt (t t' : FileTree) (path : Path) (place : Location) (mode : FileMode)
    (content : Bytes) : Prop extends Written t t' where
  walk : t.walk path = .ok ⟨place, false⟩
  isFree : t.IsFree place
  file : t'.at? place = some (.file (modeOver (t.at? place) mode) content)
  others : ∀ {other}, t.IsFree other → other ≠ place → t'.at? other = t.at? other

/-- To write a file is to write it in one place. -/
theorem exists_writtenAt {mode : FileMode} {content : Bytes}
    (hstart : t.HasDirectory t.workingDirectory) (h : t.write path mode content = .ok t') :
    ∃ place, t.WrittenAt t' path place mode content := by
  obtain ⟨parent, name, es, hwalk, hes, hfree, -, rfl⟩ := exists_of_write hstart h
  have hwritten := written_put_file hes hfree (modeOver (t.at? (parent ++ [name])) mode) content
  have hleaf : ∀ n below, (Node.file (modeOver (t.at? (parent ++ [name])) mode) content).at?
      (n :: below) = none := fun _ _ => rfl
  refine ⟨parent ++ [name], hwritten, hwalk, (isFree_append_singleton hes).mpr hfree,
    Node.at?_put_self hes, ?_⟩
  intro other hother hne
  rcases at?_put_leaf hes hfree hleaf other with heq | ⟨hdirectory, -⟩ | hsame
  · exact absurd heq hne
  · exact absurd hdirectory hother.not_hasDirectory
  · exact hsame

/-- A path that leads to a file yields the file. -/
theorem resolve_eq_of_file {mode : FileMode} {content : Bytes}
    (hwalk : t.walk path = .ok ⟨place, false⟩) (hfile : t.at? place = some (.file mode content)) :
    t.resolve path = .ok (.file mode content) := by
  rw [resolve, hwalk, Except.ok_bind, hfile]
  rfl

theorem read_eq_of_resolve {mode : FileMode} {content : Bytes}
    (h : t.resolve path = .ok (.file mode content)) : t.read path = .ok content := by
  rw [read, h, Except.ok_bind]

/-- The path under which a file was written leads to the file. -/
theorem WrittenAt.resolve_eq {mode : FileMode} {content : Bytes}
    (h : t.WrittenAt t' path place mode content) :
    t'.resolve path = .ok (.file (modeOver (t.at? place) mode) content) :=
  resolve_eq_of_file (h.walk_eq h.walk) h.file

/-- Another file that a path leads to stays as it is. -/
theorem WrittenAt.resolve_of_ne {mode mode' : FileMode} {content content' : Bytes} {path' : Path}
    {other : Location} (h : t.WrittenAt t' path place mode content) (hne : other ≠ place)
    (hwalk : t.walk path' = .ok ⟨other, false⟩)
    (hfile : t.at? other = some (.file mode' content')) :
    t'.resolve path' = .ok (.file mode' content') :=
  resolve_eq_of_file (h.walk_eq hwalk) ((h.others (.inr ⟨_, _, hfile⟩) hne).trans hfile)

/-! ### Making directories -/

/-- Directories have been made in the tree where nothing stood, and nothing else has happened. -/
structure Grown (t t' : FileTree) : Prop where
  workingDirectory : t'.workingDirectory = t.workingDirectory
  at?_eq_or : ∀ place, t'.at? place = t.at? place ∨
    t'.HasDirectory place ∧ (t.HasDirectory place ∨ t.at? place = none)

theorem Grown.refl (t : FileTree) : t.Grown t :=
  ⟨rfl, fun _ => .inl rfl⟩

theorem Grown.hasDirectory (h : t.Grown t') (hplace : t.HasDirectory place) :
    t'.HasDirectory place := by
  rcases h.at?_eq_or place with hsame | ⟨hmade, -⟩
  · rwa [HasDirectory, hsame]
  · exact hmade

theorem Grown.hasDirectory_workingDirectory (h : t.Grown t')
    (hstart : t.HasDirectory t.workingDirectory) : t'.HasDirectory t'.workingDirectory := by
  rw [h.workingDirectory]
  exact h.hasDirectory hstart

theorem Grown.trans {t'' : FileTree} (h : t.Grown t') (h' : t'.Grown t'') : t.Grown t'' := by
  refine ⟨h'.workingDirectory.trans h.workingDirectory, ?_⟩
  intro place
  rcases h'.at?_eq_or place with hsame' | ⟨hmade', hbefore'⟩
  · rcases h.at?_eq_or place with hsame | ⟨hmade, hbefore⟩
    · exact .inl (hsame'.trans hsame)
    · exact .inr ⟨by rwa [HasDirectory, hsame'], hbefore⟩
  · refine .inr ⟨hmade', ?_⟩
    rcases h.at?_eq_or place with hsame | ⟨-, hbefore⟩
    · rwa [HasDirectory, hsame] at hbefore'
    · exact hbefore

/-- A place in which a file can be written afterwards is as it was before. -/
theorem Grown.at?_eq_of_isFree (h : t.Grown t') (hfree : t'.IsFree place) :
    t'.at? place = t.at? place := by
  rcases h.at?_eq_or place with hsame | ⟨hmade, -⟩
  · exact hsame
  · exact absurd hmade hfree.not_hasDirectory

theorem grown_makeDirectory (h : t.makeDirectory path = .ok t') : t.Grown t' := by
  obtain ⟨steps, name, d, -, -, -, ⟨es, hes⟩, hnone, rfl⟩ := exists_of_create h
  have hfree : es.IsFree name := (isFree_append_singleton hes).mp (.inl hnone)
  have hleaf : ∀ n below, (Node.directory .nil).at? (n :: below) = none := fun _ _ => rfl
  refine ⟨rfl, ?_⟩
  intro place
  rcases at?_put_leaf hes hfree hleaf place with rfl | ⟨hbefore, hmade⟩ | hsame
  · exact .inr ⟨⟨.nil, Node.at?_put_self hes⟩, .inr hnone⟩
  · exact .inr ⟨hmade, .inl hbefore⟩
  · exact .inl hsame

end FileTree

end BearerAuth
