import Mathlib
import BearerAuth.FileTree.Walk

/-!
# Paths below a directory

A path is joined with a name by putting a slash in between, unless there is one already.  Either
way one step is added, and nothing else about the path changes.  An ending that is put behind a name
with a dot is taken off again.

Main statements: `Path.steps_join` and `FileName.splitExtension?_eq_some_iff`.
-/

namespace BearerAuth

/-- A name that leads to an entry of a directory. -/
structure FileName.IsPlain (name : FileName) : Prop where
  ne_nil : name ≠ []
  slash_notMem : Path.slash ∉ name
  nul_notMem : FileTree.nul ∉ name
  ne_here : name ≠ utf8 "."
  ne_up : name ≠ utf8 ".."

namespace Path

variable {base name : Path}

/-! ### Steps -/

/-- The steps of two paths with a slash in between. -/
theorem steps_append (p q : Path) : steps (p ++ slash :: q) = steps p ++ steps q := by
  rw [steps, cut, List.splitOn_append_cons_self, List.filterMap_append]
  rfl

/-- A slash at the end adds no step. -/
theorem steps_append_slash (p : Path) : steps (p ++ [slash]) = steps p := by
  have hnone : steps [] = [] := rfl
  rw [steps_append, hnone, List.append_nil]

/-- A plain name is one step. -/
theorem steps_of_isPlain (h : FileName.IsPlain name) : steps name = [.entry name] := by
  have hpieces : cut name = [name] := List.splitOn_eq_singleton h.slash_notMem
  have hempty : name.isEmpty = false := List.isEmpty_eq_false_iff.mpr h.ne_nil
  rw [steps, hpieces, List.filterMap_cons, Step.ofPiece?, hempty, if_neg Bool.false_ne_true,
    if_neg h.ne_here, if_neg h.ne_up]
  rfl

/-! ### Joining -/

/-- A path is joined with a plain name by a slash, which it may have already. -/
theorem join_cases (hbase : base ≠ []) (h : FileName.IsPlain name) :
    ∃ front, (base = front ∨ base = front ++ [slash]) ∧
      join base name = front ++ slash :: name := by
  have habsolute : isAbsolute name = false := by
    obtain ⟨x, rest, rfl⟩ := List.exists_cons_of_ne_nil h.ne_nil
    have hx : slash ≠ x := fun heq => h.slash_notMem (heq ▸ List.mem_cons_self)
    simp [isAbsolute, hx.symm]
  have hempty : base.isEmpty = false := List.isEmpty_eq_false_iff.mpr hbase
  unfold join
  rw [habsolute, hempty, if_neg Bool.false_ne_true, Bool.false_or]
  split
  · rename_i hslash
    have hlast : base.getLast? = some slash := by simpa [endsWithSlash] using hslash
    obtain ⟨front, rfl⟩ := List.getLast?_eq_some_iff.mp hlast
    exact ⟨front, .inr rfl, by rw [List.append_assoc, List.singleton_append]⟩
  · exact ⟨base, .inl rfl, rfl⟩

/-- Joining adds one step. -/
theorem steps_join (hbase : base ≠ []) (h : FileName.IsPlain name) :
    steps (join base name) = steps base ++ [.entry name] := by
  obtain ⟨front, hfront, hjoin⟩ := join_cases hbase h
  have hsteps : steps base = steps front := by
    rcases hfront with rfl | rfl
    · rfl
    · exact steps_append_slash front
  rw [hjoin, steps_append, steps_of_isPlain h, hsteps]

/-- Joining does not change where a path starts. -/
theorem isAbsolute_join (hbase : base ≠ []) (h : FileName.IsPlain name) :
    isAbsolute (join base name) = isAbsolute base := by
  obtain ⟨front, hfront, hjoin⟩ := join_cases hbase h
  rw [hjoin]
  rcases hfront with rfl | rfl
  · obtain ⟨x, rest, rfl⟩ := List.exists_cons_of_ne_nil hbase
    rfl
  · cases front <;> rfl

/-- What is joined with a plain name does not end with a slash. -/
theorem endsWithSlash_join (hbase : base ≠ []) (h : FileName.IsPlain name) :
    endsWithSlash (join base name) = false := by
  obtain ⟨front, -, hjoin⟩ := join_cases hbase h
  have hlast : (front ++ slash :: name).getLast? = name.getLast? := by
    rw [List.getLast?_append, List.getLast?_cons_of_ne_nil h.ne_nil]
    exact Option.or_of_isSome (by simpa using h.ne_nil)
  rw [hjoin, endsWithSlash, hlast, decide_eq_false_iff_not]
  intro hslash
  exact h.slash_notMem (List.mem_of_mem_getLast? hslash)

/-- What is joined can be passed to the system, if both parts can. -/
theorem nul_notMem_join (hbase : base ≠ []) (h : FileName.IsPlain name)
    (hnul : FileTree.nul ∉ base) : FileTree.nul ∉ join base name := by
  obtain ⟨front, hfront, hjoin⟩ := join_cases hbase h
  have hnot : FileTree.nul ∉ front := by
    rcases hfront with rfl | rfl
    · exact hnul
    · exact fun hmem => hnul (List.mem_append_left _ hmem)
  have hslash : FileTree.nul ≠ slash := by decide
  rw [hjoin, List.mem_append, List.mem_cons, not_or, not_or]
  exact ⟨hnot, hslash, h.nul_notMem⟩

theorem join_ne_nil (hbase : base ≠ []) (h : FileName.IsPlain name) : join base name ≠ [] := by
  obtain ⟨front, -, hjoin⟩ := join_cases hbase h
  rw [hjoin]
  simp

/-! ### Paths that only go up -/

/-- A step to an entry. -/
def Step.IsEntry : Step → Prop
  | .entry _ => True
  | .here | .up => False

/-- The components of a path are steps of it. -/
theorem mem_steps_of_mem_components {p : Path} {step : Step} (h : step ∈ components p) :
    step ∈ steps p := by
  unfold components at h
  split at h
  · cases h
  · rename_i rest hsteps
    rw [hsteps]
    split at h
    · exact List.mem_cons_of_mem _ (List.mem_of_mem_filter h)
    · rcases List.mem_cons.mp h with rfl | hrest
      · exact List.mem_cons_self
      · exact List.mem_cons_of_mem _ (List.mem_of_mem_filter hrest)
  · exact List.mem_of_mem_filter h

/-- A path that is written without entries has none. -/
theorem not_isEntry_ofSteps {absolute : Bool} {written : List Step}
    (h : ∀ step ∈ written, ¬ step.IsEntry) :
    ∀ step ∈ steps (ofSteps absolute written), ¬ step.IsEntry := by
  have hrelative : steps (ofSteps absolute written) =
      steps ([slash].intercalate (written.map Step.toBytes)) := by
    cases absolute with
    | false => rfl
    | true => exact steps_append [] _
  rw [hrelative]
  intro step hstep
  cases written with
  | nil => cases hstep
  | cons first rest =>
    have hpieces : cut ([slash].intercalate ((first :: rest).map Step.toBytes)) =
        (first :: rest).map Step.toBytes := by
      refine List.splitOn_intercalate slash ?_ (by simp)
      intro piece hpiece
      obtain ⟨found, hfound, rfl⟩ := List.mem_map.mp hpiece
      cases found with
      | here => decide
      | up => decide
      | entry name => exact absurd trivial (h _ hfound)
    rw [steps, hpieces] at hstep
    obtain ⟨piece, hpiece, hread⟩ := List.mem_filterMap.mp hstep
    obtain ⟨found, hfound, rfl⟩ := List.mem_map.mp hpiece
    cases found with
    | here =>
      obtain rfl : .here = step := Option.some.inj hread
      exact id
    | up =>
      obtain rfl : .up = step := Option.some.inj hread
      exact id
    | entry name => exact absurd trivial (h _ hfound)

/-- The path above a path that only goes up does so, too. -/
theorem not_isEntry_of_parent? {p parent : Path} (h : ∀ step ∈ steps p, ¬ step.IsEntry)
    (hparent : parent? p = some parent) : ∀ step ∈ steps parent, ¬ step.IsEntry := by
  unfold parent? at hparent
  dsimp only at hparent
  split at hparent
  · cases hparent
  · obtain rfl := Option.some.inj hparent
    refine not_isEntry_ofSteps ?_
    intro step hstep
    exact h step (mem_steps_of_mem_components (List.mem_of_mem_dropLast hstep))

end Path

namespace FileName

/-- A name is cut at its last dot, unless that is the first byte. -/
theorem splitExtension?_of_dot {stem ending : Bytes} (hending : ascii '.' ∉ ending) :
    splitExtension? (stem ++ ascii '.' :: ending) =
      if stem.isEmpty then none else some (stem, ending) := by
  have htail : (stem ++ ascii '.' :: ending).reverse.takeWhile (· ≠ ascii '.') =
      ending.reverse := by
    have hfront : ∀ b ∈ ending.reverse, decide (b ≠ ascii '.') = true := by
      intro b hb
      rw [decide_eq_true_eq]
      rintro rfl
      exact hending (List.mem_reverse.mp hb)
    rw [List.reverse_append, List.reverse_cons, List.append_assoc,
      List.takeWhile_append_of_pos hfront]
    simp
  have hlength : (stem ++ ascii '.' :: ending).length - ending.length - 1 = stem.length := by
    rw [List.length_append, List.length_cons]
    omega
  have hne : decide (ending.length = (stem ++ ascii '.' :: ending).length) = false := by
    rw [decide_eq_false_iff_not, List.length_append, List.length_cons]
    omega
  unfold splitExtension?
  dsimp only
  rw [htail, List.reverse_reverse, hlength, List.take_left, hne, Bool.false_or]

/-- A name without a dot has no ending. -/
theorem splitExtension?_of_no_dot {name : Bytes} (h : ascii '.' ∉ name) :
    splitExtension? name = none := by
  have htail : name.reverse.takeWhile (· ≠ ascii '.') = name.reverse := by
    refine List.takeWhile_eq_self_iff.mpr ?_
    intro b hb
    rw [decide_eq_true_eq]
    rintro rfl
    exact h (List.mem_reverse.mp hb)
  unfold splitExtension?
  dsimp only
  rw [htail, List.reverse_reverse, decide_eq_true rfl, Bool.true_or]
  rfl

/-- An ending that was put behind a name with a dot is taken off. -/
theorem splitExtension?_append {stem ending : Bytes} (hstem : stem ≠ [])
    (hending : ascii '.' ∉ ending) :
    splitExtension? (stem ++ ascii '.' :: ending) = some (stem, ending) := by
  rw [splitExtension?_of_dot hending, List.isEmpty_eq_false_iff.mpr hstem]
  rfl

/-- An ending that is taken off stands behind the last dot, which is not the first byte. -/
theorem splitExtension?_eq_some_iff {name stem ending : Bytes} :
    splitExtension? name = some (stem, ending) ↔
      name = stem ++ ascii '.' :: ending ∧ stem ≠ [] ∧ ascii '.' ∉ ending := by
  constructor
  · intro h
    by_cases hdot : ascii '.' ∈ name
    · obtain ⟨back, front, hreverse, hback⟩ :=
        List.eq_append_cons_of_mem (List.mem_reverse.mpr hdot)
      obtain rfl : name = front.reverse ++ ascii '.' :: back.reverse := by
        rw [← List.reverse_reverse name, hreverse]
        simp
      have hending : ascii '.' ∉ back.reverse := by simpa using hback
      rw [splitExtension?_of_dot hending] at h
      split at h
      · cases h
      · rename_i hstem
        obtain ⟨rfl, rfl⟩ := Prod.mk.inj (Option.some.inj h)
        exact ⟨rfl, fun hnil => hstem (List.isEmpty_iff.mpr hnil), hending⟩
    · rw [splitExtension?_of_no_dot hdot] at h
      cases h
  · rintro ⟨rfl, hstem, hending⟩
    exact splitExtension?_append hstem hending

end FileName

end BearerAuth
