/-!
# Cutting texts at a character

The texts in front of the first or the last place of a character and behind it.

Main statements: `cutFirst_eq_some_iff` and `cutLast_eq_some_iff`.
-/

namespace BearerAuth.Text

/-- The characters in front of the first `c` and behind it. -/
def cutFirst (c : Char) (cs : List Char) : Option (List Char × List Char) :=
  match cs.dropWhile (· ≠ c) with
  | [] => none
  | _ :: rest => some (cs.takeWhile (· ≠ c), rest)

/-- The characters in front of the last `c` and behind it. -/
def cutLast (c : Char) (cs : List Char) : Option (List Char × List Char) :=
  (cutFirst c cs.reverse).map fun (back, front) => (front.reverse, back.reverse)

theorem cutFirst_cons (c x : Char) (cs : List Char) :
    cutFirst c (x :: cs) =
      if x = c then some ([], cs) else (cutFirst c cs).map fun p => (x :: p.1, p.2) := by
  unfold cutFirst
  by_cases h : x = c
  · simp [h]
  · simp only [ne_eq, h, not_false_eq_true, decide_true, List.dropWhile_cons_of_pos,
      List.takeWhile_cons_of_pos, if_false]
    split <;> simp

theorem cutFirst_eq_some_iff {c : Char} {cs before after : List Char} :
    cutFirst c cs = some (before, after) ↔ cs = before ++ c :: after ∧ c ∉ before := by
  induction cs generalizing before with
  | nil => simp [cutFirst]
  | cons x rest ih =>
    rw [cutFirst_cons]
    by_cases h : x = c
    · subst h
      simp only [if_true, Option.some.injEq, Prod.mk.injEq]
      constructor
      · rintro ⟨rfl, rfl⟩
        simp
      · rintro ⟨heq, hmem⟩
        cases before with
        | nil => simp_all
        | cons y before => simp_all
    · simp only [h, if_false, Option.map_eq_some_iff, Prod.exists, Prod.mk.injEq]
      constructor
      · rintro ⟨b, a, hb, rfl, rfl⟩
        obtain ⟨rfl, hmem⟩ := ih.1 hb
        simp [hmem, Ne.symm h]
      · rintro ⟨heq, hmem⟩
        cases before with
        | nil => simp_all
        | cons y before =>
          simp only [List.cons_append, List.cons.injEq] at heq
          obtain ⟨rfl, rfl⟩ := heq
          exact ⟨before, after, ih.2 ⟨rfl, by simp_all⟩, rfl, rfl⟩

theorem cutLast_eq_some_iff {c : Char} {cs before after : List Char} :
    cutLast c cs = some (before, after) ↔ cs = before ++ c :: after ∧ c ∉ after := by
  simp only [cutLast, Option.map_eq_some_iff, Prod.exists, Prod.mk.injEq]
  constructor
  · rintro ⟨back, front, h, rfl, rfl⟩
    obtain ⟨heq, hmem⟩ := cutFirst_eq_some_iff.1 h
    refine ⟨?_, by simpa using hmem⟩
    have := congrArg List.reverse heq
    simpa using this
  · rintro ⟨rfl, hmem⟩
    exact ⟨after.reverse, before.reverse, cutFirst_eq_some_iff.2 (by simp [hmem]), by simp, by simp⟩

end BearerAuth.Text
