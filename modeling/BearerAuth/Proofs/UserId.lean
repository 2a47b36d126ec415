import Mathlib
import BearerAuth.UserId

/-!
# User ids undone

Main statement: `UserId.parse?_toText` says that the written form of an id is read as this id.
-/

namespace BearerAuth.UserId

/-! ### Digits -/

theorem hexDigits_append (width n : Nat) (acc : List Char) :
    hexDigits width n acc = hexDigits width n [] ++ acc := by
  induction width generalizing n acc with
  | zero => rfl
  | succ width ih =>
    rw [hexDigits, ih, hexDigits, ih (n / 16) [_], List.append_assoc]
    rfl

theorem hexDigits_succ (width n : Nat) :
    hexDigits (width + 1) n [] = hexDigits width (n / 16) [] ++ [Nat.digitChar (n % 16)] :=
  hexDigits_append width (n / 16) _

@[simp] theorem length_hexDigits (width n : Nat) : (hexDigits width n []).length = width := by
  induction width generalizing n with
  | zero => rfl
  | succ width ih => simp [hexDigits_succ, ih]

theorem hexValue?_digitChar {d : Nat} (h : d < 16) : hexValue? (Nat.digitChar d) = some d := by
  revert d
  decide

/-- As much of a number is written as there are digits for. -/
theorem mapM_hexValue?_hexDigits (width n : Nat) :
    ∃ ds, (hexDigits width n []).mapM hexValue? = some ds ∧
      ds.foldl (fun n d => n * 16 + d) 0 = n % 16 ^ width := by
  induction width generalizing n with
  | zero => exact ⟨[], rfl, by simp [Nat.mod_one]⟩
  | succ width ih =>
    obtain ⟨ds, hds, hvalue⟩ := ih (n / 16)
    have hdigit := hexValue?_digitChar (Nat.mod_lt n (by decide : 0 < 16))
    refine ⟨ds ++ [n % 16], ?_, ?_⟩
    · rw [hexDigits_succ, List.mapM_append, hds]
      simp [hdigit]
    · rw [List.foldl_append, hvalue, pow_succ', Nat.mod_mul]
      simp only [List.foldl_cons, List.foldl_nil]
      ring

/-- The digits of an id spell it. -/
theorem ofHex?_hexDigits (id : UserId) : ofHex? (hexDigits 32 id.value.toNat []) = some id := by
  obtain ⟨ds, hds, hvalue⟩ := mapM_hexValue?_hexDigits 32 id.value.toNat
  have hlt : id.value.toNat < 16 ^ 32 := id.value.isLt
  rw [Nat.mod_eq_of_lt hlt] at hvalue
  simp [ofHex?, hds, hvalue, ofNat]

/-! ### Groups -/

/-- Taking the hyphens out undoes putting them in. -/
theorem unhyphenate_hyphenate {sizes : List Nat} (hne : sizes ≠ []) {cs : List Char}
    (h : cs.length = sizes.sum) : unhyphenate sizes (hyphenate sizes cs) = some cs := by
  induction sizes generalizing cs with
  | nil => exact absurd rfl hne
  | cons n sizes ih =>
    cases sizes with
    | nil =>
      have hn : cs.length = n := by simpa using h
      rw [hyphenate, List.take_of_length_le hn.le, unhyphenate, if_pos hn]
    | cons m sizes =>
      have hrest : (cs.drop n).length = (m :: sizes).sum := by
        rw [List.length_drop, h, List.sum_cons]
        omega
      have htake : (cs.take n).length = n := by
        rw [List.length_take, h, List.sum_cons]
        omega
      rw [hyphenate, unhyphenate]
      · rw [List.drop_left' htake, List.take_left' htake]
        simp [ih (List.cons_ne_nil m sizes) hrest]
      · exact fun heq => by cases heq
      · exact fun heq => by cases heq

/-- Between any two groups there is a hyphen. -/
theorem length_hyphenate {sizes : List Nat} (hne : sizes ≠ []) {cs : List Char}
    (h : cs.length = sizes.sum) :
    (hyphenate sizes cs).length = sizes.sum + (sizes.length - 1) := by
  induction sizes generalizing cs with
  | nil => exact absurd rfl hne
  | cons n sizes ih =>
    cases sizes with
    | nil =>
      have hn : cs.length = n := by simpa using h
      simp [hyphenate, hn]
    | cons m sizes =>
      have hrest : (cs.drop n).length = (m :: sizes).sum := by
        rw [List.length_drop, h, List.sum_cons]
        omega
      have htake : (cs.take n).length = n := by
        rw [List.length_take, h, List.sum_cons]
        omega
      rw [hyphenate]
      · rw [List.length_append, List.length_cons, htake, ih (List.cons_ne_nil m sizes) hrest]
        simp only [List.sum_cons, List.length_cons]
        omega
      · exact fun heq => by cases heq

/-! ### Main statement -/

/-- The written form of an id is read as this id. -/
theorem parse?_toText (id : UserId) : parse? id.toText = some id := by
  have hlength : (hexDigits 32 id.value.toNat []).length = groupSizes.sum := by
    rw [length_hexDigits]
    rfl
  have hne : groupSizes ≠ [] := by decide
  have hhex : ofHex? (hyphenate groupSizes (hexDigits 32 id.value.toNat [])) = none := by
    have hlong : ¬ (hyphenate groupSizes (hexDigits 32 id.value.toNat [])).length = 32 := by
      rw [length_hyphenate hne hlength]
      decide
    simp [ofHex?, hlong]
  have hgroups : ofHyphenated? (hyphenate groupSizes (hexDigits 32 id.value.toNat [])) =
      some id := by
    rw [ofHyphenated?, unhyphenate_hyphenate hne hlength, Option.bind_some, ofHex?_hexDigits]
  unfold parse? toText
  rw [String.toList_ofList]
  simp [hhex, hgroups]

end BearerAuth.UserId
