import Mathlib
import BearerAuth.Binary64

/-!
# The precision of magnitudes

Whatever is rounded to a magnitude has a mantissa of 53 bits, or the first number past them.  A
magnitude with a fraction is therefore far from the limit of a word, so that one that is less than
this limit is not rounded up to it.

Main statement: `Binary64.rounded_lt`.
-/

namespace BearerAuth.Binary64

variable {x y z : Binary64} {num den : Nat}

/-- The mantissa has 53 bits, or is the first number past them. -/
def HasPrecision (x : Binary64) : Prop :=
  x.mantissa ≤ 2 ^ 53

/-! ### Rounding a quotient -/

/-- An exponent that takes all but 53 bits away leaves a quotient of 53 bits. -/
theorem div_lt_of_shiftDown {e : Int} (hden : den ≠ 0)
    (he : (num.log2 : Int) - den.log2 - 52 ≤ e) :
    (shiftDown num den e).1 / (shiftDown num den e).2 < 2 ^ 53 := by
  have hnum : num < 2 ^ (num.log2 + 1) := Nat.lt_log2_self
  have hlog : 2 ^ den.log2 ≤ den := Nat.log2_self_le hden
  cases e with
  | ofNat k =>
    rw [Int.ofNat_eq_natCast] at he
    have hbits : num.log2 + 1 ≤ den.log2 + k + 53 := by omega
    refine Nat.div_lt_of_lt_mul ?_
    calc num < 2 ^ (num.log2 + 1) := hnum
      _ ≤ 2 ^ (den.log2 + k + 53) := Nat.pow_le_pow_right two_pos hbits
      _ = 2 ^ den.log2 * 2 ^ k * 2 ^ 53 := by rw [pow_add, pow_add]
      _ ≤ den <<< k * 2 ^ 53 := by
        rw [Nat.shiftLeft_eq]
        gcongr
  | negSucc k =>
    rw [Int.negSucc_eq] at he
    have hbits : num.log2 + 1 + (k + 1) ≤ den.log2 + 53 := by omega
    refine Nat.div_lt_of_lt_mul ?_
    calc num <<< (k + 1) = num * 2 ^ (k + 1) := Nat.shiftLeft_eq _ _
      _ < 2 ^ (num.log2 + 1) * 2 ^ (k + 1) :=
        Nat.mul_lt_mul_of_pos_right hnum (Nat.two_pow_pos _)
      _ = 2 ^ (num.log2 + 1 + (k + 1)) := (pow_add _ _ _).symm
      _ ≤ 2 ^ (den.log2 + 53) := Nat.pow_le_pow_right two_pos hbits
      _ = 2 ^ den.log2 * 2 ^ 53 := pow_add _ _ _
      _ ≤ den * 2 ^ 53 := by gcongr

/-- The nearest number is at most one more than the quotient. -/
theorem nearest_le_of_div_lt {bound : Nat} (h : num / den < bound) : nearest num den ≤ bound := by
  unfold nearest
  dsimp only
  split
  · exact h.le
  · split
    · exact h
    · split
      · exact h.le
      · exact h

/-- Nothing is left of a quotient by zero. -/
theorem div_shiftDown_zero (num : Nat) (e : Int) :
    (shiftDown num 0 e).1 / (shiftDown num 0 e).2 = 0 := by
  cases e with
  | ofNat k =>
    change num / (0 <<< k) = 0
    rw [Nat.zero_shiftLeft, Nat.div_zero]
  | negSucc k => exact Nat.div_zero _

/-- A quotient is rounded to a magnitude of 53 bits. -/
theorem hasPrecision_of_ofQuotient? (h : ofQuotient? num den = some x) : x.HasPrecision := by
  unfold ofQuotient? at h
  split at h
  · cases h
    exact Nat.zero_le _
  · dsimp only at h
    obtain ⟨-, heq⟩ := Option.ite_none_left_eq_some.mp h
    rw [HasPrecision, ← Option.some.inj heq]
    refine nearest_le_of_div_lt ?_
    rcases eq_or_ne den 0 with rfl | hden
    · rw [div_shiftDown_zero]
      exact Nat.two_pow_pos 53
    · -- either the guess leaves 53 bits, or it leaves 54 and the exponent is raised by one
      split
      · exact div_lt_of_shiftDown hden (by omega)
      · omega

/-! ### Arithmetic -/

theorem hasPrecision_of_mul? (h : x.mul? y = some z) : z.HasPrecision :=
  hasPrecision_of_ofQuotient? h

theorem hasPrecision_of_div? (h : x.div? y = some z) : z.HasPrecision :=
  hasPrecision_of_ofQuotient? h

/-- Dividing by powers of ten keeps the precision. -/
theorem hasPrecision_of_divTenTo? {fuel k : Nat} (hx : x.HasPrecision)
    (h : divTenTo? fuel x k = some z) : z.HasPrecision := by
  induction fuel generalizing x k with
  | zero =>
    cases h
    exact hx
  | succ fuel ih =>
    rw [divTenTo?] at h
    split at h
    · obtain ⟨_, -, h⟩ := Option.bind_eq_some_iff.mp h
      exact hasPrecision_of_div? h
    · split at h
      · cases h
        exact hx
      · obtain ⟨middle, hmiddle, h⟩ := Option.bind_eq_some_iff.mp h
        obtain ⟨_, -, hmiddle⟩ := Option.bind_eq_some_iff.mp hmiddle
        exact ih (hasPrecision_of_div? hmiddle) h

/-- What a decimal is read as has 53 bits. -/
theorem hasPrecision_of_ofDecimal? {significand : Nat} {exponent : Int}
    (h : ofDecimal? significand exponent = some z) : z.HasPrecision := by
  obtain ⟨x, hx, h⟩ := Option.bind_eq_some_iff.mp h
  have hprecision := hasPrecision_of_ofQuotient? hx
  split at h
  · split at h
    · obtain ⟨_, -, h⟩ := Option.bind_eq_some_iff.mp h
      exact hasPrecision_of_mul? h
    · split at h
      · cases h
        exact hprecision
      · cases h
  · exact hasPrecision_of_divTenTo? hprecision h

/-! ### Rounding to a whole number -/

/-- A magnitude that is less than the limit of a word is not rounded up to it. -/
theorem rounded_lt (hx : x.HasPrecision) (h : x.ltNat (2 ^ 64)) : x.rounded < 2 ^ 64 := by
  obtain ⟨mantissa, exponent⟩ := x
  unfold HasPrecision at hx
  dsimp only at hx
  cases exponent with
  | ofNat e =>
    -- there is no fraction to be rounded
    simp only [ltNat, rounded, quotient, mul_one, decide_eq_true_eq] at h ⊢
    omega
  | negSucc e =>
    simp only [rounded, quotient, Nat.shiftLeft_eq, one_mul]
    have hhalves : 2 ≤ 2 ^ (e + 1) := by
      rw [pow_succ]
      have hpos := Nat.two_pow_pos e
      omega
    refine Nat.div_lt_of_lt_mul ?_
    nlinarith

end BearerAuth.Binary64
