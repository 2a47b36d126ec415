import Mathlib
import BearerAuth.Rsa.Power

/-!
# Inverses that exist are found

The divisions of Euclid's algorithm keep two congruences, one for each of the numbers that are
divided, and every division at least halves their product.  So the bound on the number of divisions
is never reached, and what comes out is an inverse wherever there is one.

Main statements: `exists_inverse?` and `coprime_of_inverse?`.
-/

namespace BearerAuth.Rsa

/-- A number and the rest that it leaves make up at most half of what the division had. -/
theorem mul_mod_lt {a b steps : Nat} (hle : b ≤ a) (hb : b ≠ 0) (h : a * b < 2 ^ (steps + 1)) :
    b * (a % b) < 2 ^ steps := by
  have hrest : a % b < b := Nat.mod_lt a (Nat.pos_of_ne_zero hb)
  have hdivision : b * (a / b) + a % b = a := Nat.div_add_mod a b
  have hquotient : b * 1 ≤ b * (a / b) :=
    Nat.mul_le_mul_left b (Nat.div_pos hle (Nat.pos_of_ne_zero hb))
  have hhalf : 2 * (a % b) ≤ a := by omega
  have hproduct : 2 * (b * (a % b)) ≤ a * b :=
    calc 2 * (b * (a % b)) = 2 * (a % b) * b := by ring
      _ ≤ a * b := Nat.mul_le_mul_right b hhalf
  rw [pow_succ] at h
  omega

/-- Multiples of a number that are the two numbers, with respect to a modulus, lead to a multiple
that is their greatest common divisor. -/
theorem bezout_modEq {steps a b : Nat} {s t x m : Int} (hle : b ≤ a) (hsteps : a * b < 2 ^ steps)
    (hs : s * x ≡ a [ZMOD m]) (ht : t * x ≡ b [ZMOD m]) :
    bezout steps a b s t * x ≡ (Nat.gcd a b : Nat) [ZMOD m] := by
  induction steps generalizing a b s t with
  | zero =>
    have hzero : b = 0 := by
      have hproduct : a * b = 0 := by omega
      rcases Nat.mul_eq_zero.mp hproduct with rfl | hb
      · exact Nat.le_zero.mp hle
      · exact hb
    rw [bezout, hzero, Nat.gcd_zero_right]
    exact hs
  | succ steps ih =>
    rw [bezout]
    split
    · rename_i hb
      rw [hb, Nat.gcd_zero_right]
      exact hs
    · rename_i hb
      have hrest : a % b ≤ b := (Nat.mod_lt a (Nat.pos_of_ne_zero hb)).le
      have hnext : (s - (a / b : Nat) * t) * x ≡ (a % b : Nat) [ZMOD m] := by
        have hdivision : ((a % b : Nat) : Int) = a - (a / b : Nat) * b := by
          have hsum : ((b * (a / b) + a % b : Nat) : Int) = a := by rw [Nat.div_add_mod]
          push_cast at hsum ⊢
          linarith
        rw [hdivision]
        calc (s - (a / b : Nat) * t) * x = s * x - (a / b : Nat) * (t * x) := by ring
          _ ≡ a - (a / b : Nat) * b [ZMOD m] := hs.sub (ht.mul_left _)
      have hgcd : Nat.gcd a b = Nat.gcd b (a % b) := by
        rw [Nat.gcd_comm, Nat.gcd_rec, Nat.gcd_comm]
      rw [hgcd]
      exact ih hrest (mul_mod_lt hle hb hsteps) ht hnext

variable {a modulus : Nat}

/-- A number that has no divisor in common with the modulus has an inverse, and it is found. -/
theorem exists_inverse? (hlt : 1 < modulus) (h : Nat.Coprime a modulus) :
    ∃ s, inverse? a modulus = some s := by
  have hsteps : modulus * (a % modulus) < 2 ^ (2 * bitLength modulus + 2) := by
    have hbits := lt_two_pow_bitLength modulus
    have hrest : a % modulus < modulus := Nat.mod_lt a (by omega)
    calc modulus * (a % modulus) ≤ modulus * modulus := Nat.mul_le_mul_left modulus hrest.le
      _ ≤ 2 ^ bitLength modulus * 2 ^ bitLength modulus := Nat.mul_le_mul hbits.le hbits.le
      _ = 2 ^ (2 * bitLength modulus) := by rw [← pow_add, two_mul]
      _ < 2 ^ (2 * bitLength modulus + 2) := Nat.pow_lt_pow_right (by decide) (by omega)
  have hbezout : bezout (2 * bitLength modulus + 2) modulus (a % modulus) 0 1 * a ≡
      (Nat.gcd modulus (a % modulus) : Nat) [ZMOD modulus] := by
    apply bezout_modEq (Nat.mod_lt a (by omega)).le hsteps
    · rw [zero_mul]
      exact (Int.modEq_zero_iff_dvd.mpr dvd_rfl).symm
    · rw [one_mul]
      exact (Int.mod_modEq a modulus).symm
  have hgcd : Nat.gcd modulus (a % modulus) = 1 := by
    rw [Nat.gcd_comm, ← Nat.gcd_rec, Nat.gcd_comm]
    exact h
  set s := (bezout (2 * bitLength modulus + 2) modulus (a % modulus) 0 1 % modulus).toNat with hs
  have hvalue : (s : Int) =
      bezout (2 * bitLength modulus + 2) modulus (a % modulus) 0 1 % modulus :=
    Int.toNat_of_nonneg (Int.emod_nonneg _ (by omega))
  have hone : a * s ≡ 1 [MOD modulus] := by
    rw [← Int.natCast_modEq_iff]
    push_cast
    rw [hvalue, mul_comm]
    refine ((Int.mod_modEq _ _).mul_right _).trans ?_
    rw [hgcd] at hbezout
    exact hbezout
  refine ⟨s, ?_⟩
  unfold inverse?
  dsimp only
  rw [← hs, if_pos]
  rw [hone, Nat.mod_eq_of_lt hlt]

/-- Only a number that has no divisor in common with the modulus has an inverse. -/
theorem coprime_of_inverse? {s : Nat} (h : inverse? a modulus = some s) :
    Nat.Coprime a modulus := by
  have hone := inverse?_spec h
  refine Nat.coprime_of_mul_modEq_one s ?_
  have hne : modulus ≠ 1 := by
    rintro rfl
    omega
  rw [Nat.ModEq, hone]
  rcases Nat.lt_or_gt_of_ne hne with hlt | hgt
  · rw [Nat.lt_one_iff.mp hlt, Nat.mod_zero]
  · rw [Nat.mod_eq_of_lt hgt]

/-- The inverse that is found is less than the modulus. -/
theorem inverse?_lt {s : Nat} (hpos : 0 < modulus) (h : inverse? a modulus = some s) :
    s < modulus := by
  unfold inverse? at h
  dsimp only at h
  split at h
  · cases h
    have hrest := Int.emod_lt_of_pos (bezout (2 * bitLength modulus + 2) modulus (a % modulus) 0 1)
      (Int.natCast_pos.mpr hpos)
    omega
  · cases h

end BearerAuth.Rsa
