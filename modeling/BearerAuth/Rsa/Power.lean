import Mathlib
import BearerAuth.Rsa

/-!
# Powers by repeated squaring

Main statement: `powMod_eq` says that repeated squaring computes powers.
-/

namespace BearerAuth.Rsa

theorem powModAux_eq (modulus : Nat) (bits base exponent acc : Nat) (h : exponent < 2 ^ bits) :
    powModAux modulus bits base exponent acc % modulus = acc * base ^ exponent % modulus := by
  induction bits generalizing base exponent acc with
  | zero =>
    have : exponent = 0 := by omega
    simp [powModAux, this]
  | succ bits ih =>
    unfold powModAux
    split
    · simp_all
    · rename_i h0
      have hlt : exponent / 2 < 2 ^ bits := by
        rw [Nat.pow_succ] at h
        omega
      rw [ih _ _ _ hlt, Nat.mul_mod, ← Nat.pow_mod, ← Nat.mul_mod, ← Nat.pow_two, ← Nat.pow_mul]
      split
      · rename_i h1
        have : exponent = 2 * (exponent / 2) + 1 := by omega
        conv => rhs; rw [this, Nat.pow_succ']
        rw [Nat.mul_mod, Nat.mod_mod, ← Nat.mul_mod, Nat.mul_assoc]
      · have : exponent = 2 * (exponent / 2) := by omega
        conv => rhs; rw [this]

theorem powModAux_lt (modulus : Nat) (bits base exponent acc : Nat) (h : acc < modulus) :
    powModAux modulus bits base exponent acc < modulus := by
  induction bits generalizing base exponent acc with
  | zero => exact h
  | succ bits ih =>
    unfold powModAux
    split
    · exact h
    · apply ih
      split
      · exact Nat.mod_lt _ (by omega)
      · exact h

theorem lt_two_pow_bitLength (n : Nat) : n < 2 ^ bitLength n := by
  unfold bitLength
  split
  · simp_all
  · exact Nat.lt_log2_self

theorem powMod_eq (base exponent modulus : Nat) (h : 0 < modulus) :
    powMod base exponent modulus = base ^ exponent % modulus := by
  have hlt := powModAux_lt modulus (bitLength exponent) (base % modulus) exponent (1 % modulus)
    (Nat.mod_lt _ h)
  have heq := powModAux_eq modulus (bitLength exponent) (base % modulus) exponent (1 % modulus)
    (lt_two_pow_bitLength exponent)
  rw [Nat.mod_eq_of_lt hlt] at heq
  rw [powMod, heq, Nat.mul_mod, Nat.mod_mod, ← Nat.pow_mod, ← Nat.mul_mod, Nat.one_mul]

end BearerAuth.Rsa
