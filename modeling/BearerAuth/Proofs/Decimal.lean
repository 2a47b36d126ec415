import Mathlib
import BearerAuth.Decimal

/-!
# Decimal numerals undone

The digits of a number spell it, none of them exceeds nine, and only zero starts with a zero.
-/

namespace BearerAuth.Decimal

/-- What the digits of a number in front of others come to. -/
theorem foldl_digitsAux {fuel n : Nat} (h : n < 10 ^ fuel) (hfuel : fuel ≠ 0) (acc : List Nat) :
    (digitsAux fuel n acc).foldl (fun n d => n * 10 + d) 0 =
      acc.foldl (fun n d => n * 10 + d) n := by
  induction fuel generalizing n acc with
  | zero => exact absurd rfl hfuel
  | succ fuel ih =>
    unfold digitsAux
    split
    · simp
    · rename_i hten
      have hlt : n / 10 < 10 ^ fuel := by
        rw [pow_succ] at h
        omega
      have hne : fuel ≠ 0 := by
        rintro rfl
        rw [pow_one] at h
        omega
      rw [ih hlt hne, List.foldl_cons]
      congr 1
      omega

/-- The bound on the number of digits suffices. -/
theorem lt_pow_log2 (n : Nat) : n < 10 ^ (n.log2 + 1) :=
  lt_of_lt_of_le Nat.lt_log2_self (Nat.pow_le_pow_left (by decide) _)

/-- The digits of a number spell it. -/
@[simp] theorem ofDigits_digits (n : Nat) : ofDigits (digits n) = n := by
  rw [ofDigits, digits, foldl_digitsAux (lt_pow_log2 n) (Nat.succ_ne_zero _)]
  rfl

theorem lt_of_mem_digitsAux {fuel n : Nat} {acc : List Nat} (h : ∀ d ∈ acc, d < 10) :
    ∀ d ∈ digitsAux fuel n acc, d < 10 := by
  induction fuel generalizing n acc with
  | zero => exact h
  | succ fuel ih =>
    unfold digitsAux
    split
    · rename_i hn
      intro d hd
      rcases List.mem_cons.mp hd with rfl | hd
      · exact hn
      · exact h d hd
    · apply ih
      intro d hd
      rcases List.mem_cons.mp hd with rfl | hd
      · exact Nat.mod_lt n (by decide)
      · exact h d hd

/-- Digits are digits. -/
theorem lt_of_mem_digits {n d : Nat} (h : d ∈ digits n) : d < 10 :=
  lt_of_mem_digitsAux (fun d hd => by cases hd) d h

theorem digitsAux_eq_cons {fuel n : Nat} (h : n < 10 ^ fuel) (hn : n ≠ 0) (acc : List Nat) :
    ∃ d ds, d ≠ 0 ∧ digitsAux fuel n acc = d :: ds := by
  induction fuel generalizing n acc with
  | zero =>
    rw [pow_zero] at h
    omega
  | succ fuel ih =>
    unfold digitsAux
    split
    · exact ⟨n, acc, hn, rfl⟩
    · rename_i hten
      have hlt : n / 10 < 10 ^ fuel := by
        rw [pow_succ] at h
        omega
      exact ih hlt (by omega) _

/-- A number other than zero does not start with a zero. -/
theorem digits_eq_cons {n : Nat} (h : n ≠ 0) : ∃ d ds, d ≠ 0 ∧ digits n = d :: ds :=
  digitsAux_eq_cons (lt_pow_log2 n) h []

@[simp] theorem digits_zero : digits 0 = [0] := rfl

end BearerAuth.Decimal
