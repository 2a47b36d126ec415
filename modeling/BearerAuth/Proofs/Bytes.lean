import Mathlib
import BearerAuth.Bytes

/-!
# Numbers as bytes

The big-endian spellings of natural numbers, with a given number of bytes and with as few bytes as
possible.

Main statements: `Bytes.toNat_ofNatPadded` and `Bytes.toNat_ofNat` say that spelling a number and
reading it back loses nothing that fits, and `Bytes.ofNat_toNat` that only the shortest spelling
starts with a byte other than zero.
-/

namespace BearerAuth

namespace Bytes

/-! ### Reading -/

@[simp] theorem toNat_nil : toNat [] = 0 := rfl

theorem toNat_append_singleton (b : Bytes) (x : UInt8) :
    toNat (b ++ [x]) = toNat b * 256 + x.toNat := by
  simp [toNat]

/-- The first byte weighs as much as there are bytes behind it. -/
theorem toNat_cons (x : UInt8) (b : Bytes) :
    toNat (x :: b) = x.toNat * 256 ^ b.length + toNat b := by
  induction b using List.reverseRecOn with
  | nil => simp [toNat]
  | append_singleton b y ih =>
    rw [← List.cons_append, toNat_append_singleton, toNat_append_singleton, ih, List.length_append,
      List.length_singleton, pow_succ]
    ring

/-- A spelling cannot exceed its length. -/
theorem toNat_lt (b : Bytes) : toNat b < 256 ^ b.length := by
  induction b using List.reverseRecOn with
  | nil => simp
  | append_singleton b x ih =>
    have hx : x.toNat < 256 := x.toNat_lt
    rw [toNat_append_singleton, List.length_append, List.length_singleton, pow_succ]
    omega

/-! ### Writing with a given number of bytes -/

theorem ofNatPadded_go_append (k n : Nat) (acc : Bytes) :
    ofNatPadded.go k n acc = ofNatPadded k n ++ acc := by
  unfold ofNatPadded
  induction k generalizing n acc with
  | zero => rfl
  | succ k ih =>
    rw [ofNatPadded.go, ih, ofNatPadded.go, ih (n / 256) [_], List.append_assoc]
    rfl

@[simp] theorem ofNatPadded_zero (n : Nat) : ofNatPadded 0 n = [] := rfl

theorem ofNatPadded_succ (k n : Nat) :
    ofNatPadded (k + 1) n = ofNatPadded k (n / 256) ++ [UInt8.ofNat (n % 256)] :=
  ofNatPadded_go_append k (n / 256) _

@[simp] theorem length_ofNatPadded (k n : Nat) : (ofNatPadded k n).length = k := by
  induction k generalizing n with
  | zero => rfl
  | succ k ih => simp [ofNatPadded_succ, ih]

/-- As much of a number is spelled as fits. -/
theorem toNat_ofNatPadded (k n : Nat) : toNat (ofNatPadded k n) = n % 256 ^ k := by
  induction k generalizing n with
  | zero => simp [Nat.mod_one]
  | succ k ih =>
    have hbyte : (UInt8.ofNat (n % 256)).toNat = n % 256 := by
      rw [UInt8.toNat_ofNat']
      exact Nat.mod_eq_of_lt (Nat.mod_lt n (by decide))
    rw [ofNatPadded_succ, toNat_append_singleton, ih, hbyte, pow_succ', Nat.mod_mul]
    ring

/-- Every byte string is the spelling of its number with its length. -/
theorem ofNatPadded_toNat (b : Bytes) : ofNatPadded b.length (toNat b) = b := by
  induction b using List.reverseRecOn with
  | nil => rfl
  | append_singleton b x ih =>
    have hx : x.toNat < 256 := x.toNat_lt
    have hdiv : (toNat b * 256 + x.toNat) / 256 = toNat b := by omega
    have hmod : (toNat b * 256 + x.toNat) % 256 = x.toNat := by omega
    rw [List.length_append, List.length_singleton, ofNatPadded_succ, toNat_append_singleton, hdiv,
      hmod, ih, UInt8.ofNat_toNat]

/-! ### Writing with as few bytes as possible -/

@[simp] theorem byteLength_zero : byteLength 0 = 0 := rfl

theorem byteLength_pos {n : Nat} (h : n ≠ 0) : 0 < byteLength n := by
  simp [byteLength, h]

/-- The bytes of a number suffice. -/
theorem lt_pow_byteLength (n : Nat) : n < 256 ^ byteLength n := by
  unfold byteLength
  split
  · rename_i h
    simp [h]
  · have hlog : n < 2 ^ (n.log2 + 1) := Nat.lt_log2_self
    have hle : 2 ^ (n.log2 + 1) ≤ 256 ^ (n.log2 / 8 + 1) := by
      rw [show (256 : Nat) = 2 ^ 8 from rfl, ← pow_mul]
      exact Nat.pow_le_pow_right (by decide) (by omega)
    exact lt_of_lt_of_le hlog hle

/-- One byte less does not suffice. -/
theorem pow_le_of_byteLength {n k : Nat} (h : byteLength n = k + 1) : 256 ^ k ≤ n := by
  have hne : n ≠ 0 := by
    rintro rfl
    simp at h
  rw [byteLength, if_neg hne, Nat.add_right_cancel_iff] at h
  calc 256 ^ k = 2 ^ (8 * k) := by rw [show (256 : Nat) = 2 ^ 8 from rfl, ← pow_mul]
    _ ≤ 2 ^ n.log2 := Nat.pow_le_pow_right (by decide) (by omega)
    _ ≤ n := Nat.log2_self_le hne

/-- The number of bytes is bounded by every power that exceeds the number. -/
theorem byteLength_le {n k : Nat} (h : n < 256 ^ k) : byteLength n ≤ k := by
  by_contra hlt
  push Not at hlt
  obtain ⟨m, hm⟩ : ∃ m, byteLength n = m + 1 := ⟨byteLength n - 1, by omega⟩
  have hpow : 256 ^ k ≤ 256 ^ m := Nat.pow_le_pow_right (by decide) (by omega)
  have := pow_le_of_byteLength hm
  omega

/-- A smaller number does not need more bytes. -/
theorem byteLength_mono {n m : Nat} (h : n ≤ m) : byteLength n ≤ byteLength m :=
  byteLength_le (lt_of_le_of_lt h (lt_pow_byteLength m))

@[simp] theorem length_ofNat (n : Nat) : (ofNat n).length = byteLength n :=
  length_ofNatPadded _ _

@[simp] theorem toNat_ofNat (n : Nat) : toNat (ofNat n) = n := by
  rw [ofNat, toNat_ofNatPadded]
  exact Nat.mod_eq_of_lt (lt_pow_byteLength n)

/-- The shortest spelling does not start with a zero byte. -/
theorem ne_zero_of_ofNat_eq_cons {n : Nat} {x : UInt8} {rest : Bytes}
    (h : ofNat n = x :: rest) : x ≠ 0 := by
  rintro rfl
  have hlength := length_ofNat n
  rw [h, List.length_cons] at hlength
  have hle := pow_le_of_byteLength hlength.symm
  have hnat := toNat_ofNat n
  rw [h, toNat_cons] at hnat
  have hlt := toNat_lt rest
  simp at hnat
  omega

/-- A spelling that does not start with a zero byte is the shortest one. -/
theorem ofNat_toNat {b : Bytes} (h : b.head? ≠ some 0) : ofNat (toNat b) = b := by
  have hlength : byteLength (toNat b) = b.length := by
    apply le_antisymm (byteLength_le (toNat_lt b))
    cases b with
    | nil => simp
    | cons x rest =>
      by_contra hlt
      push Not at hlt
      have hx : 1 ≤ x.toNat := by
        rw [Nat.one_le_iff_ne_zero]
        intro hzero
        exact h (by rw [List.head?_cons, UInt8.toNat_inj.mp (hzero.trans UInt8.toNat_zero.symm)])
      have hnat := lt_pow_byteLength (toNat (x :: rest))
      have hpow : 256 ^ byteLength (toNat (x :: rest)) ≤ 256 ^ rest.length :=
        Nat.pow_le_pow_right (by decide) (by simpa using Nat.lt_succ_iff.mp hlt)
      have hcons := toNat_cons x rest
      nlinarith
  rw [ofNat, hlength, ofNatPadded_toNat]

end Bytes

end BearerAuth
