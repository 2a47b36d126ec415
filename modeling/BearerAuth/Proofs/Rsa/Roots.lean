import Mathlib
import BearerAuth.Proofs.Rsa.Signature

/-!
# Roots of padded hashes

A signature is a root of a number that the message determines.  Where the modulus is the product of
two primes and an exponent undoes the public one modulo either of them, raising to the public
exponent can be undone: no number has two roots, and the root that the private key computes for each
prime and puts together is one.

Main statements: `PublicKey.determinesSignatures_of_primes` says that no message has two signatures,
and `PrivateKey.exists_sign` that every message has one.
-/

namespace BearerAuth.Rsa

/-! ### Exponents that undo each other -/

section Exponents

variable {p d e : Nat}

/-- An exponent that leaves one over multiples of `p - 1` changes nothing modulo the prime `p`. -/
theorem pow_modEq_self (hp : p.Prime) (h : d % (p - 1) = 1) (x : Nat) : x ^ d ≡ x [MOD p] := by
  have := Fact.mk hp
  have hd : d = (p - 1) * (d / (p - 1)) + 1 := by
    conv => lhs; rw [← Nat.div_add_mod d (p - 1), h]
  rw [← ZMod.natCast_eq_natCast_iff, Nat.cast_pow]
  by_cases hx : (x : ZMod p) = 0
  · rw [hx, hd, zero_pow (Nat.succ_ne_zero _)]
  · calc (x : ZMod p) ^ d = ((x : ZMod p) ^ (p - 1)) ^ (d / (p - 1)) * x := by
          conv => lhs; rw [hd]
          rw [pow_succ, pow_mul]
      _ = x := by rw [ZMod.pow_card_sub_one_eq_one hx, one_pow, one_mul]

/-- Raising to one exponent and then to the other changes nothing. -/
theorem pow_pow_modEq_self (hp : p.Prime) (h : d * e % (p - 1) = 1) (x : Nat) :
    (x ^ d) ^ e ≡ x [MOD p] := by
  rw [← pow_mul]
  exact pow_modEq_self hp h x

/-- Numbers with the same power are the same, if an exponent undoes that of the power. -/
theorem modEq_of_pow_modEq (hp : p.Prime) (h : d * e % (p - 1) = 1) {x y : Nat}
    (hpow : x ^ e ≡ y ^ e [MOD p]) : x ≡ y [MOD p] := by
  have hundone : ∀ z : Nat, (z ^ e) ^ d ≡ z [MOD p] :=
    pow_pow_modEq_self hp (by rw [mul_comm, h])
  calc x ≡ (x ^ e) ^ d [MOD p] := (hundone x).symm
    _ ≡ (y ^ e) ^ d [MOD p] := hpow.pow d
    _ ≡ y [MOD p] := hundone y

end Exponents

/-! ### One signature at most -/

namespace PublicKey

/-- No message has two signatures under the key. -/
def DeterminesSignatures (k : PublicKey) : Prop :=
  ∀ message s s', k.verifies message s = true → k.verifies message s' = true → s = s'

/-- A key whose modulus is the product of two primes, and whose exponent is undone modulo either of
them, determines its signatures. -/
theorem determinesSignatures_of_primes {k : PublicKey} {p q d : Nat} (hp : p.Prime) (hq : q.Prime)
    (hne : p ≠ q) (hmodulus : k.modulus = p * q) (hdp : d * k.exponent % (p - 1) = 1)
    (hdq : d * k.exponent % (q - 1) = 1) : k.DeterminesSignatures := by
  intro message s s' hs hs'
  obtain ⟨-, hlength, hlt, hpow⟩ := verifies_iff.mp hs
  obtain ⟨-, hlength', hlt', hpow'⟩ := verifies_iff.mp hs'
  have hpositive : 0 < k.modulus := Nat.zero_lt_of_lt hlt
  have hpowers : s.toNat ^ k.exponent ≡ s'.toNat ^ k.exponent [MOD p * q] := by
    rw [powMod_eq _ _ _ hpositive] at hpow hpow'
    rw [← hmodulus]
    exact hpow.trans hpow'.symm
  have hcoprime : Nat.Coprime p q := (Nat.coprime_primes hp hq).mpr hne
  have hroots : s.toNat ≡ s'.toNat [MOD k.modulus] := by
    rw [hmodulus]
    refine (Nat.modEq_and_modEq_iff_modEq_mul hcoprime).mp ⟨?_, ?_⟩
    · exact modEq_of_pow_modEq hp hdp (hpowers.of_dvd (Nat.dvd_mul_right p q))
    · exact modEq_of_pow_modEq hq hdq (hpowers.of_dvd (Nat.dvd_mul_left q p))
  have hvalues : s.toNat = s'.toNat := hroots.eq_of_lt_of_lt hlt hlt'
  rw [← Bytes.ofNatPadded_toNat s, ← Bytes.ofNatPadded_toNat s', hvalues, hlength, hlength']

end PublicKey

/-! ### A root for every number -/

/-- The padded hash of a message is less than every modulus of its size. -/
theorem padded_lt {modulus : Nat} (message : Bytes) (h : 256 ≤ Bytes.byteLength modulus) :
    (padded (Bytes.byteLength modulus) message).toNat < modulus := by
  obtain ⟨size, hsize⟩ : ∃ size, Bytes.byteLength modulus = size + 1 :=
    ⟨Bytes.byteLength modulus - 1, by omega⟩
  have htail : (hashPrelude ++ Sha256.hash message).length = 51 := by
    simp [hashPrelude, Sha256.hash, Sha256.State.words]
  obtain ⟨rest, hpadded, hrest⟩ : ∃ rest : Bytes,
      padded (Bytes.byteLength modulus) message = 0 :: rest ∧ rest.length = size := by
    refine ⟨0x01 :: (List.replicate (Bytes.byteLength modulus - 51 - 3) 0xFF ++
      0x00 :: (hashPrelude ++ Sha256.hash message)), ?_, ?_⟩
    · unfold padded
      dsimp only
      rw [htail]
      rfl
    · rw [List.length_cons, List.length_append, List.length_cons, List.length_replicate, htail]
      omega
  calc (padded (Bytes.byteLength modulus) message).toNat = rest.toNat := by
        rw [hpadded, Bytes.toNat_cons]
        simp
    _ < 256 ^ size := by
        rw [← hrest]
        exact Bytes.toNat_lt rest
    _ ≤ modulus := Bytes.pow_le_of_byteLength hsize

namespace PrivateKey

variable {k : PrivateKey}

/-- The numbers of a private key are those of a modulus that is the product of two primes. -/
structure OfPrimes (k : PrivateKey) : Prop where
  prime1 : k.prime1.Prime
  prime2 : k.prime2.Prime
  modulus : k.modulus = k.prime1 * k.prime2
  exponent1 : k.exponent1 * k.publicExponent % (k.prime1 - 1) = 1
  exponent2 : k.exponent2 * k.publicExponent % (k.prime2 - 1) = 1
  coefficient : k.coefficient * k.prime2 % k.prime1 = 1

/-- The primes of a key are distinct, because one of them has an inverse modulo the other. -/
theorem OfPrimes.ne (h : k.OfPrimes) : k.prime1 ≠ k.prime2 := by
  intro heq
  have hone := h.coefficient
  rw [heq, Nat.mul_mod_left] at hone
  cases hone

/-- The number that is put together from the roots for either prime agrees with both. -/
theorem root_modEq (h : k.OfPrimes) (m : Nat) :
    k.root m ≡ m ^ k.exponent1 [MOD k.prime1] ∧ k.root m ≡ m ^ k.exponent2 [MOD k.prime2] := by
  have hp := h.prime1.pos
  have hq := h.prime2.pos
  have hroot : k.root m ≡ m ^ k.exponent2 % k.prime2 +
      (m ^ k.exponent1 % k.prime1 + (k.prime1 - m ^ k.exponent2 % k.prime2 % k.prime1)) *
        k.coefficient % k.prime1 * k.prime2 [MOD k.prime1 * k.prime2] := by
    rw [← h.modulus]
    unfold root
    rw [powMod_eq _ _ _ hp, powMod_eq _ _ _ hq]
    exact Nat.mod_modEq _ _
  constructor
  · refine (hroot.of_dvd (Nat.dvd_mul_right _ _)).trans ?_
    have hle : m ^ k.exponent2 % k.prime2 % k.prime1 ≤ k.prime1 := (Nat.mod_lt _ hp).le
    have hone : (k.coefficient : ZMod k.prime1) * k.prime2 = 1 := by
      rw [← Nat.cast_mul, ← ZMod.natCast_mod, h.coefficient, Nat.cast_one]
    rw [← ZMod.natCast_eq_natCast_iff]
    push_cast [Nat.cast_sub hle, ZMod.natCast_self, ZMod.natCast_mod]
    rw [mul_assoc, hone]
    ring
  · refine (hroot.of_dvd (Nat.dvd_mul_left _ _)).trans ?_
    calc _ ≡ m ^ k.exponent2 % k.prime2 + 0 [MOD k.prime2] :=
          Nat.ModEq.add_left _ (Nat.modEq_zero_iff_dvd.mpr (Nat.dvd_mul_left _ _))
      _ ≡ m ^ k.exponent2 [MOD k.prime2] := Nat.mod_modEq _ _

/-- What is put together from the roots for either prime is a root. -/
theorem powMod_root (h : k.OfPrimes) {m : Nat} (hm : m < k.modulus) :
    powMod (k.root m) k.publicExponent k.modulus = m := by
  obtain ⟨hroot1, hroot2⟩ := root_modEq h m
  have hcoprime : Nat.Coprime k.prime1 k.prime2 :=
    (Nat.coprime_primes h.prime1 h.prime2).mpr h.ne
  have hpow : k.root m ^ k.publicExponent ≡ m [MOD k.modulus] := by
    rw [h.modulus]
    refine (Nat.modEq_and_modEq_iff_modEq_mul hcoprime).mp ⟨?_, ?_⟩
    · exact (hroot1.pow _).trans (pow_pow_modEq_self h.prime1 h.exponent1 m)
    · exact (hroot2.pow _).trans (pow_pow_modEq_self h.prime2 h.exponent2 m)
  rw [powMod_eq _ _ _ (Nat.zero_lt_of_lt hm), hpow, Nat.mod_eq_of_lt hm]

/-- A usable key of two primes signs every message. -/
theorem exists_sign (h : k.OfPrimes) (husable : k.isUsable = true) (message : Bytes) :
    ∃ signature, k.sign message = .ok signature := by
  have hsize : 256 ≤ Bytes.byteLength k.modulus :=
    (PublicKey.isUsable_iff.mp (isUsable_publicKey husable)).2.1
  exact ⟨_, sign_eq_ok_iff.mpr ⟨husable, powMod_root h (padded_lt message hsize), rfl⟩⟩

end PrivateKey

end BearerAuth.Rsa
