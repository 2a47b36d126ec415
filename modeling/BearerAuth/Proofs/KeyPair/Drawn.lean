import Mathlib
import BearerAuth.Fixtures
import BearerAuth.Proofs.KeyPair.Signing

/-!
# Drawn pairs

What all pairs have in common that the generator draws: a modulus of the size that was asked for,
and a private exponent that is less than the modulus.  The texts of such pairs are short, and
they are read as the pairs.

Main statements: `KeyPair.drawn_of_ofRandom?` and `KeyPair.fromPem_of_drawn`.
-/

namespace BearerAuth

namespace KeyPair

variable {p : KeyPair} {bits : Nat}

/-- The pair has the size of pairs that are drawn, and no longer a private exponent than these. -/
structure Drawn (bits : Nat) (p : KeyPair) : Prop where
  size : bitLength p.modulus = bits
  reduced : p.privateExponent < p.modulus

/-- The private exponent of a pair that is made from two primes is less than its modulus. -/
theorem reduced_of_ofPrimes? {prime1 prime2 : Nat} (h : ofPrimes? prime1 prime2 = some p) :
    p.privateExponent < p.modulus := by
  obtain ⟨privateExponent, hinverse, h⟩ := Option.bind_eq_some_iff.mp h
  unfold ofPrivateKey? at h
  split at h
  · rename_i hconsistent
    obtain rfl := Option.some.inj h
    have hlt : 1 < prime1 ∧ 1 < prime2 := one_lt_primes
      ⟨prime1 * prime2, generatedExponent, privateExponent, prime1, prime2, hconsistent⟩
    have hpos : 0 < (prime1 - 1) * (prime2 - 1) := Nat.mul_pos (by omega) (by omega)
    calc privateExponent < (prime1 - 1) * (prime2 - 1) := Rsa.inverse?_lt hpos hinverse
      _ ≤ prime1 * prime2 := Nat.mul_le_mul (Nat.sub_le _ _) (Nat.sub_le _ _)
  · cases h

/-- What is drawn is of the size that was asked for. -/
theorem drawn_of_ofRandom? {random1 random2 : Nat} (h : ofRandom? bits random1 random2 = some p) :
    p.Drawn bits := by
  unfold ofRandom? at h
  dsimp only at h
  obtain ⟨prime1, -, h⟩ := Option.bind_eq_some_iff.mp h
  obtain ⟨prime2, -, h⟩ := Option.bind_eq_some_iff.mp h
  obtain ⟨pair, hpair, h⟩ := Option.bind_eq_some_iff.mp h
  obtain ⟨_, hguard, h⟩ := Option.bind_eq_some_iff.mp h
  obtain rfl : pair = p := Option.some.inj h
  have hsize : prime1 ≠ prime2 ∧ bitLength pair.modulus = bits := by
    simpa [guard] using hguard
  exact ⟨hsize.2, reduced_of_ofPrimes? hpair⟩

/-- The numbers of a drawn pair have no more bytes than its size allows. -/
theorem Drawn.byteLength_le (h : p.Drawn bits) :
    Bytes.byteLength p.modulus ≤ (bits + 7) / 8 ∧
      Bytes.byteLength p.privateExponent ≤ (bits + 7) / 8 := by
  have hmodulus : Bytes.byteLength p.modulus = (bits + 7) / 8 := by
    rw [Rsa.byteLength_eq, h.size]
  exact ⟨hmodulus.le, hmodulus ▸ Bytes.byteLength_mono h.reduced.le⟩

variable {pem : String}

/-- The text of a drawn pair of the default size is read as the pair. -/
theorem fromPem_of_drawn (h : p.Drawn defaultBits) (hpem : p.privatePem = .ok pem) (kid : String) :
    fromPem kid pem = .ok p := by
  obtain ⟨hmodulus, hexponent⟩ := h.byteLength_le
  rw [fromPem, ofPem?_privatePem hpem (by decide) (by decide) hmodulus hexponent]

/-- The text of a drawn pair of the default size has no more than `2 ^ 14` bytes. -/
theorem length_privatePem_of_drawn (h : p.Drawn defaultBits) (hpem : p.privatePem = .ok pem) :
    (utf8 pem).length ≤ 16384 := by
  obtain ⟨k, hk, rfl⟩ := privatePem_eq_ok_iff.mp hpem
  obtain ⟨hmodulus, hexponent⟩ := h.byteLength_le
  have hnumbers : ((Der.privateNumbers k).map Der.integer).flatten.length ≤ 9 * (256 + 7) :=
    Der.length_integers_le
      (fun n hn => byteLength_le_of_mem hk (by decide) hmodulus hexponent hn) (by decide)
  have hcontent : (Der.encodePrivateKey k).length ≤ 9 * (256 + 7) + 6 :=
    le_trans (Der.length_element_le (lt_of_le_of_lt hnumbers (by decide)))
      (Nat.add_le_add_right hnumbers 6)
  have hlabel : (utf8 privateLabel).length = 15 := by decide +kernel
  have htext := Pem.length_utf8_encode_le privateLabel (Der.encodePrivateKey k)
  omega

/-- The private half of a pair has a text where the factors of the modulus have no divisor in
common. -/
theorem exists_privatePem (h : Nat.Coprime p.prime1 p.prime2) : ∃ pem, p.privatePem = .ok pem := by
  obtain ⟨k, hk⟩ := exists_privateKey?_iff.mpr h
  exact ⟨_, privatePem_eq_ok_iff.mpr ⟨k, hk, rfl⟩⟩

end KeyPair

namespace Fixtures

theorem primaryPair_drawn : primaryPair.Drawn KeyPair.defaultBits :=
  ⟨by decide +kernel, by decide +kernel⟩

theorem secondaryPair_drawn : secondaryPair.Drawn KeyPair.defaultBits :=
  ⟨by decide +kernel, by decide +kernel⟩

theorem exists_primaryPem : ∃ pem, primaryPair.privatePem = .ok pem :=
  KeyPair.exists_privatePem (by decide +kernel)

theorem exists_secondaryPem : ∃ pem, secondaryPair.privatePem = .ok pem :=
  KeyPair.exists_privatePem (by decide +kernel)

end Fixtures

end BearerAuth
