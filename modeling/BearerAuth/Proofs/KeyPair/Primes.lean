import Mathlib
import BearerAuth.KeyPair.Generation
import BearerAuth.Proofs.Rsa.Roots

/-!
# Key pairs of primes

A pair is accepted if its numbers fit together, which says nothing about whether the two factors of
its modulus are primes.  Where they are, the public half determines its signatures, and the private
half signs every message as soon as it is one that signing works with.

Main statements: `KeyPair.determinesSignatures_of_primes` and `KeyPair.exists_sign_of_primes`.
Numbers of which one less has no prime factors but 2, 3 and 5 can be proved to be primes; two of
them make the pair `KeyPair.smoothPair`, for which all of this can be used.
-/

namespace BearerAuth

/-- What it takes for the numbers of a pair to fit together. -/
theorem isConsistentPair_iff {modulus publicExponent privateExponent prime1 prime2 : Nat} :
    isConsistentPair modulus publicExponent privateExponent prime1 prime2 = true ↔
      2 ≤ publicExponent ∧ publicExponent ≤ Rsa.maxExponent ∧ prime1 * prime2 = modulus ∧
        privateExponent * publicExponent % (prime1 - 1) = 1 ∧
        privateExponent * publicExponent % (prime2 - 1) = 1 := by
  simp [isConsistentPair, and_assoc]

namespace KeyPair

variable {p : KeyPair} {k : Rsa.PrivateKey}

/-- Both factors of the modulus are primes. -/
def HasPrimes (p : KeyPair) : Prop :=
  p.prime1.Prime ∧ p.prime2.Prime

/-- The public half of a pair of two primes determines its signatures. -/
theorem determinesSignatures_of_primes (h : p.HasPrimes) (hne : p.prime1 ≠ p.prime2) :
    p.publicKey.DeterminesSignatures := by
  obtain ⟨-, -, hmodulus, hexponent1, hexponent2⟩ := isConsistentPair_iff.mp p.consistent
  exact Rsa.PublicKey.determinesSignatures_of_primes h.1 h.2 hne hmodulus.symm hexponent1 hexponent2

/-- The private half of a pair of primes is a key of primes. -/
theorem ofPrimes_of_privateKey? (h : p.HasPrimes) (hk : p.privateKey? = some k) : k.OfPrimes := by
  obtain ⟨-, -, hmodulus, hexponent1, hexponent2⟩ := isConsistentPair_iff.mp p.consistent
  obtain ⟨coefficient, hcoefficient, hk⟩ := Option.bind_eq_some_iff.mp hk
  obtain rfl := Option.some.inj hk
  have hone := Rsa.inverse?_spec hcoefficient
  refine ⟨h.1, h.2, hmodulus.symm, ?_, ?_, ?_⟩
  · rw [Nat.mod_mul_mod]
    exact hexponent1
  · rw [Nat.mod_mul_mod]
    exact hexponent2
  · rw [Nat.mul_comm]
    exact hone

/-- A pair of primes signs every message, if its private half is one that signing works with. -/
theorem exists_sign_of_primes (h : p.HasPrimes) (hk : p.privateKey? = some k)
    (husable : k.isUsable = true) (message : Bytes) :
    ∃ signature, k.sign message = .ok signature :=
  Rsa.PrivateKey.exists_sign (ofPrimes_of_privateKey? h hk) husable message

end KeyPair

/-! ### Numbers that can be proved to be primes -/

namespace Rsa

/-- A number of which one less has no prime factors but 2, 3 and 5. -/
def smooth (twos threes fives : Nat) : Nat :=
  2 ^ twos * 3 ^ threes * 5 ^ fives + 1

variable {twos threes fives : Nat}

/-- The prime factors in front of such a number. -/
theorem mem_of_dvd_smooth {q : Nat} (hq : q.Prime) (h : q ∣ smooth twos threes fives - 1) :
    q ∈ [2, 3, 5] := by
  rw [smooth, Nat.add_sub_cancel] at h
  rcases hq.dvd_mul.mp h with h | h
  · rcases hq.dvd_mul.mp h with h | h
    · simp [(Nat.prime_dvd_prime_iff_eq hq Nat.prime_two).mp (hq.dvd_of_dvd_pow h)]
    · simp [(Nat.prime_dvd_prime_iff_eq hq Nat.prime_three).mp (hq.dvd_of_dvd_pow h)]
  · simp [(Nat.prime_dvd_prime_iff_eq hq Nat.prime_five).mp (hq.dvd_of_dvd_pow h)]

/-- Lucas's test: such a number is a prime if the order of some `x` modulo it is one less. -/
theorem prime_smooth (x : Nat)
    (hone : powMod x (smooth twos threes fives - 1) (smooth twos threes fives) = 1)
    (hne : ∀ q ∈ [2, 3, 5],
      powMod x ((smooth twos threes fives - 1) / q) (smooth twos threes fives) ≠ 1) :
    (smooth twos threes fives).Prime := by
  have hlt : 1 < smooth twos threes fives := by
    have hpositive : 0 < 2 ^ twos * 3 ^ threes * 5 ^ fives := by positivity
    unfold smooth
    omega
  have hpow : ∀ n, (x : ZMod (smooth twos threes fives)) ^ n = 1 ↔
      powMod x n (smooth twos threes fives) = 1 := by
    intro n
    rw [powMod_eq _ _ _ (by omega), ← Nat.cast_pow, ← Nat.cast_one,
      ZMod.natCast_eq_natCast_iff', Nat.mod_eq_of_lt hlt]
  refine lucas_primality _ (x : ZMod (smooth twos threes fives)) ((hpow _).mpr hone) ?_
  intro q hq hdvd
  rw [ne_eq, hpow]
  exact hne q (mem_of_dvd_smooth hq hdvd)

end Rsa

namespace KeyPair

/-- A pair of two primes of 1024 bits. -/
def smoothPair : KeyPair :=
  (ofPrimes? (Rsa.smooth 881 74 11) (Rsa.smooth 873 79 11)).get (by decide +kernel)

theorem prime1_smoothPair : smoothPair.prime1 = Rsa.smooth 881 74 11 := by
  decide +kernel

theorem prime2_smoothPair : smoothPair.prime2 = Rsa.smooth 873 79 11 := by
  decide +kernel

/-- Both factors of its modulus are primes. -/
theorem smoothPair_hasPrimes : smoothPair.HasPrimes := by
  constructor
  · rw [prime1_smoothPair]
    exact Rsa.prime_smooth 34 (by decide +kernel) (by decide +kernel)
  · rw [prime2_smoothPair]
    exact Rsa.prime_smooth 7 (by decide +kernel) (by decide +kernel)

/-- Its primes are distinct. -/
theorem smoothPair_ne : smoothPair.prime1 ≠ smoothPair.prime2 := by
  decide +kernel

/-- Its private half is one that signing works with. -/
theorem exists_privateKey_smoothPair :
    ∃ k, smoothPair.privateKey? = some k ∧ k.isUsable = true := by
  have husable : (smoothPair.privateKey?.map Rsa.PrivateKey.isUsable) = some true := by
    decide +kernel
  exact Option.map_eq_some_iff.mp husable

end KeyPair

end BearerAuth
