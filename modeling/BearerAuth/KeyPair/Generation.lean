import BearerAuth.KeyPair
import BearerAuth.Rsa.Primes

/-!
# Generation of key pairs

A new pair is made from two random numbers: each leads to the first prime behind it, and the primes
determine the pair.
-/

namespace BearerAuth

namespace KeyPair

/-- The public exponent of generated keys. -/
def generatedExponent : Nat := 65537

/-- The pair of two primes, if the exponent of generated keys can be inverted for them. -/
def ofPrimes? (prime1 prime2 : Nat) : Option KeyPair := do
  let privateExponent ← Rsa.inverse? generatedExponent ((prime1 - 1) * (prime2 - 1))
  ofPrivateKey? {
    modulus := prime1 * prime2, publicExponent := generatedExponent, privateExponent,
    prime1, prime2, exponent1 := 0, exponent2 := 0, coefficient := 0 }

/-- The number of candidates for a prime that are looked at. -/
def maxCandidates : Nat := 10000

/-- The pair to which two random numbers lead, if its modulus has the size asked for. -/
def ofRandom? (bits random1 random2 : Nat) : Option KeyPair := do
  let search := Rsa.searchPrime generatedExponent maxCandidates
  let p ← search (Rsa.candidate (bits - bits / 2) random1)
  let q ← search (Rsa.candidate (bits / 2) random2)
  let pair ← ofPrimes? (max p q) (min p q)
  guard (p ≠ q ∧ bitLength pair.modulus = bits)
  return pair

end KeyPair

end BearerAuth
