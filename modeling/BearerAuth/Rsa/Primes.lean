import BearerAuth.Rsa

/-!
# Probable primes

The search for the primes of a key.  A candidate passes if no small number divides it and if it
passes a strong test to each of some bases, as every prime does; that a composite number passes
for all of them is next to impossible for candidates drawn at random.
-/

namespace BearerAuth.Rsa

/-- The primes below 100. -/
def smallPrimes : List Nat :=
  [2, 3, 5, 7, 11, 13, 17, 19, 23, 29, 31, 37, 41, 43, 47, 53, 59, 61, 67, 71, 73, 79, 83, 89, 97]

/-- A number as an odd number times a power of two; the first argument bounds the power. -/
def splitTwos : Nat → Nat → Nat × Nat
  | 0, n => (n, 0)
  | bound + 1, n =>
      if n % 2 = 0 then
        let (odd, twos) := splitTwos bound (n / 2)
        (odd, twos + 1)
      else (n, 0)

/-- Some number on the way of at most so many squarings is one less than the modulus. -/
def reachesMinusOne (modulus : Nat) : Nat → Nat → Bool
  | 0, _ => false
  | squarings + 1, x => x = modulus - 1 || reachesMinusOne modulus squarings (x * x % modulus)

/-- An odd number greater than the base passes the strong test to the base. -/
def passesStrongTest (n base : Nat) : Bool :=
  let (odd, twos) := splitTwos (bitLength n) (n - 1)
  let x := powMod base odd n
  x = 1 || reachesMinusOne n twos x

/-- The number may be taken for a prime. -/
def isProbablePrime (n : Nat) : Bool :=
  if n ≤ 97 then smallPrimes.contains n
  else smallPrimes.all (fun p => n % p ≠ 0) && smallPrimes.all (passesStrongTest n)

/-- The first of so many odd numbers from an odd one on that may be taken for a prime, and for which
an exponent can be inverted. -/
def searchPrime (publicExponent : Nat) : Nat → Nat → Option Nat
  | 0, _ => none
  | candidates + 1, n =>
      if isProbablePrime n ∧ Nat.gcd (n - 1) publicExponent = 1 then some n
      else searchPrime publicExponent candidates (n + 2)

/-- An odd number of so many binary digits, of which the first two are ones; the others are those
of a random number. -/
def candidate (bits random : Nat) : Nat :=
  (random % (1 <<< (bits - 2)) + 3 <<< (bits - 2)) / 2 * 2 + 1

end BearerAuth.Rsa
