import BearerAuth.Bytes

/-!
# Arithmetic of RSA

Powers and inverses with respect to a modulus, and the numbers that make up keys.

Main statement: `inverse?_spec` says that what `inverse?` finds is an inverse.
-/

namespace BearerAuth.Rsa

/-- Multiplies `acc` by a power of `base`, by repeated squaring.  The first argument bounds the
number of binary digits of the exponent. -/
def powModAux (modulus : Nat) : Nat → Nat → Nat → Nat → Nat
  | 0, _, _, acc => acc
  | bits + 1, base, exponent, acc =>
      if exponent = 0 then acc
      else
        powModAux modulus bits (base * base % modulus) (exponent / 2)
          (if exponent % 2 = 1 then acc * base % modulus else acc)

/-- The power of a number, reduced. -/
def powMod (base exponent modulus : Nat) : Nat :=
  powModAux modulus (bitLength exponent) (base % modulus) exponent (1 % modulus)

/-- The coefficient of the second of two numbers in a combination that comes to their greatest
common divisor.  The first argument bounds the number of divisions. -/
def bezout : Nat → Nat → Nat → Int → Int → Int
  | 0, _, _, s, _ => s
  | steps + 1, a, b, s, t =>
      if b = 0 then s else bezout steps b (a % b) t (s - (a / b : Nat) * t)

/-- The inverse of a number, if it has one. -/
def inverse? (a modulus : Nat) : Option Nat :=
  let s := (bezout (2 * bitLength modulus + 2) modulus (a % modulus) 0 1 % modulus).toNat
  if a * s % modulus = 1 then some s else none

theorem inverse?_spec {a modulus s : Nat} (h : inverse? a modulus = some s) :
    a * s % modulus = 1 := by
  unfold inverse? at h
  dsimp only at h
  split at h
  · rename_i hs
    cases h
    exact hs
  · cases h

/-- The numbers of a public key. -/
structure PublicKey where
  modulus : Nat
  exponent : Nat
deriving DecidableEq, Repr

/-- The numbers of a private key. -/
structure PrivateKey where
  modulus : Nat
  publicExponent : Nat
  privateExponent : Nat
  prime1 : Nat
  prime2 : Nat
  exponent1 : Nat
  exponent2 : Nat
  coefficient : Nat
deriving DecidableEq, Repr

end BearerAuth.Rsa
