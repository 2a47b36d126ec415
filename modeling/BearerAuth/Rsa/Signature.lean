import BearerAuth.Rsa
import BearerAuth.Sha256

/-!
# Signatures

Signatures of RSA with the padding of PKCS #1 version 1.5 over the hash SHA-256.  Verification
compares the recovered number with the only one that the padding allows, so for a given key and
message the accepted bytes are those of the roots of one number.
-/

namespace BearerAuth.Rsa

/-- What stands in front of the hash and names the hash function. -/
def hashPrelude : Bytes :=
  [0x30, 0x31, 0x30, 0x0d, 0x06, 0x09, 0x60, 0x86, 0x48, 0x01, 0x65, 0x03, 0x04, 0x02, 0x01, 0x05,
    0x00, 0x04, 0x20]

/-- The padded hash of a message, in the given number of bytes. -/
def padded (size : Nat) (message : Bytes) : Bytes :=
  let tail := hashPrelude ++ Sha256.hash message
  [0x00, 0x01] ++ List.replicate (size - tail.length - 3) 0xFF ++ 0x00 :: tail

/-- The greatest public exponent, `2 ^ 33 - 1`. -/
abbrev maxExponent : Nat := 0x1FFFFFFFF

/-- A key that verification works with: an odd modulus of 2048 to 8192 bits, the lower end rounded
up to whole bytes, and an odd exponent of at least three. -/
def PublicKey.isUsable (k : PublicKey) : Bool :=
  k.modulus % 2 = 1 && 256 ≤ Bytes.byteLength k.modulus && bitLength k.modulus ≤ 8192 &&
    k.exponent % 2 = 1 && 3 ≤ k.exponent && k.exponent ≤ maxExponent

/-- The bytes are a signature of the message under the key. -/
def PublicKey.verifies (k : PublicKey) (message signature : Bytes) : Bool :=
  let size := Bytes.byteLength k.modulus
  let s := signature.toNat
  k.isUsable && signature.length = size && s < k.modulus &&
    powMod s k.exponent k.modulus = (padded size message).toNat

/-- A key that signing works with.  The private exponent is only looked at from outside; the
numbers that signing computes with are checked against each other. -/
def PrivateKey.isUsable (k : PrivateKey) : Bool :=
  let bits := bitLength k.modulus
  let half := (bits + 1) / 2
  k.modulus % 2 = 1 && 256 ≤ Bytes.byteLength k.modulus && bits ≤ 4096 &&
    k.publicExponent % 2 = 1 && 65537 ≤ k.publicExponent && k.publicExponent ≤ maxExponent &&
    k.prime1 % 2 = 1 && bitLength k.prime1 = half && half % 512 = 0 &&
    k.prime2 % 2 = 1 && bitLength k.prime2 = half &&
    k.prime1 * k.prime2 % k.modulus = 0 &&
    k.privateExponent % 2 = 1 && half < bitLength k.privateExponent &&
    k.privateExponent < k.modulus &&
    k.exponent1 % 2 = 1 && k.exponent1 < k.prime1 &&
    k.exponent2 % 2 = 1 && k.exponent2 < k.prime2 &&
    k.coefficient < k.prime1 && k.coefficient * k.prime2 % k.prime1 = 1

/-- The root of a number that the private key finds, computed for each prime and put together. -/
def PrivateKey.root (k : PrivateKey) (m : Nat) : Nat :=
  let m₁ := powMod m k.exponent1 k.prime1
  let m₂ := powMod m k.exponent2 k.prime2
  let h := (m₁ + (k.prime1 - m₂ % k.prime1)) * k.coefficient % k.prime1
  (m₂ + h * k.prime2) % k.modulus

/-- Why a message is not signed. -/
inductive Refusal where
  /-- The key is not one that signing works with. -/
  | unusable
  /-- The signature does not verify. -/
  | inconsistent
deriving DecidableEq, Repr

/-- Signs a message.  A signature that the public half does not verify is not given out. -/
def PrivateKey.sign (k : PrivateKey) (message : Bytes) : Except Refusal Bytes :=
  if k.isUsable then
    let size := Bytes.byteLength k.modulus
    let m := (padded size message).toNat
    let s := k.root m
    if powMod s k.publicExponent k.modulus = m then .ok (Bytes.ofNatPadded size s)
    else .error .inconsistent
  else .error .unusable

end BearerAuth.Rsa
