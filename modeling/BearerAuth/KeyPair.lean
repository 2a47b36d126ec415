import BearerAuth.Decimal
import BearerAuth.Der
import BearerAuth.KeyFailure
import BearerAuth.Pem
import BearerAuth.Rsa.Signature

/-!
# Key pairs

The key pairs that a store holds.  A pair is read strictly, and only pairs whose numbers fit
together are accepted; what a text says about the shortcuts for computing with a key is not
believed but computed anew when the pair is written.
-/

namespace BearerAuth

/-- The numbers fit together: an acceptable exponent, a modulus that is the product of the primes,
and exponents that undo each other. -/
def isConsistentPair (modulus publicExponent privateExponent prime1 prime2 : Nat) : Bool :=
  2 ≤ publicExponent && publicExponent ≤ Rsa.maxExponent && prime1 * prime2 = modulus &&
    privateExponent * publicExponent % (prime1 - 1) = 1 &&
    privateExponent * publicExponent % (prime2 - 1) = 1

/-- A pair of keys whose numbers fit together. -/
structure KeyPair where
  modulus : Nat
  publicExponent : Nat
  privateExponent : Nat
  prime1 : Nat
  prime2 : Nat
  consistent : isConsistentPair modulus publicExponent privateExponent prime1 prime2

namespace KeyPair

instance : DecidableEq KeyPair := fun a b =>
  decidable_of_iff
    (a.modulus = b.modulus ∧ a.publicExponent = b.publicExponent ∧
      a.privateExponent = b.privateExponent ∧ a.prime1 = b.prime1 ∧ a.prime2 = b.prime2) <| by
    cases a; cases b; simp

/-- The size of generated keys, in bits of the modulus. -/
def defaultBits : Nat := 2048

/-- The smallest size of generated keys. -/
def minBits : Nat := 2048

/-- The refusal to generate a key of that size, if it is too small. -/
def sizeFault? (bits : Nat) : Option KeyFailure :=
  if bits < minBits then
    some <| .internal <| "RSA modulus of " ++ Decimal.ofNat bits ++
      " bits is too small (minimum " ++ Decimal.ofNat minBits ++ ")"
  else none

/-- The label of a bare private key. -/
def privateLabel : String := "RSA PRIVATE KEY"

/-- The label of a private key with its algorithm. -/
def wrappedLabel : String := "PRIVATE KEY"

/-- The label of a public key with its algorithm. -/
def publicLabel : String := "PUBLIC KEY"

/-! ### Reading -/

/-- The pair of the numbers of a private key, if they fit together. -/
def ofPrivateKey? (k : Rsa.PrivateKey) : Option KeyPair :=
  if h : isConsistentPair k.modulus k.publicExponent k.privateExponent k.prime1 k.prime2 then
    some ⟨k.modulus, k.publicExponent, k.privateExponent, k.prime1, k.prime2, h⟩
  else none

/-- The numbers in a block. -/
def privateKeyOfBlock? (b : Pem.Block) : Option Rsa.PrivateKey :=
  if b.label = privateLabel then Der.readPrivateKey b.content
  else if b.label = wrappedLabel then Der.readPrivateKeyInfo b.content
  else none

/-- The pair of a text, if it holds one. -/
def ofPem? (pem : String) : Option KeyPair := do
  let block ← Pem.Block.decode? (utf8 pem)
  ofPrivateKey? (← privateKeyOfBlock? block)

/-- Reads a pair; the key id is only used to report a failure. -/
def fromPem (kid pem : String) : Except KeyFailure KeyPair :=
  match ofPem? pem with
  | some pair => .ok pair
  | none => .error (.notPrivateKey kid pem)

/-! ### Writing -/

/-- The public half. -/
def publicKey (p : KeyPair) : Rsa.PublicKey :=
  ⟨p.modulus, p.publicExponent⟩

/-- The private half with its shortcuts, unless one of them does not exist. -/
def privateKey? (p : KeyPair) : Option Rsa.PrivateKey := do
  let coefficient ← Rsa.inverse? p.prime2 p.prime1
  return ⟨p.modulus, p.publicExponent, p.privateExponent, p.prime1, p.prime2,
    p.privateExponent % (p.prime1 - 1), p.privateExponent % (p.prime2 - 1), coefficient⟩

/-- The failure to write a private half that lacks one of its shortcuts. -/
def encodingFailure : KeyFailure :=
  .internal "encoding private key: PKCS#8 cryptographic key data malformed"

/-- The private half as text. -/
def privatePem (p : KeyPair) : Except KeyFailure String :=
  match p.privateKey? with
  | some k => .ok (Pem.Block.encode ⟨privateLabel, Der.encodePrivateKey k⟩)
  | none => .error encodingFailure

/-- The public half as text. -/
def publicPem (p : KeyPair) : String :=
  Pem.Block.encode ⟨publicLabel, Der.encodePublicKeyInfo p.publicKey⟩

/-- What may be shown of a pair for debugging. -/
def describe (_ : KeyPair) : String :=
  "KeyPair \x7b private: \"<redacted>\" \x7d"

end KeyPair

end BearerAuth
