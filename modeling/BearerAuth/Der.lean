import BearerAuth.Rsa

/-!
# Distinguished encoding

The strict binary encoding of keys: every element is a tag, the shortest spelling of its length,
and its content.  Integers are spelled with as few bytes as possible and are not negative here.

A writer stands beside every reader.
-/

namespace BearerAuth.Der

/-- The tags that keys use. -/
abbrev integerTag : UInt8 := 0x02
abbrev bitStringTag : UInt8 := 0x03
abbrev octetStringTag : UInt8 := 0x04
abbrev sequenceTag : UInt8 := 0x30

/-! ### Writing -/

/-- A length as it is written. -/
def encodeLength (n : Nat) : Bytes :=
  if n < 0x80 then [UInt8.ofNat n]
  else
    let digits := Bytes.ofNat n
    UInt8.ofNat (0x80 + digits.length) :: digits

/-- An element with the given tag and content. -/
def element (tag : UInt8) (content : Bytes) : Bytes :=
  tag :: encodeLength content.length ++ content

/-- The content of an integer: a zero byte stands in front of a first byte of 128 or more. -/
def integerContent (n : Nat) : Bytes :=
  match Bytes.ofNat n with
  | [] => [0]
  | x :: rest => if x < 0x80 then x :: rest else 0 :: x :: rest

/-- An integer. -/
def integer (n : Nat) : Bytes :=
  element integerTag (integerContent n)

/-- A sequence of elements that are written already. -/
def sequence (elements : List Bytes) : Bytes :=
  element sequenceTag elements.flatten

/-! ### Reading -/

/-- Takes the given number of bytes from the front. -/
def split? (n : Nat) (input : Bytes) : Option (Bytes × Bytes) :=
  if n ≤ input.length then some (input.take n, input.drop n) else none

/-- Reads a length.  Only its shortest spelling counts, and it takes four bytes at most. -/
def readLength : Bytes → Option (Nat × Bytes)
  | [] => none
  | x :: rest =>
      if x < 0x80 then some (x.toNat, rest)
      else if 0x81 ≤ x ∧ x ≤ 0x84 then do
        let (digits, rest) ← split? (x.toNat - 0x80) rest
        let n := digits.toNat
        guard (0x80 ≤ n ∧ n < 0x10000000 ∧ Bytes.ofNat n = digits)
        return (n, rest)
      else none

/-- Reads an element with the given tag: its content, and what follows it. -/
def readElement (tag : UInt8) : Bytes → Option (Bytes × Bytes)
  | [] => none
  | t :: rest => do
      guard (t = tag)
      let (n, rest) ← readLength rest
      split? n rest

/-- Reads the content of an integer. -/
def integerOfContent? : Bytes → Option Nat
  | [] => none
  | [x] => if x < 0x80 then some x.toNat else none
  | x :: y :: rest =>
      if 0x80 ≤ x then none
      else if x = 0 ∧ y < 0x80 then none
      else some (Bytes.toNat (x :: y :: rest))

/-- Reads an integer. -/
def readInteger (input : Bytes) : Option (Nat × Bytes) := do
  let (content, rest) ← readElement integerTag input
  return (← integerOfContent? content, rest)

/-- Reads as many integers as there are bytes for, and nothing else. -/
def readIntegers : Nat → Bytes → Option (List Nat)
  | 0, input => if input.isEmpty then some [] else none
  | count + 1, input => do
      let (n, rest) ← readInteger input
      return n :: (← readIntegers count rest)

/-- Reads a whole input as one element with the given tag. -/
def readOnly (tag : UInt8) (input : Bytes) : Option Bytes := do
  let (content, rest) ← readElement tag input
  guard rest.isEmpty
  return content

/-! ### Keys -/

/-- What says that a key is one of RSA: the identifier of the algorithm and a null parameter. -/
def rsaAlgorithm : Bytes :=
  [0x30, 0x0d, 0x06, 0x09, 0x2a, 0x86, 0x48, 0x86, 0xf7, 0x0d, 0x01, 0x01, 0x01, 0x05, 0x00]

/-- A public key: its modulus and its exponent. -/
def encodePublicKey (k : Rsa.PublicKey) : Bytes :=
  sequence [integer k.modulus, integer k.exponent]

/-- A public key together with its algorithm. -/
def encodePublicKeyInfo (k : Rsa.PublicKey) : Bytes :=
  sequence [rsaAlgorithm, element bitStringTag (0 :: encodePublicKey k)]

/-- A private key: version zero and its numbers. -/
def encodePrivateKey (k : Rsa.PrivateKey) : Bytes :=
  sequence <| [0, k.modulus, k.publicExponent, k.privateExponent, k.prime1, k.prime2, k.exponent1,
    k.exponent2, k.coefficient].map integer

/-- Reads a public key. -/
def readPublicKey (input : Bytes) : Option Rsa.PublicKey := do
  let content ← readOnly sequenceTag input
  match ← readIntegers 2 content with
  | [n, e] => return ⟨n, e⟩
  | _ => none

/-- Reads a private key of version zero. -/
def readPrivateKey (input : Bytes) : Option Rsa.PrivateKey := do
  let content ← readOnly sequenceTag input
  match ← readIntegers 9 content with
  | [0, n, e, d, p, q, dp, dq, qi] => return ⟨n, e, d, p, q, dp, dq, qi⟩
  | _ => none

/-- Reads elements with tags of their own, each around exactly one element, up to the end. -/
def readExtensions : Nat → Bytes → Option Unit
  | _, [] => some ()
  | 0, _ => none
  | fuel + 1, tag :: rest => do
      guard (0xA0 ≤ tag ∧ tag < 0xBF)
      let (n, rest) ← readLength rest
      let (content, rest) ← split? n rest
      match content with
      | [] => none
      | inner :: content => do
          guard (inner.toNat % 0x20 ≠ 0x1F)
          let (m, content) ← readLength content
          guard (content.length = m)
          readExtensions fuel rest

/-- Skips the attributes that may follow a private key. -/
def skipAttributes (input : Bytes) : Option Bytes :=
  match input with
  | [] => some []
  | tag :: _ =>
      if tag = 0xA0 ∨ tag = 0x80 then (readElement tag input).map (·.2) else some input

/-- Reads a private key together with its algorithm.  Version zero is the key alone; version one
has a public key behind it, which nobody looks at. -/
def readPrivateKeyInfo (input : Bytes) : Option Rsa.PrivateKey := do
  let content ← readOnly sequenceTag input
  let (version, rest) ← readInteger content
  guard (version ≤ 1)
  let (algorithm, rest) ← split? rsaAlgorithm.length rest
  guard (algorithm = rsaAlgorithm)
  let (key, rest) ← readElement octetStringTag rest
  let rest ← skipAttributes rest
  let rest ←
    if version = 1 then do
      let (bits, rest) ← readElement 0x81 rest
      guard (bits.head? = some 0)
      pure rest
    else do
      guard (rest.head? ≠ some 0x81 ∧ rest.head? ≠ some 0xA1)
      pure rest
  readExtensions rest.length rest
  readPrivateKey key

end BearerAuth.Der
