import BearerAuth.Bytes

/-!
# Base64

The two alphabets of base64 and their strict readings.  A reading refuses every text that the
writer cannot have produced: unknown characters, a last group of one character, unused bits that
are not zero, and padding that is missing or superfluous.

Token segments use `Alphabet.urlSafe` without padding, key files use `Alphabet.standard` with it.
-/

namespace BearerAuth.Base64

/-- An alphabet, given by the two symbols in which the alphabets differ. -/
structure Alphabet where
  sixtyTwo : Char
  sixtyThree : Char

/-- The alphabet of key files. -/
def Alphabet.standard : Alphabet := ⟨'+', '/'⟩

/-- The alphabet of token segments. -/
def Alphabet.urlSafe : Alphabet := ⟨'-', '_'⟩

/-- The symbol of a six-bit value. -/
def Alphabet.symbol (a : Alphabet) (n : Nat) : Char :=
  if n < 26 then Char.ofNat (65 + n)
  else if n < 52 then Char.ofNat (71 + n)
  else if n < 62 then Char.ofNat (n - 4)
  else if n = 62 then a.sixtyTwo
  else a.sixtyThree

/-- The six-bit value of a symbol. -/
def Alphabet.value? (a : Alphabet) (c : Char) : Option Nat :=
  if 'A' ≤ c ∧ c ≤ 'Z' then some (c.toNat - 65)
  else if 'a' ≤ c ∧ c ≤ 'z' then some (c.toNat - 71)
  else if '0' ≤ c ∧ c ≤ '9' then some (c.toNat + 4)
  else if c = a.sixtyTwo then some 62
  else if c = a.sixtyThree then some 63
  else none

/-- The six-bit values that spell a byte string; the last one is filled up with zero bits. -/
def sextets : Bytes → List Nat
  | [] => []
  | [x] => [x.toNat / 4, x.toNat % 4 * 16]
  | [x, y] => [x.toNat / 4, x.toNat % 4 * 16 + y.toNat / 16, y.toNat % 16 * 4]
  | x :: y :: z :: rest =>
      x.toNat / 4 :: (x.toNat % 4 * 16 + y.toNat / 16) :: (y.toNat % 16 * 4 + z.toNat / 64) ::
        z.toNat % 64 :: sextets rest

/-- Puts the bytes spelled by six-bit values in front of `acc`, which is in reverse order.
A single left-over value and left-over bits that are not zero are refused. -/
def joinSextets : List Nat → Bytes → Option Bytes
  | [], acc => some acc.reverse
  | [_], _ => none
  | [a, b], acc =>
      if b % 16 = 0 then some (UInt8.ofNat (a * 4 + b / 16) :: acc).reverse else none
  | [a, b, c], acc =>
      if c % 4 = 0 then
        some (UInt8.ofNat (b % 16 * 16 + c / 4) :: UInt8.ofNat (a * 4 + b / 16) :: acc).reverse
      else none
  | a :: b :: c :: d :: rest, acc =>
      joinSextets rest (UInt8.ofNat (c % 4 * 64 + d) :: UInt8.ofNat (b % 16 * 16 + c / 4) ::
        UInt8.ofNat (a * 4 + b / 16) :: acc)

/-- Writes bytes without padding. -/
def Alphabet.encode (a : Alphabet) (b : Bytes) : List Char :=
  (sextets b).map a.symbol

/-- Reads bytes written without padding. -/
def Alphabet.decode (a : Alphabet) (cs : List Char) : Option Bytes :=
  (cs.mapM a.value?).bind (joinSextets · [])

/-- Writes bytes, filled up with `=` to groups of four. -/
def Alphabet.encodePadded (a : Alphabet) (b : Bytes) : List Char :=
  a.encode b ++ List.replicate ((3 - b.length % 3) % 3) '='

/-- Reads bytes that are filled up with `=` to groups of four. -/
def Alphabet.decodePadded (a : Alphabet) (cs : List Char) : Option Bytes :=
  let body := cs.takeWhile (· ≠ '=')
  let padding := cs.drop body.length
  if padding.length ≤ 2 ∧ padding.all (· = '=') ∧ cs.length % 4 = 0 then a.decode body else none

end BearerAuth.Base64
