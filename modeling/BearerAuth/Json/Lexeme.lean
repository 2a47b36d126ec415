import BearerAuth.Bytes
import BearerAuth.Json.Value

/-!
# The lexemes of JSON

Numbers, words and strings, read from the front of a byte string.  A reading that fails says where
it stopped: `Except.error rest` holds the bytes that were not looked at, because a tolerant reader
goes on from there.

Strings have two readings.  `scanString` checks only the grammar (no control characters, known
escape letters, four digits after `\u`) and keeps the bytes as they are; `readString` also
resolves the escapes, pairs surrogates and requires valid UTF-8.
-/

namespace BearerAuth.Json

/-- The white space of JSON: space, tab, line feed and carriage return. -/
def isBlank (b : UInt8) : Bool :=
  b = ascii ' ' || b = ascii '\t' || b = ascii '\n' || b = ascii '\r'

/-- Drops white space from the front. -/
def skipBlank (input : Bytes) : Bytes :=
  input.dropWhile isBlank

/-! ### Numbers -/

/-- A decimal digit. -/
def isDigit (b : UInt8) : Bool :=
  ascii '0' ≤ b && b ≤ ascii '9'

/-- The value of a decimal digit. -/
def digitValue (b : UInt8) : Nat :=
  b.toNat - 48

/-- The digits at the front, and the rest. -/
def takeDigits (input : Bytes) : List Nat × Bytes :=
  ((input.takeWhile isDigit).map digitValue, input.dropWhile isDigit)

/-- The whole part of a number: a zero that no digit follows, or digits that do not start with
zero. -/
def scanWhole : Bytes → Except Bytes (List Nat × Bytes)
  | [] => .error []
  | b :: rest =>
      if b = ascii '0' then
        if (rest.head?.map isDigit).getD false then .error rest else .ok ([0], rest)
      else if isDigit b then
        let (ds, rest) := takeDigits rest
        .ok (digitValue b :: ds, rest)
      else .error rest

/-- The fraction of a number, with its decimal point; it may be absent but not empty. -/
def scanFraction : Bytes → Except Bytes (List Nat × Bytes)
  | [] => .ok ([], [])
  | b :: rest =>
      if b = ascii '.' then
        let (ds, after) := takeDigits rest
        if ds.isEmpty then .error rest else .ok (ds, after)
      else .ok ([], b :: rest)

/-- The sign of an exponent: whether it is a minus, and the rest. -/
def scanSign : Bytes → Bool × Bytes
  | [] => (false, [])
  | b :: rest =>
      if b = ascii '-' then (true, rest)
      else if b = ascii '+' then (false, rest)
      else (false, b :: rest)

/-- The exponent of a number, with its letter; it may be absent but not empty. -/
def scanExponent : Bytes → Except Bytes (Option (Bool × List Nat) × Bytes)
  | [] => .ok (none, [])
  | b :: rest =>
      if b = ascii 'e' ∨ b = ascii 'E' then
        let (negative, rest) := scanSign rest
        match rest with
        | [] => .error []
        | d :: rest =>
            if isDigit d then
              let (ds, rest) := takeDigits rest
              .ok (some (negative, digitValue d :: ds), rest)
            else .error rest
      else .ok (none, b :: rest)

/-- A number. -/
def scanNumber (input : Bytes) : Except Bytes (Number × Bytes) := do
  let negative := input.head? = some (ascii '-')
  let (whole, rest) ← scanWhole (if negative then input.tail else input)
  let (fraction, rest) ← scanFraction rest
  let (exponent, rest) ← scanExponent rest
  return (⟨negative, whole, fraction, exponent⟩, rest)

/-! ### Words -/

/-- The rest of a word whose letters are expected one after the other.  A wrong letter is
consumed. -/
def scanWord : Bytes → Bytes → Except Bytes Bytes
  | [], input => .ok input
  | _ :: _, [] => .error []
  | w :: ws, b :: rest => if b = w then scanWord ws rest else .error rest

/-! ### Strings -/

/-- The value of a hexadecimal digit in either case. -/
def hexValue? (b : UInt8) : Option Nat :=
  if ascii '0' ≤ b ∧ b ≤ ascii '9' then some (b.toNat - 48)
  else if ascii 'a' ≤ b ∧ b ≤ ascii 'f' then some (b.toNat - 87)
  else if ascii 'A' ≤ b ∧ b ≤ ascii 'F' then some (b.toNat - 55)
  else none

/-- The value of four hexadecimal digits. -/
def hexQuad? (a b c d : UInt8) : Option Nat := do
  return (((← hexValue? a) * 16 + (← hexValue? b)) * 16 + (← hexValue? c)) * 16 + (← hexValue? d)

/-- The byte that a one-letter escape stands for. -/
def escapedByte? (b : UInt8) : Option UInt8 :=
  if b = ascii '"' ∨ b = ascii '\\' ∨ b = ascii '/' then some b
  else if b = ascii 'b' then some 8
  else if b = ascii 'f' then some 12
  else if b = ascii 'n' then some 10
  else if b = ascii 'r' then some 13
  else if b = ascii 't' then some 9
  else none

/-- The bytes of a string up to its closing quote, and what follows the quote; `acc` holds the
bytes before, in reverse. -/
def scanString : Bytes → Bytes → Option (Bytes × Bytes)
  | [], _ => none
  | b :: rest, acc =>
      if b = ascii '"' then some (acc.reverse, rest)
      else if b = ascii '\\' then
        match rest with
        | [] => none
        | e :: rest =>
            if e = ascii 'u' then
              match rest with
              | h₁ :: h₂ :: h₃ :: h₄ :: rest =>
                  if (hexQuad? h₁ h₂ h₃ h₄).isSome then
                    scanString rest (h₄ :: h₃ :: h₂ :: h₁ :: e :: b :: acc)
                  else none
              | _ => none
            else if (escapedByte? e).isSome then scanString rest (e :: b :: acc)
            else none
      else if b < 32 then none
      else scanString rest (b :: acc)

/-- A unit of UTF-16 that must be followed by a second one. -/
def isLeadingSurrogate (n : Nat) : Bool :=
  0xD800 ≤ n && n ≤ 0xDBFF

/-- A unit of UTF-16 that must follow a first one. -/
def isTrailingSurrogate (n : Nat) : Bool :=
  0xDC00 ≤ n && n ≤ 0xDFFF

/-- The character that a pair of surrogates stands for. -/
def joinSurrogates (lead trail : Nat) : Char :=
  Char.ofNat (0x10000 + (lead - 0xD800) * 0x400 + (trail - 0xDC00))

/-- The bytes that a string stands for, up to its closing quote, and what follows the quote; `acc`
holds the bytes before, in reverse. -/
def resolveString : Bytes → Bytes → Except Bytes (Bytes × Bytes)
  | [], _ => .error []
  | b :: rest, acc =>
      if b = ascii '"' then .ok (acc.reverse, rest)
      else if b = ascii '\\' then
        match rest with
        | [] => .error []
        | e :: rest =>
            if e = ascii 'u' then
              match rest with
              | h₁ :: h₂ :: h₃ :: h₄ :: rest =>
                  match hexQuad? h₁ h₂ h₃ h₄ with
                  | none => .error rest
                  | some n =>
                      if isTrailingSurrogate n then .error rest
                      else if isLeadingSurrogate n then
                        match rest with
                        | [] => .error []
                        | c :: rest =>
                            if c ≠ ascii '\\' then .error rest
                            else
                              match rest with
                              | [] => .error []
                              | d :: rest =>
                                  if d ≠ ascii 'u' then .error rest
                                  else
                                    match rest with
                                    | k₁ :: k₂ :: k₃ :: k₄ :: rest =>
                                        match hexQuad? k₁ k₂ k₃ k₄ with
                                        | none => .error rest
                                        | some m =>
                                            if isTrailingSurrogate m then
                                              resolveString rest
                                                ((String.utf8EncodeChar
                                                  (joinSurrogates n m)).reverse ++ acc)
                                            else .error rest
                                    | _ => .error []
                      else
                        resolveString rest
                          ((String.utf8EncodeChar (Char.ofNat n)).reverse ++ acc)
              | _ => .error []
            else
              match escapedByte? e with
              | some x => resolveString rest (x :: acc)
              | none => .error rest
      else if b < 32 then .error rest
      else resolveString rest (b :: acc)

/-- The text of a string up to its closing quote, and what follows the quote. -/
def readString (input : Bytes) : Except Bytes (String × Bytes) := do
  let (bytes, rest) ← resolveString input []
  match bytes.text? with
  | some s => .ok (s, rest)
  | none => .error rest

/-- The text of a string, given the bytes between its quotes. -/
def textOf? (raw : Bytes) : Option String :=
  match readString (raw ++ [ascii '"']) with
  | .ok (s, _) => some s
  | .error _ => none

end BearerAuth.Json
