import BearerAuth.Binary64
import BearerAuth.Decimal
import BearerAuth.Json.Value

/-!
# What a written number denotes

A number without fraction and exponent that fits into 64 bits denotes an integer.  Any other number
denotes a floating-point number: the digits that fit into an unsigned word make its significand, the
others only move its exponent.  A number that is too large for a float denotes nothing.
-/

namespace BearerAuth.Json

/-- What a number denotes. -/
inductive Numeral where
  /-- An integer from zero to `2 ^ 64 - 1`. -/
  | natural (n : Nat)
  /-- An integer from `-2 ^ 63` to `-1`, given by its magnitude. -/
  | negative (magnitude : Nat)
  | float (isNegative : Bool) (magnitude : Binary64)
  | outOfRange
deriving DecidableEq, Repr

namespace Number

/-- The first number past the words of 64 bits. -/
abbrev wordLimit : Nat := 0x10000000000000000

/-- The largest exponent that is counted; what goes beyond it has no bound at all. -/
abbrev exponentLimit : Nat := 0x7FFFFFFF

/-- Takes digits into a significand for as long as it fits into a word, and yields it with the
digits left over. -/
def absorb : Nat → List Nat → Nat × List Nat
  | n, [] => (n, [])
  | n, d :: ds => if n * 10 + d < wordLimit then absorb (n * 10 + d) ds else (n, d :: ds)

/-- The value of the digits of an exponent, unless they exceed the limit. -/
def exponentValue? (ds : List Nat) : Option Nat :=
  let n := Decimal.ofDigits ds
  if n ≤ exponentLimit then some n else none

/-- An exponent kept within the limits of 32-bit words. -/
def clamp (e : Int) : Int :=
  max (-(exponentLimit : Int) - 1) (min exponentLimit e)

/-- What a number denotes. -/
def numeral (x : Number) : Numeral :=
  let (n, overflow) := absorb 0 x.whole
  let asFloat (significand : Nat) (exponent : Int) : Numeral :=
    match Binary64.ofDecimal? significand exponent with
    | some m => .float x.negative m
    | none => .outOfRange
  if overflow.isEmpty ∧ x.fraction.isEmpty ∧ x.exponent.isNone then
    if ¬ x.negative then .natural n
    else if 0 < n ∧ n ≤ 0x8000000000000000 then .negative n
    else asFloat n 0
  else
    let (significand, dropped) := absorb n x.fraction
    let exponent : Int := overflow.length - (x.fraction.length - dropped.length : Nat)
    match x.exponent with
    | none => asFloat significand exponent
    | some (negative, ds) =>
        match exponentValue? ds with
        | some e => asFloat significand (clamp (if negative then exponent - e else exponent + e))
        | none =>
            if significand ≠ 0 ∧ ¬ negative then .outOfRange else .float x.negative ⟨0, 0⟩

end Number

end BearerAuth.Json
