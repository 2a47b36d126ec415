import BearerAuth.Binary64

/-!
# The shortest decimal of a magnitude

A magnitude is written with the fewest digits that still round to it, and of those with the digits
nearest to it.  Which decimals round to it is decided exactly: they lie between the middles of the
way to its two neighbours, the middles included if its mantissa is even.
-/

namespace BearerAuth

namespace Binary64

/-- A decimal number, `significand * 10 ^ exponent`. -/
structure Scientific where
  significand : Nat
  exponent : Int
deriving DecidableEq, Repr

/-- The same magnitude with a mantissa of at most 53 bits. -/
def normal (x : Binary64) : Binary64 :=
  if x.mantissa = 0x20000000000000 then ⟨0x10000000000000, x.exponent + 1⟩ else x

/-- A range of numbers with a common denominator, and a number in it. -/
structure Interval where
  low : Nat
  middle : Nat
  high : Nat
  denominator : Nat
  /-- The ends belong to the range. -/
  closed : Bool

/-- The numbers that round to a magnitude.  The way down is half as long where the mantissa is the
least one of its binade. -/
def roundingInterval (x : Binary64) : Interval :=
  let x := x.normal
  let below := if x.mantissa = 0x10000000000000 ∧ -1074 < x.exponent then 1 else 2
  let (scale, denominator) := quotient ⟨1, x.exponent - 2⟩
  { low := (4 * x.mantissa - below) * scale, middle := 4 * x.mantissa * scale,
    high := (4 * x.mantissa + 2) * scale, denominator, closed := x.mantissa % 2 = 0 }

namespace Interval

/-- The range holds a decimal number. -/
def holds (i : Interval) (s : Scientific) : Bool :=
  let (num, den) := match s.exponent with
    | .ofNat e => (s.significand * Decimal.tenTo e, 1)
    | .negSucc e => (s.significand, Decimal.tenTo (e + 1))
  let n := num * i.denominator
  if i.closed then i.low * den ≤ n && n ≤ i.high * den else i.low * den < n && n < i.high * den

/-- The middle of the range by a power of ten, as a quotient. -/
def middleOver (i : Interval) : Int → Nat × Nat
  | .ofNat e => (i.middle, i.denominator * Decimal.tenTo e)
  | .negSucc e => (i.middle * Decimal.tenTo (e + 1), i.denominator)

/-- The multiple of a power of ten that the range holds, the nearer one to its middle of two, and
the even one at the same distance. -/
def gridPoint? (i : Interval) (exponent : Int) : Option Scientific :=
  let (num, den) := i.middleOver exponent
  let below : Scientific := ⟨num / den, exponent⟩
  let above : Scientific := ⟨num / den + 1, exponent⟩
  let nearer := if nearest num den = num / den then below else above
  let farther := if nearest num den = num / den then above else below
  if i.holds nearer then some nearer else if i.holds farther then some farther else none

/-- The first power of ten, from a coarse one downwards, of which the range holds a multiple. -/
def coarsest? (i : Interval) : Nat → Int → Option Scientific
  | 0, _ => none
  | steps + 1, exponent =>
      match i.gridPoint? exponent with
      | some s => some s
      | none => coarsest? i steps (exponent - 1)

end Interval

/-- The shortest decimal that rounds to a magnitude other than zero.  The search starts above the
magnitude, where no grid is too coarse, and needs no more than 17 digits below it. -/
def shortest (x : Binary64) : Scientific :=
  let start : Int := ((x.mantissa.log2 : Int) + x.exponent) * 30103 / 100000 + 2
  (x.roundingInterval.coarsest? 24 start).getD ⟨0, 0⟩

/-- Digits with a point behind the given number of them, and an exponent where it would stand far
away from them. -/
def Scientific.toText (s : Scientific) : String :=
  let digits := (Decimal.digits s.significand).map Decimal.digitChar
  let length : Int := digits.length
  let point := length + s.exponent
  let zeros (n : Int) : List Char := List.replicate n.toNat '0'
  if 0 ≤ s.exponent ∧ point ≤ 16 then
    String.ofList (digits ++ zeros s.exponent ++ ['.', '0'])
  else if 0 < point ∧ point ≤ 16 then
    String.ofList (digits.take point.toNat ++ '.' :: digits.drop point.toNat)
  else if -5 < point ∧ point ≤ 0 then
    String.ofList (['0', '.'] ++ zeros (-point) ++ digits)
  else
    let tail := if digits.length = 1 then [] else '.' :: digits.drop 1
    String.ofList (digits.take 1 ++ tail) ++ "e" ++ Decimal.ofInt (point - 1)

/-- A magnitude in decimal, with a point or an exponent even if it is whole. -/
def toText (x : Binary64) : String :=
  if x.mantissa = 0 then "0.0" else x.shortest.toText

end Binary64

end BearerAuth
