import BearerAuth.Decimal

/-!
# Binary64 magnitudes

Magnitudes of binary floating-point numbers with 53 bits of precision, held exactly as
`mantissa * 2 ^ exponent`, and the operations that reading a decimal number takes: rounding a
quotient to the nearest such number, ties to the even one, and multiplying and dividing by powers
of ten that are rounded themselves.
-/

namespace BearerAuth

/-- A finite magnitude, `mantissa * 2 ^ exponent`. -/
structure Binary64 where
  mantissa : Nat
  exponent : Int
deriving DecidableEq, Repr

namespace Binary64

/-- The magnitude as a quotient of natural numbers. -/
def quotient (x : Binary64) : Nat × Nat :=
  match x.exponent with
  | .ofNat e => (x.mantissa <<< e, 1)
  | .negSucc e => (x.mantissa, 1 <<< (e + 1))

/-- The quotient of `num` by `den * 2 ^ k`, as a pair. -/
def shiftDown (num den : Nat) : Int → Nat × Nat
  | .ofNat k => (num, den <<< k)
  | .negSucc k => (num <<< (k + 1), den)

/-- The natural number nearest to a quotient, the even one of two. -/
def nearest (num den : Nat) : Nat :=
  let q := num / den
  let r := num % den
  if 2 * r < den then q
  else if den < 2 * r then q + 1
  else if q % 2 = 0 then q else q + 1

/-- The magnitude nearest to `num / den`, unless it is too large.  The exponent is chosen so that
the mantissa has 53 bits, or fewer next to zero. -/
def ofQuotient? (num den : Nat) : Option Binary64 :=
  if num = 0 then some ⟨0, 0⟩
  else
    let guess : Int := max ((num.log2 : Int) - den.log2 - 53) (-1074)
    let (n, d) := shiftDown num den guess
    let exponent := if 0x20000000000000 ≤ n / d then guess + 1 else guess
    let (n, d) := shiftDown num den exponent
    let mantissa := nearest n d
    if 1024 ≤ (mantissa.log2 : Int) + exponent then none else some ⟨mantissa, exponent⟩

/-- The magnitude nearest to a power of ten. -/
def tenTo? (k : Nat) : Option Binary64 :=
  ofQuotient? (Decimal.tenTo k) 1

/-- The rounded product, unless it is too large. -/
def mul? (x y : Binary64) : Option Binary64 :=
  let (a, b) := x.quotient
  let (c, d) := y.quotient
  ofQuotient? (a * c) (b * d)

/-- The rounded quotient, unless it is too large. -/
def div? (x y : Binary64) : Option Binary64 :=
  let (a, b) := x.quotient
  let (c, d) := y.quotient
  ofQuotient? (a * d) (b * c)

/-- Divides by `10 ^ 308` until the exponent of ten that is left is in the table of powers, then
by the power.  Zero stops early, so a bound on the rounds that exceeds the exponents of any finite
magnitude loses nothing. -/
def divTenTo? : Nat → Binary64 → Nat → Option Binary64
  | 0, x, _ => some x
  | fuel + 1, x, k =>
      if k ≤ 308 then (tenTo? k).bind x.div?
      else if x.mantissa = 0 then some x
      else do
        let x ← (tenTo? 308).bind x.div?
        divTenTo? fuel x (k - 308)

/-- The magnitude of `significand * 10 ^ exponent`, unless it is too large: the significand is
rounded first, then multiplied or divided by a rounded power of ten. -/
def ofDecimal? (significand : Nat) (exponent : Int) : Option Binary64 := do
  let x ← ofQuotient? significand 1
  match exponent with
  | .ofNat k =>
      if k ≤ 308 then (tenTo? k).bind x.mul?
      else if x.mantissa = 0 then some x
      else none
  | .negSucc k => divTenTo? 4 x (k + 1)

/-- The nearest natural number, a half going up. -/
def rounded (x : Binary64) : Nat :=
  let (a, b) := x.quotient
  (2 * a + b) / (2 * b)

/-- The magnitude is less than a natural number. -/
def ltNat (x : Binary64) (n : Nat) : Bool :=
  let (a, b) := x.quotient
  a < n * b

end Binary64

end BearerAuth
