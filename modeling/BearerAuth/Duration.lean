import BearerAuth.Decimal

/-!
# Durations

Whole seconds, of which there are fewer than `2 ^ 64`, and nanoseconds below a full second.
-/

namespace BearerAuth

/-- The number of nanoseconds in a second. -/
abbrev nanosPerSecond : Nat := 1000000000

/-- The number of values of a 64-bit word. -/
abbrev wordSize : Nat := 0x10000000000000000

/-- A span of time. -/
structure Duration where
  seconds : Nat
  nanos : Nat
  seconds_lt : seconds < wordSize
  nanos_lt : nanos < nanosPerSecond
deriving DecidableEq, Repr

namespace Duration

/-- No time at all. -/
def zero : Duration := ⟨0, 0, by decide, by decide⟩

instance : Inhabited Duration := ⟨zero⟩

/-- The span of some seconds and nanoseconds, unless it is too long.  Nanoseconds beyond a second
are carried over. -/
def ofParts? (seconds nanos : Nat) : Option Duration :=
  let total := seconds + nanos / nanosPerSecond
  if h : total < wordSize then
    some ⟨total, nanos % nanosPerSecond, h, Nat.mod_lt _ (by decide)⟩
  else none

/-- The whole seconds, as a word. -/
def wholeSeconds (d : Duration) : UInt64 :=
  UInt64.ofNat d.seconds

/-! ### The short form

The form used when values are shown for debugging: the largest unit of seconds, milliseconds,
microseconds and nanoseconds in which the number is not below one, with the fraction behind a
decimal point, without trailing zeros. -/

/-- The last `width` digits of a number, leading zeros included. -/
def paddedDigits (width n : Nat) : List Nat :=
  let ds := Decimal.digits n
  List.replicate (width - ds.length) 0 ++ ds

/-- Drops the zeros from the end. -/
def dropTrailingZeros (ds : List Nat) : List Nat :=
  (ds.reverse.dropWhile (· = 0)).reverse

/-- A number with `width` digits of fraction, without trailing zeros. -/
def withFraction (whole width fraction : Nat) : String :=
  let ds := dropTrailingZeros (paddedDigits width fraction)
  Decimal.ofNat whole ++
    if ds.isEmpty || fraction = 0 then "" else "." ++ String.ofList (ds.map Decimal.digitChar)

/-- The short form of a duration. -/
def brief (d : Duration) : String :=
  if 0 < d.seconds then withFraction d.seconds 9 d.nanos ++ "s"
  else if 1000000 ≤ d.nanos then withFraction (d.nanos / 1000000) 6 (d.nanos % 1000000) ++ "ms"
  else if 1000 ≤ d.nanos then withFraction (d.nanos / 1000) 3 (d.nanos % 1000) ++ "µs"
  else Decimal.ofNat d.nanos ++ "ns"

end Duration

end BearerAuth
