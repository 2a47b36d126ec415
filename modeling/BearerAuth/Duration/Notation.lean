import BearerAuth.Duration
import BearerAuth.Text.Blank

/-!
# Durations for people

The notation in which configurations give durations, such as `1h 30m` or `1.5s`: numbers with
units, added up.  The writer uses each unit at most once, largest first; the reader takes more
spellings, white space around numbers and units, and a decimal fraction that the unit can express
exactly.

Every intermediate number must fit into 64 bits, so the reader refuses some texts whose sum would
fit.
-/

namespace BearerAuth.Duration

/-- A unit of time. -/
inductive Span where
  | nanosecond
  | microsecond
  | millisecond
  | second
  | minute
  | hour
  | day
  | week
  | month
  | year
deriving DecidableEq, Repr

namespace Span

/-- The number of seconds in a unit of at least a second; zero for the smaller ones. -/
def seconds : Span → Nat
  | nanosecond | microsecond | millisecond => 0
  | second => 1
  | minute => 60
  | hour => 3600
  | day => 86400
  | week => 604800
  | month => 2630016
  | year => 31557600

/-- The number of nanoseconds in a unit below a second; zero for the larger ones. -/
def nanos : Span → Nat
  | nanosecond => 1
  | microsecond => 1000
  | millisecond => 1000000
  | _ => 0

/-- The spellings of a unit. -/
def spellings : Span → List String
  | nanosecond => ["nanos", "nsec", "ns"]
  | microsecond => ["usec", "us", "µs"]
  | millisecond => ["millis", "msec", "ms"]
  | second => ["seconds", "second", "secs", "sec", "s"]
  | minute => ["minutes", "minute", "min", "mins", "m"]
  | hour => ["hours", "hour", "hrs", "hr", "h"]
  | day => ["days", "day", "d"]
  | week => ["weeks", "week", "wks", "wk", "w"]
  | month => ["months", "month", "M"]
  | year => ["years", "year", "yrs", "yr", "y"]

/-- All units. -/
def all : List Span :=
  [nanosecond, microsecond, millisecond, second, minute, hour, day, week, month, year]

/-- The unit with a spelling. -/
def ofName? (name : List Char) : Option Span :=
  all.find? fun u => u.spellings.any (·.toList = name)

end Span

/-! ### Writing -/

/-- A count and its unit, or nothing if the count is zero. -/
def item (count : Nat) (unit : String) : List String :=
  if count = 0 then [] else [Decimal.ofNat count ++ unit]

/-- A count and its unit in singular or plural, or nothing if the count is zero. -/
def itemPlural (count : Nat) (unit : String) : List String :=
  item count (if count = 1 then unit else unit ++ "s")

/-- A duration in the notation for people. -/
def toNotation (d : Duration) : String :=
  let inYear := d.seconds % 31557600
  let inMonth := inYear % 2630016
  let inDay := inMonth % 86400
  let items :=
    itemPlural (d.seconds / 31557600) "year" ++ itemPlural (inYear / 2630016) "month" ++
      itemPlural (inMonth / 86400) "day" ++ item (inDay / 3600) "h" ++
      item (inDay % 3600 / 60) "m" ++ item (inDay % 60) "s" ++ item (d.nanos / 1000000) "ms" ++
      item (d.nanos / 1000 % 1000) "us" ++ item (d.nanos % 1000) "ns"
  if items.isEmpty then "0s" else " ".intercalate items

/-! ### Reading -/

/-- A number, if it fits into 64 bits. -/
def word? (n : Nat) : Option Nat :=
  if n < wordSize then some n else none

/-- A letter of a unit. -/
def isUnitLetter (c : Char) : Bool :=
  ('a' ≤ c && c ≤ 'z') || ('A' ≤ c && c ≤ 'Z') || c = 'µ'

/-- A decimal digit. -/
def isDigit (c : Char) : Bool :=
  '0' ≤ c && c ≤ '9'

/-- The value of a decimal digit. -/
def digitValue (c : Char) : Nat :=
  c.toNat - 48

/-- A decimal fraction below one: `numerator / denominator`, where the denominator is a power of
ten. -/
structure Fraction where
  numerator : Nat
  denominator : Nat

/-- Reads on in a number of which `n` is known, through digits and white space, and yields the
number and the rest, which starts with the character that ended it. -/
def readNumber (n : Nat) : List Char → Option (Nat × List Char)
  | [] => some (n, [])
  | c :: rest =>
      if isDigit c then (word? (n * 10 + digitValue c)).bind (readNumber · rest)
      else if Text.isBlank c then readNumber n rest
      else some (n, c :: rest)

/-- Reads on in a fraction, through digits and white space up to the first letter of a unit. -/
def readFraction (f : Fraction) : List Char → Option (Fraction × List Char)
  | [] => if f.denominator = 1 then none else some (f, [])
  | c :: rest =>
      if isDigit c then do
        let numerator ← word? (f.numerator * 10 + digitValue c)
        let denominator ← word? (f.denominator * 10)
        readFraction ⟨numerator, denominator⟩ rest
      else if Text.isBlank c then readFraction f rest
      else if isUnitLetter c ∧ f.denominator ≠ 1 then some (f, c :: rest)
      else none

/-- Adds seconds and nanoseconds to a duration. -/
def plus? (d : Duration) (seconds nanos : Nat) : Option Duration := do
  let nanos ← word? (d.nanos + nanos)
  ofParts? (d.seconds + seconds) nanos

/-- A quotient, if it is a whole number. -/
def exactQuotient? (n d : Nat) : Option Nat :=
  if n % d = 0 then some (n / d) else none

/-- Adds a count of a unit to a duration. -/
def plusWhole? (d : Duration) (count : Nat) (u : Span) : Option Duration := do
  let seconds ← word? (count * u.seconds)
  let nanos ← word? (count * u.nanos)
  d.plus? seconds nanos

/-- Adds a fraction of a unit to a duration.  A fraction of an hour or of more must be a whole
number of seconds, one of less a whole number of nanoseconds; nanoseconds have no fractions. -/
def plusFraction? (d : Duration) (f : Fraction) (u : Span) : Option Duration := do
  guard (u ≠ .nanosecond)
  let inNanos := u.nanos ≠ 0 ∨ u = .second ∨ u = .minute
  let parts := if inNanos then u.nanos + u.seconds * nanosPerSecond else u.seconds
  let amount ← exactQuotient? (← word? (f.numerator * parts)) f.denominator
  if inNanos then d.plus? 0 amount else d.plus? amount 0

/-- Reads numbers with units from the front of a text and adds them to `d`.  Each round consumes a
digit, so `fuel` bounds the rounds. -/
def readSpans : Nat → Duration → List Char → Option Duration
  | 0, _, _ => none
  | fuel + 1, d, cs =>
      match cs.dropWhile Text.isBlank with
      | [] => some d
      | c :: rest => do
          guard (isDigit c)
          let (count, rest) ← readNumber (digitValue c) rest
          let (fraction?, rest) ←
            if rest.head? = some '.' then do
              let (f, rest) ← readFraction ⟨0, 1⟩ rest.tail
              pure (some f, rest)
            else pure (none, rest)
          let u ← Span.ofName? (rest.takeWhile isUnitLetter)
          let rest := rest.dropWhile isUnitLetter
          guard ((rest.head?.map fun c => isDigit c || Text.isBlank c).getD true)
          let d ← d.plusWhole? count u
          let d ←
            match fraction? with
            | some f => d.plusFraction? f u
            | none => pure d
          readSpans fuel d rest

/-- Reads a duration in the notation for people. -/
def ofNotation? (s : String) : Option Duration :=
  let cs := s.toList
  if s = "0" then some zero
  else if cs.all Text.isBlank then none
  else readSpans (cs.length + 1) zero cs

end BearerAuth.Duration
