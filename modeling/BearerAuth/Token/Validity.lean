import BearerAuth.Claims.Reader
import BearerAuth.Ending
import BearerAuth.Json.Lexeme
import BearerAuth.Json.Numeral

/-!
# The time in which a token is valid

The payload of a token limits its validity by two members: `exp`, after which it has expired, and
`nbf`, before which it is not valid yet.  They are picked out of the payload by a reading of their
own, which is tolerant: a value that it cannot use counts as absent, and the reading goes on from
the place where it stopped looking at that value.  Other registered members are looked at too, so
that none of them occurs twice.

The bounds are computed in words of 64 bits.  A difference between clocks that exceeds the clock
itself, or that takes the clock beyond the words, breaks the comparison off.
-/

namespace BearerAuth.Token

open Json

/-! ### Tolerant readings of values

Each yields what it could use and the place from which the reading goes on. -/

/-- The number of digits of an exponent that are read before it exceeds its limit. -/
def digitsWithinLimit : Nat → List Nat → Nat
  | _, [] => 0
  | n, d :: ds =>
      if Number.exponentLimit < n * 10 + d then 1 else 1 + digitsWithinLimit (n * 10 + d) ds

/-- Reads a number.  If its exponent exceeds its limit, the digits behind stay unread. -/
def scanNumeral (input : Bytes) : Except Bytes (Numeral × Bytes) := do
  let (n, rest) ← scanNumber input
  match n.numeral, n.exponent with
  | .outOfRange, some (_, ds) =>
      .error (input.drop (input.length - rest.length - (ds.length - digitsWithinLimit 0 ds)))
  | .outOfRange, none => .error rest
  | numeral, _ => .ok (numeral, rest)

/-- The rest of an input, however its reading ended. -/
def restOf {α : Type} : Except Bytes (α × Bytes) → Bytes
  | .ok (_, rest) => rest
  | .error rest => rest

/-- The rest of an input, however its reading ended. -/
def restOfWord : Except Bytes Bytes → Bytes
  | .ok rest => rest
  | .error rest => rest

/-- Goes on behind the end of an array, given a place inside it. -/
def endArray (input : Bytes) : Except Bytes Bytes :=
  match skipBlank input with
  | [] => .error []
  | b :: rest =>
      if b = ascii ']' then .ok rest
      else if b = ascii ',' then .error (skipBlank rest)
      else .error (b :: rest)

/-- Goes on behind the end of an object, given a place inside it. -/
def endObject (input : Bytes) : Except Bytes Bytes :=
  match skipBlank input with
  | [] => .error []
  | b :: rest => if b = ascii '\x7d' then .ok rest else .error (b :: rest)

/-- The number of seconds that a numeral denotes, if it fits into a word; a half is rounded up. -/
def seconds? : Numeral → Option Nat
  | .natural n => some n
  | .float negative m =>
      if (negative ∧ m.mantissa ≠ 0) ∨ ¬ m.ltNat wordSize then none else some m.rounded
  | .negative _ | .outOfRange => none

/-- Reads a number of seconds; anything else is passed over as far as it has to be looked at to
see that it is none. -/
def readSeconds (input : Bytes) : Option Nat × Bytes :=
  match skipBlank input with
  | [] => (none, [])
  | b :: rest =>
      if b = ascii 'n' then (none, restOfWord (scanWord (utf8 "ull") rest))
      else if b = ascii 't' then (none, restOfWord (scanWord (utf8 "rue") rest))
      else if b = ascii 'f' then (none, restOfWord (scanWord (utf8 "alse") rest))
      else if b = ascii '"' then (none, restOf (readString rest))
      else if b = ascii '[' then (none, restOfWord (endArray rest))
      else if b = ascii '\x7b' then (none, restOfWord (endObject rest))
      else if b = ascii '-' ∨ isDigit b then
        match scanNumeral (b :: rest) with
        | .ok (numeral, rest) => (seconds? numeral, rest)
        | .error rest => (none, rest)
      else (none, b :: rest)

/-- Reads a text, and says whether there is one. -/
def readText (input : Bytes) : Bool × Bytes :=
  match skipBlank input with
  | [] => (false, [])
  | b :: rest =>
      if b = ascii '"' then
        match readString rest with
        | .ok (_, rest) => (true, rest)
        | .error rest => (false, rest)
      else if b = ascii 'n' then (false, restOfWord (scanWord (utf8 "ull") rest))
      else if b = ascii 't' then (false, restOfWord (scanWord (utf8 "rue") rest))
      else if b = ascii 'f' then (false, restOfWord (scanWord (utf8 "alse") rest))
      else if b = ascii '-' ∨ isDigit b then (false, restOf (scanNumeral (b :: rest)))
      else (false, b :: rest)

/-- Leaves an array or an object whose inside was read: behind a failure inside, the end is looked
for at the place of the failure. -/
def leave (close : Bytes → Except Bytes Bytes) : Except Bytes Bytes → Except Bytes Bytes
  | .ok rest => close rest
  | .error rest => .error (restOfWord (close rest))

mutual

/-- Reads a value of any type in which every string is a text, every number is in range and at most
`depth` arrays and objects are nested.  The first argument bounds the number of calls. -/
def passValue : Nat → Nat → Bytes → Except Bytes Bytes
  | 0, _, input => .error input
  | fuel + 1, depth, input =>
      match skipBlank input with
      | [] => .error []
      | b :: rest =>
          if b = ascii 'n' then scanWord (utf8 "ull") rest
          else if b = ascii 't' then scanWord (utf8 "rue") rest
          else if b = ascii 'f' then scanWord (utf8 "alse") rest
          else if b = ascii '"' then (readString rest).map (·.2)
          else if b = ascii '[' then
            match depth with
            | 0 => .error (b :: rest)
            | depth + 1 => leave endArray (passElements fuel depth true rest)
          else if b = ascii '\x7b' then
            match depth with
            | 0 => .error (b :: rest)
            | depth + 1 => leave endObject (passMembers fuel depth true rest)
          else if b = ascii '-' ∨ isDigit b then (scanNumeral (b :: rest)).map (·.2)
          else .error (b :: rest)

/-- Reads elements up to the closing bracket, which is left to be read. -/
def passElements : Nat → Nat → Bool → Bytes → Except Bytes Bytes
  | 0, _, _, input => .error input
  | fuel + 1, depth, first, input =>
      match skipBlank input with
      | [] => .error []
      | b :: rest =>
          if b = ascii ']' then .ok (b :: rest)
          else if first then do passElements fuel depth false (← passValue fuel depth (b :: rest))
          else if b = ascii ',' then
            match skipBlank rest with
            | [] => .error []
            | c :: rest =>
                if c = ascii ']' then .error (c :: rest)
                else do passElements fuel depth false (← passValue fuel depth (c :: rest))
          else .error (b :: rest)

/-- Reads members up to the closing brace, which is left to be read. -/
def passMembers : Nat → Nat → Bool → Bytes → Except Bytes Bytes
  | 0, _, _, input => .error input
  | fuel + 1, depth, first, input =>
      match skipBlank input with
      | [] => .error []
      | b :: rest =>
          if b = ascii '\x7d' then .ok (b :: rest)
          else if first then passMember fuel depth (b :: rest)
          else if b = ascii ',' then passMember fuel depth (skipBlank rest)
          else .error (b :: rest)

/-- Reads a member from its name on, and the members after it. -/
def passMember : Nat → Nat → Bytes → Except Bytes Bytes
  | 0, _, input => .error input
  | _ + 1, _, [] => .error []
  | fuel + 1, depth, q :: rest =>
      if q = ascii '"' then
        match readString rest with
        | .error rest => .error rest
        | .ok (_, rest) =>
            match skipBlank rest with
            | [] => .error []
            | c :: rest =>
                if c = ascii ':' then do
                  passMembers fuel depth false (← passValue fuel depth rest)
                else .error (c :: rest)
      else .error (q :: rest)

end

/-- The depth to which values inside the payload may be nested. -/
def maxInnerDepth : Nat := 126

/-- Passes over a value that may also be null. -/
def passAny (input : Bytes) : Bytes :=
  restOfWord (passValue (3 * input.length + 3) maxInnerDepth input)

/-! ### The registered members -/

/-- The registered members that have been read: of each, that it has occurred and what it says. -/
structure Registered where
  exp : Option (Option Nat)
  nbf : Option (Option Nat)
  sub : Option Bool
  iss : Bool
  aud : Bool

/-- Nothing has been read. -/
def Registered.empty : Registered := ⟨none, none, none, false, false⟩

/-- Reads the value of a member.  A registered member that has occurred before is refused, and so is
any other value that is not JSON. -/
def Registered.step (r : Registered) (name : String) (input : Bytes) :
    Option (Registered × Bytes) :=
  match name with
  | "exp" =>
      if r.exp.isSome then none
      else
        let (value, rest) := readSeconds input
        some ({ r with exp := some value }, rest)
  | "nbf" =>
      if r.nbf.isSome then none
      else
        let (value, rest) := readSeconds input
        some ({ r with nbf := some value }, rest)
  | "sub" =>
      if r.sub.isSome then none
      else
        let (value, rest) := readText input
        some ({ r with sub := some value }, rest)
  | "iss" => if r.iss then none else some ({ r with iss := true }, passAny input)
  | "aud" => if r.aud then none else some ({ r with aud := true }, passAny input)
  | _ => ((readValue input).2).map fun rest => (r, rest)

mutual

/-- Reads members up to the closing brace, behind which nothing but white space follows.  The first
argument bounds the number of members. -/
def readRegistered : Nat → Bool → Registered → Bytes → Option Registered
  | 0, _, _, _ => none
  | fuel + 1, first, r, input =>
      match skipBlank input with
      | [] => none
      | b :: rest =>
          if b = ascii '\x7d' then if (skipBlank rest).isEmpty then some r else none
          else if first then readRegisteredMember fuel r (b :: rest)
          else if b = ascii ',' then readRegisteredMember fuel r (skipBlank rest)
          else none

/-- Reads a member from its name on, and the members after it. -/
def readRegisteredMember : Nat → Registered → Bytes → Option Registered
  | 0, _, _ => none
  | _ + 1, _, [] => none
  | fuel + 1, r, q :: rest =>
      if q = ascii '"' then
        match readString rest with
        | .error _ => none
        | .ok (name, rest) =>
            match skipBlank rest with
            | [] => none
            | c :: rest =>
                if c = ascii ':' then
                  match r.step name rest with
                  | none => none
                  | some (r, rest) => readRegistered fuel false r rest
                else none
      else none

end

/-- Reads the registered members of a payload, which has to be an object. -/
def Registered.ofBytes (input : Bytes) : Option Registered :=
  match skipBlank input with
  | [] => none
  | b :: rest =>
      if b = ascii '\x7b' then readRegistered (2 * rest.length + 2) true Registered.empty rest
      else none

/-! ### The window -/

/-- The beginning of the token, if it names one, has come. -/
def Registered.hasBegunAt (r : Registered) (leeway now : UInt64) : Except Overflow Bool :=
  match r.nbf with
  | some (some nbf) => do
      let latest ← Word.add now leeway
      return ¬ latest < UInt64.ofNat nbf
  | _ => .ok true

/-- The token is valid at a point in time: it names its end and its subject, its end is not past,
and its beginning has come.  Of a token that has ended the beginning is not looked at. -/
def Registered.isValidAt (r : Registered) (leeway now : UInt64) : Except Overflow Bool :=
  match r.exp, r.sub with
  | some (some exp), some true => do
      let earliest ← Word.sub now leeway
      if UInt64.ofNat exp < earliest then .ok false else r.hasBegunAt leeway now
  | _, _ => .ok false

end BearerAuth.Token
