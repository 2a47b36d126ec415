import BearerAuth.Bytes

/-!
# A tolerant look at binary encodings

Before a key is read strictly, its encoding is looked through for the algorithm it names and for
the string that holds the key.  This look tolerates lengths that are not spelled in the shortest
way, elements of unknown types and elements behind each other; it refuses empty collections and
the contents that its known types cannot have.
-/

namespace BearerAuth.Der

/-- The elements that the look is for. -/
inductive Leaf where
  /-- The name of an algorithm. -/
  | identifier (arcs : List Nat)
  /-- The bytes of a string, of bits or of octets. -/
  | string (content : Bytes)
deriving DecidableEq, Repr

namespace Leaf

/-- Reads groups of seven bits up to one whose byte is below 128. -/
def readGroups : Nat → Bytes → Option (Nat × Bytes)
  | _, [] => none
  | n, x :: rest =>
      let n := n * 128 + x.toNat % 128
      if x < 0x80 then some (n, rest) else readGroups n rest

/-- The number of a tag, and what follows it. -/
def readTag (first : UInt8) (rest : Bytes) : Option (Nat × Bytes) :=
  if first.toNat % 32 = 31 then readGroups 0 rest else some (first.toNat % 32, rest)

/-- Reads a length in any spelling of at most eight bytes. -/
def readLength : Bytes → Option (Nat × Bytes)
  | [] => none
  | x :: rest =>
      if x < 0x80 then some (x.toNat, rest)
      else
        let count := x.toNat - 0x80
        if count ≤ 8 ∧ count ≤ rest.length then
          some (Bytes.toNat (rest.take count), rest.drop count)
        else none

/-- The arcs that follow the first two; the bound is the number of bytes. -/
def readArcs : Nat → Bytes → Option (List Nat)
  | _, [] => some []
  | 0, _ => none
  | fuel + 1, input => do
      let (arc, rest) ← readGroups 0 input
      return arc :: (← readArcs fuel rest)

/-- The arcs of an identifier. -/
def arcs? : Bytes → Option (List Nat)
  | [] => none
  | x :: rest => do
      let n := x.toNat
      let first := if n < 40 then [0, n] else if n < 80 then [1, n - 40] else [2, n - 80]
      return first ++ (← readArcs rest.length rest)

/-- A character of a printable string. -/
def isPrintable (b : UInt8) : Bool :=
  (ascii 'A' ≤ b && b ≤ ascii 'Z') || (ascii 'a' ≤ b && b ≤ ascii 'z') ||
    (ascii '0' ≤ b && b ≤ ascii '9') || (utf8 " '()+,-./:=?").contains b

/-- The value of decimal digits. -/
def digits? (b : Bytes) : Option Nat :=
  b.foldl (fun n x => n.bind fun n =>
    if ascii '0' ≤ x ∧ x ≤ ascii '9' then some (n * 10 + (x.toNat - 48)) else none) (some 0)

/-- The number of days in a month. -/
def daysInMonth (year month : Nat) : Nat :=
  if month = 2 then
    if (year % 4 = 0 ∧ year % 100 ≠ 0) ∨ year % 400 = 0 then 29 else 28
  else if month ∈ [4, 6, 9, 11] then 30 else 31

/-- Fourteen digits name a year, month, day, hour, minute and second. -/
def isMoment (b : Bytes) : Bool :=
  let part (start count : Nat) := digits? ((b.drop start).take count)
  match part 0 4, part 4 2, part 6 2, part 8 2, part 10 2, part 12 2 with
  | some year, some month, some day, some hour, some minute, some second =>
      b.length = 14 && 1 ≤ month && month ≤ 12 && 1 ≤ day && day ≤ daysInMonth year month &&
        hour ≤ 23 && minute ≤ 59 && second ≤ 59
  | _, _, _, _, _, _ => false

/-- A point in time with two digits for the year. -/
def isShortTime (b : Bytes) : Bool :=
  match digits? (b.take 2) with
  | some year =>
      b.length = 13 && b.getLast? = some (ascii 'Z') &&
        isMoment (utf8 (if 50 ≤ year then "19" else "20") ++ b.dropLast)
  | none => false

/-- A point in time with four digits for the year and perhaps a fraction of a second. -/
def isLongTime (b : Bytes) : Bool :=
  let b := if b.contains (ascii '.') then b else b.take 14 ++ ascii '.' :: b.drop 14
  let fraction := (b.drop 15).dropLast
  15 < b.length && isMoment (b.take 14) && b[14]? = some (ascii '.') &&
    b.getLast? = some (ascii 'Z') && fraction.length ≤ 9 && (digits? fraction).isSome

/-- The content is one that an element of that universal type can have. -/
def isContent (tag : Nat) (content : Bytes) : Bool :=
  match tag with
  | 1 => content.length = 1
  | 3 =>
      match content with
      | [] => true
      | unused :: bits => unused.toNat ≤ bits.length * 8
  | 6 => (arcs? content).isSome
  | 12 | 20 | 28 | 30 => content.text?.isSome
  | 19 => content.all isPrintable
  | 22 => content.all (· < 0x80)
  | 23 => isShortTime content
  | 24 => 15 ≤ content.length && isLongTime content
  | _ => true

/-- The leaves of elements behind each other, of which there has to be one.  Every element takes
two bytes at least, so the length bounds the recursion. -/
def readAll : Nat → Bytes → Option (List Leaf)
  | 0, _ => none
  | _ + 1, [] => none
  | fuel + 1, first :: rest => do
      let (tag, rest) ← readTag first rest
      let (length, rest) ← readLength rest
      guard (length ≤ rest.length)
      let content := rest.take length
      let rest := rest.drop length
      let leaves ←
        if 0x40 ≤ first then pure []
        else if tag = 16 then readAll fuel content
        else if tag = 17 then (readAll fuel content).map fun _ => []
        else do
          guard (isContent tag content)
          match tag with
          | 3 => pure [string content.tail]
          | 4 => pure [string content]
          | 6 => (arcs? content).map fun arcs => [identifier arcs]
          | _ => pure []
      if rest.isEmpty then return leaves
      else return leaves ++ (← readAll fuel rest)

/-- The leaves of an encoding, in order. -/
def ofBytes (input : Bytes) : Option (List Leaf) :=
  readAll (input.length + 1) input

/-- The kinds of keys that are told apart. -/
inductive Family where
  | rsa
  | ellipticCurve
  | edwards
deriving DecidableEq, Repr

/-- The kind of keys that an identifier names. -/
def family? (arcs : List Nat) : Option Family :=
  if arcs = [1, 2, 840, 113549, 1, 1, 1] then some .rsa
  else if arcs = [1, 2, 840, 10045, 2, 1] then some .ellipticCurve
  else if arcs = [1, 3, 101, 112] then some .edwards
  else none

/-- The kind of keys that the first known identifier names. -/
def findFamily? (leaves : List Leaf) : Option Family :=
  leaves.findSome? fun leaf =>
    match leaf with
    | identifier arcs => family? arcs
    | string _ => none

/-- The first string. -/
def findString? (leaves : List Leaf) : Option Bytes :=
  leaves.findSome? fun leaf =>
    match leaf with
    | identifier _ => none
    | string content => some content

end Leaf

end BearerAuth.Der
