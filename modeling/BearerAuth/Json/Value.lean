/-!
# JSON values as far as they were read

Readers of JSON in this library look at a document from left to right and report the first thing
that is wrong, be it a member of the wrong type or a character that is not JSON.  A `Value` is what
reading a text yields before any of its members are given a meaning: a tree in which `cut` marks
the place where the text stops being JSON.  A reader that meets a `cut` reports malformed JSON, and
one that stops earlier never learns of it.

Strings are kept as they are written, escapes included, because some readers skip strings that are
grammatical without being texts.
-/

namespace BearerAuth.Json

/-- A number as it is written: digits of the whole part, of the fraction (none if there is no
decimal point) and of the exponent, whose flag says that it is negative. -/
structure Number where
  negative : Bool
  whole : List Nat
  fraction : List Nat
  exponent : Option (Bool × List Nat)
deriving DecidableEq, Repr

mutual

/-- A value as far as it was read. -/
inductive Value where
  /-- The text is not JSON here. -/
  | cut
  | null
  | bool (b : Bool)
  | number (n : Number)
  /-- A string, as the bytes between its quotes. -/
  | string (raw : List UInt8)
  | array (elements : Elements)
  | object (members : Members)

/-- The elements of an array as far as they were read. -/
inductive Elements where
  /-- The text is not JSON here. -/
  | cut
  /-- The closing bracket. -/
  | closed
  | cons (value : Value) (rest : Elements)

/-- The members of an object as far as they were read.  A member whose name is not followed by a
colon has the value `Value.cut`. -/
inductive Members where
  /-- The text is not JSON here. -/
  | cut
  /-- The closing brace. -/
  | closed
  /-- A member: the bytes between the quotes of its name, and its value. -/
  | cons (name : List UInt8) (value : Value) (rest : Members)

end

mutual

/-- Nothing is cut off inside the value. -/
def Value.whole : Value → Bool
  | .cut => false
  | .null | .bool _ | .number _ | .string _ => true
  | .array es => es.whole
  | .object ms => ms.whole

/-- The array is closed and nothing is cut off inside its elements. -/
def Elements.whole : Elements → Bool
  | .cut => false
  | .closed => true
  | .cons v rest => v.whole && rest.whole

/-- The object is closed and nothing is cut off inside its members. -/
def Members.whole : Members → Bool
  | .cut => false
  | .closed => true
  | .cons _ v rest => v.whole && rest.whole

end

/-- The members of an object, in the order in which they are written. -/
def Members.toList : Members → List (List UInt8 × Value)
  | .cut | .closed => []
  | .cons name v rest => (name, v) :: rest.toList

/-- The elements of an array, in the order in which they are written. -/
def Elements.toList : Elements → List Value
  | .cut | .closed => []
  | .cons v rest => v :: rest.toList

end BearerAuth.Json
