import BearerAuth.Text.Quoted
import BearerAuth.Json.Lexeme
import BearerAuth.Json.Numeral

/-!
# What can be wrong with a document

The reasons for which a reader of documents refuses one, and the readings of single values that all
documents share.  A reader asks for values from left to right and reports the first reason it meets.

The wording of a reason says neither where in the document it was found nor, for a document that is
no JSON at all, what is wrong with it.
-/

namespace BearerAuth.Json

/-- What stands where something else was expected. -/
inductive Shape where
  | boolean (b : Bool)
  | integer (n : Int)
  | float
  | text (s : String)
  | null
  | sequence
  | map
deriving DecidableEq, Repr

/-- The wording of what stands in a document. -/
def Shape.describe : Shape → String
  | .boolean b => "boolean `" ++ (if b then "true" else "false") ++ "`"
  | .integer n => "integer `" ++ Decimal.ofInt n ++ "`"
  | .float => "floating point"
  | .text s => "string " ++ Text.quoted s
  | .null => "null"
  | .sequence => "sequence"
  | .map => "map"

/-- Why a document is refused. -/
inductive Fault where
  /-- The text is not JSON, or holds a string or number that cannot be represented. -/
  | malformed
  /-- Something of another type stands where `expected` was expected. -/
  | invalidType (found : Shape) (expected : String)
  /-- The type is right and the value is not. -/
  | invalidValue (found : Shape) (expected : String)
  /-- An array in place of an object has too few elements. -/
  | invalidLength (count : Nat) (expected : String)
  /-- A role with an unknown name. -/
  | unknownVariant (name : String)
  /-- A configuration with an unknown member. -/
  | unknownField (name : String)
  | missingField (name : String)
  | duplicateField (name : String)
  /-- A string that is not a user id. -/
  | notUserId
deriving DecidableEq, Repr

/-- The wording of a fault, as far as it follows from the reason. -/
def Fault.message : Fault → String
  | malformed => "malformed JSON"
  | invalidType found expected => "invalid type: " ++ found.describe ++ ", expected " ++ expected
  | invalidValue found expected => "invalid value: " ++ found.describe ++ ", expected " ++ expected
  | invalidLength count expected =>
      "invalid length " ++ Decimal.ofNat count ++ ", expected " ++ expected
  | unknownVariant name => "unknown variant `" ++ name ++ "`, expected `ADMIN` or `USER`"
  | unknownField name =>
      "unknown field `" ++ name ++ "`, expected one of `active_kid`, `leeway`, `rules`"
  | missingField name => "missing field `" ++ name ++ "`"
  | duplicateField name => "duplicate field `" ++ name ++ "`"
  | notUserId => "UUID parsing failed"

namespace Value

/-- What stands in a document, if it can be said. -/
def shape? : Value → Option Shape
  | .cut => none
  | .null => some .null
  | .bool b => some (.boolean b)
  | .number n =>
      match n.numeral with
      | .natural n => some (.integer n)
      | .negative n => some (.integer (-n))
      | .float .. => some .float
      | .outOfRange => none
  | .string raw => (textOf? raw).map .text
  | .array _ => some .sequence
  | .object _ => some .map

/-- The fault of a value of the wrong type. -/
def mismatch (v : Value) (expected : String) : Fault :=
  match v.shape? with
  | some found => .invalidType found expected
  | none => .malformed

/-- Reads a string; `expected` names what is wanted. -/
def asText (v : Value) (expected : String) : Except Fault String :=
  match v with
  | .string raw =>
      match textOf? raw with
      | some s => .ok s
      | none => .error .malformed
  | v => .error (v.mismatch expected)

/-- Reads an integer that fits into a signed word of 64 bits. -/
def asInt64 (v : Value) : Except Fault Int64 :=
  match v with
  | .number n =>
      match n.numeral with
      | .natural m =>
          if m < 0x8000000000000000 then .ok (Int64.ofNat m)
          else .error (.invalidValue (.integer m) "i64")
      | .negative m => .ok (Int64.ofInt (-m))
      | _ => .error (v.mismatch "i64")
  | v => .error (v.mismatch "i64")

end Value

/-- Reads the members of an object from left to right.  `step` is given what the members before
came to, the name of a member and its value. -/
def Members.read {β : Type} (step : β → String → Value → Except Fault β) :
    β → Members → Except Fault β
  | b, .closed => .ok b
  | _, .cut => .error .malformed
  | b, .cons name v rest =>
      match textOf? name with
      | none => .error .malformed
      | some name =>
          match step b name v with
          | .error fault => .error fault
          | .ok b => rest.read step b

/-- The next element of an array, if there is one. -/
def Elements.next : Elements → Except Fault (Option (Value × Elements))
  | .cut => .error .malformed
  | .closed => .ok none
  | .cons v rest => .ok (some (v, rest))

/-- Checks that no element is left. -/
def Elements.finish : Elements → Except Fault Unit
  | .closed => .ok ()
  | _ => .error .malformed

/-- Reads all elements of an array from left to right. -/
def Elements.read {β : Type} (step : β → Value → Except Fault β) : β → Elements → Except Fault β
  | b, .closed => .ok b
  | _, .cut => .error .malformed
  | b, .cons v rest =>
      match step b v with
      | .error fault => .error fault
      | .ok b => rest.read step b

end BearerAuth.Json
