import BearerAuth.Binary64.Shortest
import BearerAuth.Json.Lexeme
import BearerAuth.Json.Numeral
import BearerAuth.Json.Printer
import BearerAuth.Registry

/-!
# Canonical JSON

A value in compact form with the members of its objects in the order of their names.  Of members of
one name the last one counts.  Only values that are read whole, whose strings are texts and whose
numbers are in range, have a canonical form.
-/

namespace BearerAuth.Json

/-- What a number denotes, in decimal. -/
def Numeral.toText? : Numeral → Option String
  | natural n => some (Decimal.ofNat n)
  | negative magnitude => some ("-" ++ Decimal.ofNat magnitude)
  | float isNegative magnitude => some ((if isNegative then "-" else "") ++ magnitude.toText)
  | outOfRange => none

mutual

/-- The canonical form of a value. -/
def Value.canonical? : Value → Option String
  | .cut => none
  | .null => some "null"
  | .bool b => some (if b then "true" else "false")
  | .number n => n.numeral.toText?
  | .string raw => (textOf? raw).map quote
  | .array elements => (canonicalElements elements).map array
  | .object members => (canonicalMembers members Registry.empty).map fun r => object r.entries

/-- The canonical forms of elements. -/
def canonicalElements : Elements → Option (List String)
  | .cut => none
  | .closed => some []
  | .cons v rest => do
      let v ← v.canonical?
      let rest ← canonicalElements rest
      return v :: rest

/-- The canonical forms of members, on top of those in front of them. -/
def canonicalMembers : Members → Registry String → Option (Registry String)
  | .cut, _ => none
  | .closed, r => some r
  | .cons name v rest, r => do
      let name ← textOf? name
      let v ← v.canonical?
      canonicalMembers rest (r.insert name v)

end

end BearerAuth.Json
