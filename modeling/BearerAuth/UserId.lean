/-!
# User ids

A user id is a number of 128 bits.  It is written with 32 lower-case hexadecimal digits in groups of
8, 4, 4, 4 and 12; it is read in that form in either case, without hyphens, in braces, or behind
`urn:uuid:`.
-/

namespace BearerAuth

/-- The id of a user account. -/
structure UserId where
  value : BitVec 128
deriving DecidableEq, Repr, Inhabited

namespace UserId

/-- The id that names nobody. -/
def nil : UserId := ⟨0⟩

/-- The id with the given number. -/
def ofNat (n : Nat) : UserId := ⟨BitVec.ofNat 128 n⟩

/-- The sizes of the groups of digits. -/
def groupSizes : List Nat := [8, 4, 4, 4, 12]

/-- The last `width` hexadecimal digits of a number, put in front of `acc`. -/
def hexDigits : Nat → Nat → List Char → List Char
  | 0, _, acc => acc
  | width + 1, n, acc => hexDigits width (n / 16) (Nat.digitChar (n % 16) :: acc)

/-- Puts hyphens between groups of characters. -/
def hyphenate : List Nat → List Char → List Char
  | [], _ => []
  | [n], cs => cs.take n
  | n :: sizes, cs => cs.take n ++ '-' :: hyphenate sizes (cs.drop n)

/-- Takes the hyphens out from between groups of characters, if the groups have these sizes. -/
def unhyphenate : List Nat → List Char → Option (List Char)
  | [], cs => if cs.isEmpty then some [] else none
  | [n], cs => if cs.length = n then some cs else none
  | n :: sizes, cs =>
      match cs.drop n with
      | '-' :: rest => (unhyphenate sizes rest).map (cs.take n ++ ·)
      | _ => none

/-- The written form of an id. -/
def toText (id : UserId) : String :=
  String.ofList (hyphenate groupSizes (hexDigits 32 id.value.toNat []))

instance : ToString UserId := ⟨toText⟩

/-- The value of a hexadecimal digit in either case. -/
def hexValue? (c : Char) : Option Nat :=
  if '0' ≤ c ∧ c ≤ '9' then some (c.toNat - 48)
  else if 'a' ≤ c ∧ c ≤ 'f' then some (c.toNat - 87)
  else if 'A' ≤ c ∧ c ≤ 'F' then some (c.toNat - 55)
  else none

/-- The id of 32 hexadecimal digits. -/
def ofHex? (cs : List Char) : Option UserId := do
  guard (cs.length = 32)
  let ds ← cs.mapM hexValue?
  return ofNat (ds.foldl (fun n d => n * 16 + d) 0)

/-- The id of digits in hyphenated groups. -/
def ofHyphenated? (cs : List Char) : Option UserId :=
  (unhyphenate groupSizes cs).bind ofHex?

/-- The text between braces. -/
def unbrace? : List Char → Option (List Char)
  | '\x7b' :: rest => if rest.getLast? = some '\x7d' then some rest.dropLast else none
  | _ => none

/-- The text behind the name of the URN scheme, in lower or upper case. -/
def afterUrn? (cs : List Char) : Option (List Char) :=
  if cs.take 9 = "urn:uuid:".toList ∨ cs.take 9 = "URN:UUID:".toList then some (cs.drop 9) else none

/-- Reads an id in any of its forms. -/
def parse? (s : String) : Option UserId :=
  let cs := s.toList
  ofHex? cs <|> ofHyphenated? cs <|> ((unbrace? cs).bind ofHyphenated?) <|>
    ((afterUrn? cs).bind ofHyphenated?)

end UserId

end BearerAuth
