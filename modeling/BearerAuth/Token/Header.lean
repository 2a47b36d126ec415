import BearerAuth.Token

/-!
# The strict reading of headers

Before a signature is checked, the header is read again, strictly: its registered members have
their types and do not occur twice.  The only thing that matters is whether the header passes and
which algorithm it names, so the reading yields just that.
-/

namespace BearerAuth.Token

open Json (Value Members Elements Document)

/-- The values of the members with a name. -/
def membersNamed (name : String) (ms : Members) : List Value :=
  (ms.toList.filter fun m => Json.textOf? m.1 = some name).map (·.2)

/-- A string that is a text. -/
def isText (v : Value) : Bool :=
  (textOfValue? v).isSome

/-- An array of texts. -/
def isTextArray : Value → Bool
  | .array es => es.whole && es.toList.all isText
  | _ => false

/-- The value is null. -/
def isNull : Value → Bool
  | .null => true
  | _ => false

/-- The name of an alternative: a string, or an object with one member of that name, whose value is
null. -/
def alternative? : Value → Option String
  | .string raw => Json.textOf? raw
  | .object (.cons raw .null .closed) => Json.textOf? raw
  | _ => none

/-- The algorithms that a header may name. -/
def headerAlgorithms : List String :=
  ["HS256", "HS384", "HS512", "ES256", "ES384", "RS256", "RS384", "RS512", "PS256", "PS384",
    "PS512", "EdDSA"]

/-! ### Keys in headers

A header may carry a key of its own.  It is never used, but it has to have the form of a key. -/

/-- The algorithms that a key in a header may name. -/
def keyAlgorithms : List String :=
  ["HS256", "HS384", "HS512", "ES256", "ES384", "RS256", "RS384", "RS512", "PS256", "PS384",
    "PS512", "EdDSA", "RSA1_5", "RSA-OAEP", "RSA-OAEP-256"]

/-- The curves that a key in a header may name. -/
def keyCurves : List String := ["P-256", "P-384", "P-521", "Ed25519"]

/-- The value names one of the alternatives.  In place of null, an alternative that is an object may
hold an empty object. -/
def isAlternative (names : List String) : Value → Bool
  | .object (.cons raw (.object .closed) .closed) => (Json.textOf? raw).any (· ∈ names)
  | v => (alternative? v).any (· ∈ names)

/-- The members common to all keys, with the check of their values. -/
def commonKeyMembers : List (String × (Value → Bool)) :=
  [("use", isText), ("key_ops", isTextArray), ("alg", isAlternative keyAlgorithms),
    ("kid", isText), ("x5u", isText), ("x5c", isTextArray), ("x5t", isText),
    ("x5t#S256", isText)]

/-- A member that may be missing or null and occurs at most once. -/
def isOptionalMember (ms : Members) (m : String × (Value → Bool)) : Bool :=
  match membersNamed m.1 ms with
  | [] => true
  | [v] => isNull v || m.2 v
  | _ => false

/-- A member that occurs exactly once. -/
def isRequiredMember (ms : Members) (m : String × (Value → Bool)) : Bool :=
  match membersNamed m.1 ms with
  | [v] => m.2 v
  | _ => false

/-- The value names exactly this alternative. -/
def isExactly (name : String) (v : Value) : Bool :=
  alternative? v = some name

/-- The value names a curve. -/
def isCurve (v : Value) : Bool :=
  (alternative? v).any (· ∈ keyCurves)

/-- The members that the kinds of keys require. -/
def keyForms : List (List (String × (Value → Bool))) :=
  [[("kty", isExactly "EC"), ("crv", isCurve), ("x", isText), ("y", isText)],
    [("kty", isExactly "RSA"), ("n", isText), ("e", isText)],
    [("kty", isExactly "oct"), ("k", isText)],
    [("kty", isExactly "OKP"), ("crv", isCurve), ("x", isText)]]

/-- A key: the header and the key itself are two of the levels that values may be nested. -/
def isKey : Value → Bool
  | .object ms =>
      areSoundMembers (maxDepth - 2) ms && commonKeyMembers.all (isOptionalMember ms) &&
        keyForms.any fun form => form.all (isRequiredMember ms)
  | _ => false

/-! ### Headers -/

/-- The members of a header other than its algorithm, with the check of their values. -/
def optionalHeaderMembers : List (String × (Value → Bool)) :=
  [("typ", isText), ("cty", isText), ("jku", isText), ("jwk", isKey), ("kid", isText),
    ("x5u", isText), ("x5c", isTextArray), ("x5t", isText), ("x5t#S256", isText)]

/-- The checks of the elements of an array in place of an object, from the third on. -/
def arrayChecks : List (Value → Bool) :=
  [isText, isText, isKey, isText, isText, isTextArray, isText, isText]

/-- A value that is null or passes a check. -/
def isNullOr (check : Value → Bool) (v : Value) : Bool :=
  isNull v || check v

/-- Every name is a text. -/
def hasTextNames (ms : Members) : Bool :=
  ms.toList.all fun m => (Json.textOf? m.1).isSome

/-- The algorithm named by a header that passes. -/
def headerAlgorithmOf? : Value → Option String
  | .object ms => do
      guard (ms.whole && hasTextNames ms && optionalHeaderMembers.all (isOptionalMember ms))
      match membersNamed "alg" ms with
      | [v] => alternative? v
      | _ => none
  | .array (.cons typ (.cons alg rest)) => do
      guard (isNullOr isText typ && rest.whole && rest.toList.length = arrayChecks.length)
      guard ((arrayChecks.zip rest.toList).all fun c => isNullOr c.1 c.2)
      alternative? alg
  | _ => none

/-- The algorithm that a header names, if it passes. -/
def headerAlgorithm? (input : Bytes) : Option String := do
  let doc := Document.ofBytes input
  guard doc.complete
  let alg ← headerAlgorithmOf? doc.value
  guard (alg ∈ headerAlgorithms)
  return alg

end BearerAuth.Token
