import BearerAuth.AuthFailure
import BearerAuth.Claims.Reader
import BearerAuth.KeyMaterial
import BearerAuth.Rsa.Signature
import BearerAuth.Text.Cut

/-!
# Tokens

A token is three pieces of base64 with dots between them: a header, which names the algorithm and
the key, a payload, which holds claims, and a signature over the other two.

`Token.encode` writes tokens.  `Token.namedKid` and `Token.carriedClaims` read what a token says
before anyone has decided to believe it.
-/

namespace BearerAuth.Token

open Json (Value Members Elements Fault Document)

/-- The pieces of a token. -/
structure Segments where
  header : List Char
  payload : List Char
  signature : List Char
deriving DecidableEq, Repr

/-- The pieces of a text with exactly two dots and something in front of the first. -/
def segments? (token : String) : Option Segments := do
  let (header, rest) ← Text.cutFirst '.' token.toList
  let (payload, signature) ← Text.cutFirst '.' rest
  guard (¬ header.isEmpty ∧ '.' ∉ signature)
  return ⟨header, payload, signature⟩

/-- The bytes of a piece. -/
def decodeSegment (cs : List Char) : Option Bytes :=
  Base64.Alphabet.urlSafe.decode cs

/-- Bytes as a piece. -/
def encodeSegment (b : Bytes) : String :=
  String.ofList (Base64.Alphabet.urlSafe.encode b)

/-! ### Writing -/

/-- The header of tokens signed under a key id. -/
def headerJson (kid : String) : String :=
  Json.object [("typ", Json.quote "JWT"), ("alg", Json.quote acceptedAlgorithm),
    ("kid", Json.quote kid)]

/-- The part of a token that is signed. -/
def signingInput (claims : Claims) (kid : String) : String :=
  encodeSegment (utf8 (headerJson kid)) ++ "." ++ encodeSegment (utf8 claims.toJson)

/-- Signs claims and stamps the key id into the header. -/
def encode (claims : Claims) (kid pem : String) : Except AuthFailure String :=
  match KeyMaterial.ofPem? pem with
  | none => .error (.keyParse kid)
  | some material =>
      match material.privateKey? with
      | none => .error (.signing (.unsuitableKey material.bytes))
      | some key =>
          let input := signingInput claims kid
          match key.sign (utf8 input) with
          | .error .unusable => .error (.signing (.unsuitableKey material.bytes))
          | .error .inconsistent => .error (.signing .inconsistentKey)
          | .ok signature => .ok (input ++ "." ++ encodeSegment signature)

/-! ### Reading without believing -/

mutual

/-- Every string in the value is a text, every number is in range, and at most `depth` arrays and
objects are nested. -/
def isSound : Nat → Value → Bool
  | _, .cut => false
  | _, .null | _, .bool _ => true
  | _, .number n => n.numeral ≠ .outOfRange
  | _, .string raw => (Json.textOf? raw).isSome
  | 0, .array _ | 0, .object _ => false
  | depth + 1, .array es => areSound depth es
  | depth + 1, .object ms => areSoundMembers depth ms

/-- All elements are sound. -/
def areSound : Nat → Elements → Bool
  | _, .cut => false
  | _, .closed => true
  | depth, .cons v rest => isSound depth v && areSound depth rest

/-- All members are sound. -/
def areSoundMembers : Nat → Members → Bool
  | _, .cut => false
  | _, .closed => true
  | depth, .cons name v rest =>
      (Json.textOf? name).isSome && isSound depth v && areSoundMembers depth rest

end

/-- The greatest depth to which values are nested, the outermost included. -/
def maxDepth : Nat := 127

/-- Reads a document that has to be an object. -/
def readObject (input : Bytes) : Except Fault Members :=
  let doc := Document.ofBytes input
  match doc.value with
  | .object ms =>
      if isSound maxDepth doc.value && doc.complete then .ok ms else .error .malformed
  | v => .error (v.mismatch "a map")

/-- The value of the last member with a name. -/
def lastMember? (name : String) (ms : Members) : Option Value :=
  (ms.toList.reverse.find? fun m => Json.textOf? m.1 = some name).map (·.2)

/-- The text of a value that is a string. -/
def textOfValue? : Value → Option String
  | .string raw => Json.textOf? raw
  | _ => none

/-- The algorithm in a header is the accepted one. -/
def checkHeaderAlgorithm (header : Members) : Except TokenFault Unit :=
  match (lastMember? "alg" header).bind textOfValue? with
  | none => .error .noAlgorithm
  | some alg => checkAlgorithm alg

/-- The key id in a header. -/
def headerKid (header : Members) : Except AuthFailure String :=
  match lastMember? "kid" header with
  | none => .error .missingKid
  | some v =>
      match textOfValue? v with
      | none => .error .kidType
      | some kid =>
          match KeyId.check kid with
          | .error fault => .error (.tokenParse (.keyId fault))
          | .ok () => .ok kid

/-- The header and the payload of a token, as far as they can be checked without a key. -/
def peekHeader (token : String) : Except TokenFault Members := do
  let some s := segments? token | .error .notThreeParts
  let some header := decodeSegment s.header | .error (.headerEncoding s.header)
  let members ← (readObject header).mapError (.headerJson header)
  let some _ := decodeSegment s.payload | .error (.payloadEncoding s.payload)
  checkHeaderAlgorithm members
  return members

/-- The key id that a token names, without looking at its signature. -/
def namedKid (token : String) : Except AuthFailure String :=
  match peekHeader token with
  | .error fault => .error (.tokenParse fault)
  | .ok header => headerKid header

/-- The claims that a token carries, without looking at its signature. -/
def carriedClaims (token : String) : Except TokenFault Claims := do
  let some s := segments? token | .error .notThreeParts
  let some payload := decodeSegment s.payload | .error (.payloadEncoding s.payload)
  (Claims.ofJson payload).mapError (.claimsJson payload)

end BearerAuth.Token
