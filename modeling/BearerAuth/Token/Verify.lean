import BearerAuth.Token.Header
import BearerAuth.Token.Validity

/-!
# Verifying tokens

A token verifies under a public key at a point in time if its header names the accepted
algorithm, its signature is one of the key over everything in front of the last dot, its
payload holds claims, and the time lies within its bounds.  The bounds come last, so only
signed claims can break the step off.
-/

namespace BearerAuth.Token

/-- Why a token does not verify. -/
inductive Refusal where
  /-- The text of the key holds no key. -/
  | unreadableKey
  | invalidToken
  /-- The bounds of the token cannot be computed: the step breaks off. -/
  | overflow (reason : Overflow)
deriving DecidableEq, Repr

/-- The claims in a payload that is valid at a point in time. -/
def readPayload (leeway now : UInt64) (payload : Bytes) : Except Refusal Claims :=
  match Claims.ofJson payload, Registered.ofBytes payload with
  | .ok claims, some registered =>
      match registered.isValidAt leeway now with
      | .ok true => .ok claims
      | .ok false => .error .invalidToken
      | .error reason => .error (.overflow reason)
  | _, _ => .error .invalidToken

/-- The payload of a token that is signed under key material. -/
def signedPayload? (material : KeyMaterial) (token : String) : Option Bytes := do
  let (message, signature) ← Text.cutLast '.' token.toList
  let (header, payload) ← Text.cutLast '.' message
  guard (headerAlgorithm? (← decodeSegment header) = some acceptedAlgorithm)
  let key ← material.publicKey?
  guard (key.verifies (utf8 (String.ofList message)) (← decodeSegment signature))
  decodeSegment payload

/-- Verifies a token. -/
def verify (token pem : String) (leeway : Duration) (now : Clock) : Except Refusal Claims :=
  match KeyMaterial.ofPem? pem with
  | none => .error .unreadableKey
  | some material =>
      match signedPayload? material token with
      | none => .error .invalidToken
      | some payload => readPayload leeway.wholeSeconds now payload

end BearerAuth.Token
