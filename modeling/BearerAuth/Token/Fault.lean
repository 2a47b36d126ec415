import BearerAuth.KeyId
import BearerAuth.Wording

/-!
# What can be wrong with a token

The reasons for which a token is refused before its signature is looked at.
-/

namespace BearerAuth

/-- Why a text is not a token that can be looked at further. -/
inductive TokenFault where
  | notThreeParts
  /-- The header is not base64. -/
  | headerEncoding (segment : List Char)
  /-- The header is not a JSON object. -/
  | headerJson (document : Bytes) (fault : Json.Fault)
  /-- The payload is not base64. -/
  | payloadEncoding (segment : List Char)
  /-- The payload does not hold claims. -/
  | claimsJson (document : Bytes) (fault : Json.Fault)
  | noAlgorithm
  /-- An algorithm that would turn the signature into no signature or into a shared secret. -/
  | forbiddenAlgorithm (name : String)
  /-- An algorithm that is not supported. -/
  | unsupportedAlgorithm (name : String)
  | keyId (fault : KeyId.Fault)
  | other (message : String)
deriving DecidableEq, Repr

/-- The wording of a fault. -/
def TokenFault.message (w : Wording) : TokenFault → String
  | notThreeParts => "JWT must have 3 parts separated by dots"
  | headerEncoding segment => "Failed to decode JWT header: " ++ w.segment segment
  | headerJson document fault => "Failed to parse JWT header: " ++ w.header document fault
  | payloadEncoding segment => "Failed to decode JWT payload: " ++ w.segment segment
  | claimsJson document fault => "Failed to parse JWT claims: " ++ w.claims document fault
  | noAlgorithm => "JWT header has no algorithm"
  | forbiddenAlgorithm name => "Algorithm '" ++ name ++ "' is not allowed for security reasons"
  | unsupportedAlgorithm name =>
      "Algorithm '" ++ name ++ "' is not in accepted list (only RS256 is supported)"
  | keyId fault => fault.message
  | other message => message

/-- The wording of the refusal of a token for a reason. -/
def refusedToken (reason : String) : String :=
  "Invalid token format: " ++ reason

/-- The algorithms that are never accepted. -/
def refusedAlgorithms : List String := ["none", "HS256", "HS384", "HS512"]

/-- The algorithm of all tokens. -/
def acceptedAlgorithm : String := "RS256"

/-- Checks the algorithm that a header names. -/
def checkAlgorithm (name : String) : Except TokenFault Unit :=
  if name ∈ refusedAlgorithms then .error (.forbiddenAlgorithm name)
  else if name ≠ acceptedAlgorithm then .error (.unsupportedAlgorithm name)
  else .ok ()

theorem checkAlgorithm_eq_ok_iff (name : String) :
    checkAlgorithm name = .ok () ↔ name = "RS256" := by
  by_cases h : name = "RS256"
  · subst h
    simp [checkAlgorithm, refusedAlgorithms, acceptedAlgorithm]
  · simp only [checkAlgorithm, acceptedAlgorithm]
    split <;> simp_all

end BearerAuth
