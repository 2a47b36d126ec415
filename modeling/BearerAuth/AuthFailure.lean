import BearerAuth.KeyFailure
import BearerAuth.Token.Fault

/-!
# Failures of the service

Whatever is wrong with a signature, with the times of a token or with its claims ends as
`authenticationFailed`, and whatever a policy does not allow as `authorizationFailed`; both carry no
reason.  The other failures are found before any decision about trust.

Messages end with the words of the libraries underneath where a library found the reason.
-/

namespace BearerAuth

/-- Why a token cannot be signed. -/
inductive SigningFault where
  /-- The content is not an acceptable signing key. -/
  | unsuitableKey (content : Bytes)
  /-- The key does not verify what it signs. -/
  | inconsistentKey
deriving DecidableEq, Repr

/-- The wording of a fault. -/
def SigningFault.message (w : Wording) : SigningFault → String
  | unsuitableKey content => "RSA key invalid: " ++ w.signingKey content
  | inconsistentKey => "RsaFailedSigning"

/-- Why a token is not issued, not accepted, or not sufficient. -/
inductive AuthFailure where
  /-- The header is not `Bearer <token>`. -/
  | malformedHeader
  /-- The token cannot be taken apart. -/
  | tokenParse (fault : TokenFault)
  /-- The token names no key. -/
  | missingKid
  /-- The token names its key by something that is not a string. -/
  | kidType
  /-- The source of keys failed. -/
  | keyLookup (kid : String) (source : KeyFailure)
  /-- The private key is not a private key. -/
  | keyParse (kid : String)
  | signing (source : SigningFault)
  | authenticationFailed
  | authorizationFailed
deriving DecidableEq, Repr

namespace AuthFailure

/-- The wording of a private key that is none. -/
def keyFormatMessage : String := "InvalidKeyFormat"

/-- The wording of a failure. -/
def message (w : Wording) : AuthFailure → String
  | malformedHeader => "expected authorization header format: Bearer <token>"
  | tokenParse fault => refusedToken (fault.message w)
  | missingKid => "kid missing from token header"
  | kidType => "kid in token header is not a string"
  | keyLookup kid source => "Key lookup failed for " ++ kid ++ ": " ++ source.message w
  | keyParse kid => "Invalid private key for " ++ kid ++ ": " ++ keyFormatMessage
  | signing source => "Signing token failed: " ++ source.message w
  | authenticationFailed => "Authentication failed"
  | authorizationFailed => "Authorization failed"

/-- The wording of the failure behind a failure. -/
def sourceMessage? (w : Wording) : AuthFailure → Option String
  | keyLookup _ source => some (source.message w)
  | keyParse _ => some keyFormatMessage
  | signing source => some (source.message w)
  | _ => none

/-- The request itself is malformed: the failure precedes any decision about trust. -/
def isMalformed : AuthFailure → Bool
  | malformedHeader | tokenParse _ | missingKid | kidType => true
  | _ => false

end AuthFailure

end BearerAuth
