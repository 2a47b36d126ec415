/-!
# Events

What the library reports about its work for those who watch it.  Events carry the reasons that
answers withhold; only their level and wording are part of the library.
-/

namespace BearerAuth

/-- How important an event is. -/
inductive Level where
  | debug
  | info
  | warn
  | error
deriving DecidableEq, Repr

/-- A level as it is written. -/
def Level.name : Level → String
  | debug => "DEBUG"
  | info => "INFO"
  | warn => "WARN"
  | error => "ERROR"

/-- Something that happened. -/
inductive Event where
  | privateKeyLookupFailed
  | tokenIssued
  | cacheHit
  | cacheMiss
  | publicKeyLookupFailed
  | cachePopulated
  | publicKeyRejected
  | tokenVerificationFailed
  | tokenRejectedByPolicy
  | authenticationPolicyFailed
  | undecodableClaims
  | accessDenied
  | authorizationPolicyFailed
  | malformedRequest
  | requestAuthenticationFailed
  | claimsMissing
  | undecodableParameter
  | requestAuthorizationFailed
  | keyFileSkipped
  | keyLoaded
  | storeLoaded
deriving DecidableEq, Repr

namespace Event

/-- The level of an event. -/
def level : Event → Level
  | tokenIssued | cacheHit | cacheMiss | cachePopulated | publicKeyRejected
  | tokenVerificationFailed | tokenRejectedByPolicy | accessDenied | malformedRequest
  | undecodableParameter | keyLoaded => .debug
  | requestAuthenticationFailed | requestAuthorizationFailed | storeLoaded => .info
  | privateKeyLookupFailed | publicKeyLookupFailed | authenticationPolicyFailed
  | undecodableClaims | authorizationPolicyFailed | claimsMissing | keyFileSkipped => .warn

/-- The wording of an event. -/
def message : Event → String
  | privateKeyLookupFailed => "private key lookup failed"
  | tokenIssued => "token issued"
  | cacheHit => "cache hit"
  | cacheMiss => "cache miss"
  | publicKeyLookupFailed => "public key lookup failed"
  | cachePopulated => "cache populated"
  | publicKeyRejected => "public key rejected"
  | tokenVerificationFailed => "token verification failed"
  | tokenRejectedByPolicy => "token rejected by policy"
  | authenticationPolicyFailed => "authentication policy evaluation failed"
  | undecodableClaims => "accepted token carries undecodable claims"
  | accessDenied => "access denied by policy"
  | authorizationPolicyFailed => "authorization policy evaluation failed"
  | malformedRequest => "malformed authentication request"
  | requestAuthenticationFailed => "request authentication failed"
  | claimsMissing => "authorize reached without claims"
  | undecodableParameter => "undecodable path parameter"
  | requestAuthorizationFailed => "request authorization failed"
  | keyFileSkipped => "skipping key file with non UTF-8 name"
  | keyLoaded => "loaded signing key"
  | storeLoaded => "key store loaded"

/-- An event as one line. -/
def describe (e : Event) : String :=
  e.level.name ++ " " ++ e.message

end Event

end BearerAuth
