import BearerAuth.KeySource
import BearerAuth.Policy

/-!
# The service

A service issues tokens under its active key, decides whether a bearer is to be believed, and
decides whether a caller may act.  Public keys are fetched from the source at most once each: what
was fetched stays in the cache for good, and a failed fetch leaves no trace.

Every operation is a step from a state to a result, the next state and the events on the way.  A
step that breaks off leaves the state and the events that it had come to.
-/

namespace BearerAuth

/-- The public keys that were fetched, by their ids. -/
abbrev KeyCache := Registry String

/-- What a step of a service can change. -/
structure ServiceState (σ : Type) where
  cache : KeyCache
  source : σ

/-- What surrounds a step: the clock, and whether fetching of keys is blocked. -/
structure Surroundings where
  now : Clock
  fetchBlocked : Bool

/-- What a step comes to. -/
structure Outcome (σ ρ : Type) where
  result : ρ
  state : ServiceState σ
  events : List Event

/-- A service over a source of keys. -/
structure AuthService (σ : Type) where
  config : AuthConfig
  source : KeySource σ
  policy : Evaluator

variable {σ : Type}

namespace KeyCache

/-- The failure of a fetch that is blocked. -/
def blockedFetch : KeyFailure := .internal "injected failure before key fetch"

/-- The public key of a key id: from the cache, or else from the source, in which case it is
kept. -/
def lookup (source : KeySource σ) (fetchBlocked : Bool) (kid : String) (s : ServiceState σ) :
    Outcome σ (Except AuthFailure String) :=
  match s.cache.find? kid with
  | some pem => ⟨.ok pem, s, [.cacheHit]⟩
  | none =>
      if fetchBlocked then ⟨.error (.keyLookup kid blockedFetch), s, [.cacheMiss]⟩
      else
        match source.publicPem kid s.source with
        | (.ok pem, next) =>
            ⟨.ok pem, ⟨s.cache.insert kid pem, next⟩, [.cacheMiss, .cachePopulated]⟩
        | (.error e, next) =>
            ⟨.error (.keyLookup kid e), ⟨s.cache, next⟩, [.cacheMiss, .publicKeyLookupFailed]⟩

end KeyCache

namespace AuthService

/-- The service with the rules that the library knows. -/
def standard (config : AuthConfig) (source : KeySource σ) : AuthService σ :=
  ⟨config, source, (RuleTable.standard config.leeway).toEvaluator⟩

/-- The state before the first step. -/
def start (source : σ) : ServiceState σ := ⟨Registry.empty, source⟩

/-- The token in a header of the form `Bearer <token>`: two parts with one space between them. -/
def bearerToken? (value : String) : Option String :=
  match Text.cutFirst ' ' value.toList with
  | some (scheme, token) =>
      if scheme = "Bearer".toList ∧ ' ' ∉ token then some (String.ofList token) else none
  | none => none

/-- Issues a token under the active key. -/
def issueToken (svc : AuthService σ) (claims : Claims) (s : ServiceState σ) :
    Outcome σ (Except AuthFailure String) :=
  let kid := svc.config.activeKid
  match svc.source.privatePem kid s.source with
  | (.error e, next) =>
      ⟨.error (.keyLookup kid e), ⟨s.cache, next⟩, [.privateKeyLookupFailed]⟩
  | (.ok pem, next) =>
      match Token.encode claims kid pem with
      | .error e => ⟨.error e, ⟨s.cache, next⟩, []⟩
      | .ok token => ⟨.ok token, ⟨s.cache, next⟩, [.tokenIssued]⟩

/-- What the policy makes of a token under a public key, and the claims of a token it accepts. -/
def judgeToken (svc : AuthService σ) (now : Clock) (pem token : String) :
    Ending AuthFailure Claims × List Event :=
  let ruling := svc.policy.evaluate .authentication RuleName.authenticate
    (.authentication pem token) now
  match ruling.answer with
  | .ok true =>
      match Token.carriedClaims token with
      | .ok claims => (.ok claims, ruling.events)
      | .error _ => (.error .authenticationFailed, ruling.events ++ [.undecodableClaims])
  | .ok false => (.error .authenticationFailed, ruling.events ++ [.tokenRejectedByPolicy])
  | .error (.overflow reason) => (.interrupted reason, ruling.events)
  | .error _ => (.error .authenticationFailed, ruling.events ++ [.authenticationPolicyFailed])

/-- Authenticates a header: the claims of its token, if the token names a key that can be found and
the policy accepts it under that key. -/
def authenticate (svc : AuthService σ) (around : Surroundings) (bearer : String)
    (s : ServiceState σ) : Outcome σ (Ending AuthFailure Claims) :=
  match bearerToken? bearer with
  | none => ⟨.error .malformedHeader, s, []⟩
  | some token =>
      match Token.namedKid token with
      | .error e => ⟨.error e, s, []⟩
      | .ok kid =>
          let found := KeyCache.lookup svc.source around.fetchBlocked kid s
          match found.result with
          | .error e => ⟨.error e, found.state, found.events⟩
          | .ok pem =>
              let (result, events) := svc.judgeToken around.now pem token
              ⟨result, found.state, found.events ++ events⟩

/-- Decides whether the holder of claims may act on a user under a rule.  No rule that is asked this
breaks off. -/
def authorize (svc : AuthService σ) (now : Clock) (claims : Claims) (userId : UserId)
    (rule : String) : Except AuthFailure Unit × List Event :=
  let ruling := svc.policy.evaluate .authorization rule
    (.authorization claims.roles claims.subject userId) now
  match ruling.answer with
  | .ok true => (.ok (), ruling.events)
  | .ok false => (.error .authorizationFailed, ruling.events ++ [.accessDenied])
  | .error _ => (.error .authorizationFailed, ruling.events ++ [.authorizationPolicyFailed])

/-- A service as shown for debugging. -/
def describe (svc : AuthService σ) (s : ServiceState σ) : String :=
  "AuthService \x7b config: " ++ svc.config.describe ++ ", key_cache: KeyCache \x7b kids: " ++
    Text.quotedList "[" "]" s.cache.names ++ ", .. \x7d, .. \x7d"

end AuthService

end BearerAuth
