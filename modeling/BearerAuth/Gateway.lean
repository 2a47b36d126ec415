import BearerAuth.Gateway.Route
import BearerAuth.Service

/-!
# The gateway

Requests pass through layers on their way to a handler.  An authentication layer puts the claims of
the bearer into the context of the request; an authorization layer asks whether the bearer may act
under its rule.  A layer that turns a request away answers it with a response that tells nothing
about the reason, and the layers inside and the handler never see it.  Where a layer breaks off,
there is no response at all.
-/

namespace BearerAuth

/-! ### Rejections -/

/-- The status with which an error is answered. -/
def AuthFailure.status : AuthFailure → Nat
  | .keyLookup _ source => if source.mayPass then 503 else 401
  | .malformedHeader | .tokenParse _ | .missingKid | .kidType | .authenticationFailed => 401
  | .authorizationFailed => 403
  | .keyParse _ | .signing _ => 500

/-- How a request is turned away. -/
inductive Rejection where
  | unauthorized
  | forbidden
  /-- The id of the user in the path is not one. -/
  | invalidId
  /-- The source of keys cannot be reached for now. -/
  | unavailable
  | internal
deriving DecidableEq, Repr

namespace Rejection

/-- The status of a rejection. -/
def status : Rejection → Nat
  | unauthorized => 401
  | forbidden => 403
  | invalidId => 400
  | unavailable => 503
  | internal => 500

/-- What a rejection says. -/
def message : Rejection → String
  | unauthorized => "Unauthorized"
  | forbidden => "Forbidden"
  | invalidId => "invalid ID"
  | unavailable => "Service Unavailable"
  | internal => "Internal Server Error"

/-- The body of a rejection. -/
def body (r : Rejection) : String :=
  Json.object [("error", Json.quote r.message)]

/-- The type of the body of a rejection. -/
def contentType : String := "application/json"

/-- The rejection of a request that fails with an error. -/
def ofError (e : AuthFailure) : Rejection :=
  match e.status with
  | 401 => unauthorized
  | 403 => forbidden
  | 503 => unavailable
  | _ => internal

end Rejection

/-! ### Layers -/

/-- A layer around a handler. -/
inductive Layer where
  | authenticate
  | authorize (rule : String)
deriving DecidableEq, Repr

/-- An authorization layer for a rule that the configuration of the service declares. -/
def Layer.forRule (config : AuthConfig) (rule : String) : Except ConfigFault Layer :=
  (config.checkRule rule).map fun _ => .authorize rule

/-- A request that a route matches. -/
structure Request where
  /-- The values of the authorization headers, in order. -/
  authorization : List Bytes
  parameters : PathParameters

/-- What layers have put down for those inside. -/
structure Context where
  claims : Option Claims
  /-- The user that the path names. -/
  target : Option UserId
deriving DecidableEq

/-- Nothing put down. -/
def Context.empty : Context := ⟨none, none⟩

/-- What becomes of a request on its way to the handler. -/
structure Passage (σ : Type) where
  result : Ending Rejection Context
  state : ServiceState σ
  events : List Event

namespace Gateway

variable {σ : Type}

/-- The name of the parameter that names a user. -/
def userParameter : String := "user_id"

/-- A byte that a header shows as text: a visible character, a space or a tab. -/
def isHeaderByte (b : UInt8) : Bool :=
  b = 0x09 || (0x20 ≤ b && b ≤ 0x7E)

/-- The text of the first authorization header; empty if there is none or if it is not text. -/
def headerText (r : Request) : String :=
  match r.authorization with
  | value :: _ => if value.all isHeaderByte then value.text?.getD "" else ""
  | [] => ""

/-- Authenticates a request. -/
def authenticate (svc : AuthService σ) (around : Surroundings) (r : Request) (c : Context)
    (s : ServiceState σ) : Passage σ :=
  let outcome := svc.authenticate around (headerText r) s
  match outcome.result with
  | .ok claims => ⟨.ok { c with claims := some claims }, outcome.state, outcome.events⟩
  | .error e =>
      let event := if e.isMalformed then .malformedRequest else .requestAuthenticationFailed
      ⟨.error (Rejection.ofError e), outcome.state, outcome.events ++ [event]⟩
  | .interrupted reason => ⟨.interrupted reason, outcome.state, outcome.events⟩

/-- The user that a request names, if it names one. -/
def target (r : Request) : Except Rejection (Option UserId) :=
  match r.parameters.find? userParameter with
  | none => .ok none
  | some text =>
      match UserId.parse? text with
      | some id => .ok (some id)
      | none => .error .invalidId

/-- Asks whether the bearer may act under a rule.  The user acted on is the one that the path
names, or nil; only one that the path names is put down. -/
def authorize (svc : AuthService σ) (now : Clock) (rule : String) (r : Request) (c : Context) :
    Ending Rejection Context × List Event :=
  match c.claims with
  | none => (.error .forbidden, [.claimsMissing])
  | some claims =>
      if r.parameters = .undecodable then (.error .invalidId, [.undecodableParameter])
      else
        match target r with
        | .error rejection => (.error rejection, [])
        | .ok named =>
            let (decision, events) := svc.authorize now claims (named.getD UserId.nil) rule
            match decision with
            | .ok () => (.ok { c with target := named <|> c.target }, events)
            | .error e => (.error (Rejection.ofError e), events ++ [.requestAuthorizationFailed])

/-- Passes a request through a layer. -/
def pass (svc : AuthService σ) (around : Surroundings) (r : Request) (layer : Layer) (c : Context)
    (s : ServiceState σ) : Passage σ :=
  match layer with
  | .authenticate => authenticate svc around r c s
  | .authorize rule =>
      let (result, events) := authorize svc around.now rule r c
      ⟨result, s, events⟩

/-- Passes a request through layers, the outermost first.  The handler runs if the result is a
context, and sees that context. -/
def passAll (svc : AuthService σ) (around : Surroundings) (r : Request) :
    List Layer → Context → ServiceState σ → Passage σ
  | [], c, s => ⟨.ok c, s, []⟩
  | layer :: layers, c, s =>
      let passage := pass svc around r layer c s
      match passage.result with
      | .error _ | .interrupted _ => passage
      | .ok c =>
          let rest := passAll svc around r layers c passage.state
          ⟨rest.result, rest.state, passage.events ++ rest.events⟩

end Gateway

end BearerAuth
