import Mathlib
import BearerAuth.Proofs.Gateway.Rejections

/-!
# Complete mediation

A stack of layers may hold authentication and authorization layers in any number and order.  This
file shows that no order opens a way around them: a handler runs only for a bearer whom the
outermost authentication layer believed and to whom the policy allows every rule of the stack.

The induction over the layers rests on one invariant.  Once a layer has authenticated a request, the
state is settled: authenticating the request again finds the key in the cache, reaches the same
claims and changes nothing, so that the layers inside can neither lose the claims nor replace them.

Main statement: `handler_runs_iff_mediated`.
-/

namespace BearerAuth

variable {σ : Type}

/-! ### What the layers ask for -/

/-- The path can be read: its parameters decode, and the one that names a user holds an id. -/
def Request.Readable (r : Request) : Prop :=
  r.parameters ≠ .undecodable ∧
    ∀ text, r.parameters.find? Gateway.userParameter = some text →
      ∃ id, UserId.parse? text = some id

/-- The user that the path names by an id. -/
def Request.named? (r : Request) : Option UserId :=
  (r.parameters.find? Gateway.userParameter).bind UserId.parse?

/-- The policy says yes to the holder of claims who wants to act on a user under a rule. -/
def AuthService.Permits (svc : AuthService σ) (now : Clock) (claims : Claims) (userId : UserId)
    (rule : String) : Prop :=
  (svc.policy.evaluate .authorization rule
    (.authorization claims.roles claims.subject userId) now).answer = .ok true

namespace AuthService

variable {svc : AuthService σ} {around : Surroundings} {bearer : String} {s : ServiceState σ}
  {claims : Claims}

/-- Only what the policy permits is authorized, and a refusal has no reason. -/
theorem authorize_fst (svc : AuthService σ) (now : Clock) (claims : Claims) (userId : UserId)
    (rule : String) :
    (svc.Permits now claims userId rule ∧
      (svc.authorize now claims userId rule).1 = .ok ()) ∨
    (¬ svc.Permits now claims userId rule ∧
      (svc.authorize now claims userId rule).1 = .error .authorizationFailed) := by
  unfold authorize Permits
  dsimp only
  split
  · rename_i hanswer
    exact .inl ⟨hanswer, rfl⟩
  · rename_i hanswer
    exact .inr ⟨by simp [hanswer], rfl⟩
  · rename_i e hanswer
    exact .inr ⟨by simp [hanswer], rfl⟩

/-- Whoever was believed is believed again with the same claims, and the state stays as it is. -/
theorem authenticate_again (h : (svc.authenticate around bearer s).result = .ok claims) :
    (svc.authenticate around bearer (svc.authenticate around bearer s).state).result = .ok claims ∧
      (svc.authenticate around bearer (svc.authenticate around bearer s).state).state =
        (svc.authenticate around bearer s).state := by
  rcases authenticate_cases svc around bearer s with ⟨-, heq⟩ | ⟨token, e, -, -, heq⟩ |
    ⟨token, kid, e, -, -, -, heq⟩ | ⟨token, kid, pem, htoken, hkid, hfound, heq⟩
  · rw [heq] at h
    cases h
  · rw [heq] at h
    cases h
  · rw [heq] at h
    cases h
  · -- the second lookup finds the key that the first one left in the cache
    have hagain : KeyCache.lookup svc.source around.fetchBlocked kid
          (KeyCache.lookup svc.source around.fetchBlocked kid s).state =
        ⟨.ok pem, (KeyCache.lookup svc.source around.fetchBlocked kid s).state, [.cacheHit]⟩ :=
      KeyCache.lookup_of_cached (KeyCache.find?_cache_of_lookup hfound)
    rw [heq] at h ⊢
    dsimp only at h ⊢
    rw [authenticate_of_lookup_ok htoken hkid (by rw [hagain]), hagain]
    exact ⟨h, rfl⟩

/-- What goes wrong while a header is authenticated is answered as a lack of authority, or as a
source of keys that cannot be reached. -/
theorem ofError_of_authenticate {e : AuthFailure}
    (h : (svc.authenticate around bearer s).result = .error e) :
    Rejection.ofError e = .unauthorized ∨ Rejection.ofError e = .unavailable := by
  rcases ofError_of_authenticate_cases h with ⟨-, hunavailable⟩ | ⟨-, hunauthorized⟩
  · exact .inr hunavailable
  · exact .inl hunauthorized

end AuthService

namespace Gateway

/-- Every authorization layer of a stack has an authentication layer outside it. -/
def Guarded (layers : List Layer) : Prop :=
  ∀ outer rule inner, layers = outer ++ .authorize rule :: inner → .authenticate ∈ outer

theorem guarded_nil : Guarded [] := by
  intro outer rule inner h
  simp at h

/-- An outermost authentication layer guards every stack. -/
theorem guarded_authenticate_cons (layers : List Layer) : Guarded (.authenticate :: layers) := by
  intro outer rule inner h
  cases outer with
  | nil => cases h
  | cons layer outer =>
    obtain ⟨rfl, -⟩ := List.cons.inj h
    exact List.mem_cons_self

/-- Nothing guards an outermost authorization layer. -/
theorem not_guarded_authorize_cons (rule : String) (layers : List Layer) :
    ¬ Guarded (.authorize rule :: layers) := by
  intro h
  exact absurd (h [] rule layers rfl) (by simp)

variable {svc : AuthService σ} {around : Surroundings} {r : Request} {s : ServiceState σ}
  {c : Context} {claims : Claims} {rule : String}

/-! ### One layer -/

/-- A user in the path is found exactly in a readable path. -/
theorem target_eq_ok (hread : r.Readable) :
    target r = .ok r.named? := by
  unfold target Request.named?
  cases hfind : r.parameters.find? userParameter with
  | none => rfl
  | some text =>
    obtain ⟨id, hid⟩ := hread.2 text hfind
    simp [hid]

/-- Text in the place of a user that is no id is refused. -/
theorem target_eq_error (hdecoded : r.parameters ≠ .undecodable) (hread : ¬ r.Readable) :
    target r = .error .invalidId := by
  unfold target
  cases hfind : r.parameters.find? userParameter with
  | none => exact absurd ⟨hdecoded, fun text htext => by simp [hfind] at htext⟩ hread
  | some text =>
    cases hid : UserId.parse? text with
    | none => simp [hid]
    | some id =>
      refine absurd ⟨hdecoded, fun other hother => ?_⟩ hread
      rw [hfind] at hother
      obtain rfl := Option.some.inj hother
      exact ⟨id, hid⟩

/-- An authorization layer looks no key up. -/
theorem pass_authorize_state : (pass svc around r (.authorize rule) c s).state = s := rfl

/-- Nobody passes an authorization layer without claims. -/
theorem pass_authorize_of_noClaims (h : c.claims = none) :
    (pass svc around r (.authorize rule) c s).result = .error .forbidden := by
  simp [pass, authorize, h]

/-- Nobody passes an authorization layer on a path that cannot be read. -/
theorem pass_authorize_of_unreadable (hclaims : c.claims = some claims) (hread : ¬ r.Readable) :
    (pass svc around r (.authorize rule) c s).result = .error .invalidId := by
  unfold pass authorize
  dsimp only
  rw [hclaims]
  by_cases hdecoded : r.parameters = .undecodable
  · simp [hdecoded]
  · simp [hdecoded, target_eq_error hdecoded hread]

/-- A permitted request passes an authorization layer, which puts down the user named. -/
theorem pass_authorize_of_permits (hclaims : c.claims = some claims) (hread : r.Readable)
    (hpermits : svc.Permits around.now claims (r.named?.getD UserId.nil) rule) :
    (pass svc around r (.authorize rule) c s).result =
      .ok { c with target := r.named? <|> c.target } := by
  rcases svc.authorize_fst around.now claims (r.named?.getD UserId.nil) rule with
    ⟨-, hdecision⟩ | ⟨hnot, -⟩
  · unfold pass authorize
    simp only [hclaims, if_neg hread.1, target_eq_ok hread, hdecision]
  · exact absurd hpermits hnot

/-- A request that the policy does not permit is forbidden. -/
theorem pass_authorize_of_not_permits (hclaims : c.claims = some claims) (hread : r.Readable)
    (hpermits : ¬ svc.Permits around.now claims (r.named?.getD UserId.nil) rule) :
    (pass svc around r (.authorize rule) c s).result = .error .forbidden := by
  rcases svc.authorize_fst around.now claims (r.named?.getD UserId.nil) rule with
    ⟨hyes, -⟩ | ⟨-, hdecision⟩
  · exact absurd hyes hpermits
  · unfold pass authorize
    simp only [hclaims, if_neg hread.1, target_eq_ok hread, hdecision]
    rfl

/-- An authorization layer never breaks off. -/
theorem pass_authorize_ne_interrupted {reason : Overflow} :
    (pass svc around r (.authorize rule) c s).result ≠ .interrupted reason := by
  cases hclaims : c.claims with
  | none => simp [pass_authorize_of_noClaims hclaims]
  | some claims =>
    by_cases hread : r.Readable
    · by_cases hpermits : svc.Permits around.now claims (r.named?.getD UserId.nil) rule
      · simp [pass_authorize_of_permits hclaims hread hpermits]
      · simp [pass_authorize_of_not_permits hclaims hread hpermits]
    · simp [pass_authorize_of_unreadable hclaims hread]

/-- An authentication layer puts down the claims of a bearer who is believed. -/
theorem pass_authenticate_of_ok
    (h : (svc.authenticate around (headerText r) s).result = .ok claims) :
    (pass svc around r .authenticate c s).result = .ok { c with claims := some claims } := by
  simp [pass, authenticate, h]

/-- An authentication layer turns away a bearer who is not believed. -/
theorem pass_authenticate_of_error {e : AuthFailure}
    (h : (svc.authenticate around (headerText r) s).result = .error e) :
    (pass svc around r .authenticate c s).result = .error (Rejection.ofError e) := by
  simp [pass, authenticate, h]

/-- An authentication layer breaks off where authentication does. -/
theorem pass_authenticate_of_interrupted {reason : Overflow}
    (h : (svc.authenticate around (headerText r) s).result = .interrupted reason) :
    (pass svc around r .authenticate c s).result = .interrupted reason := by
  simp [pass, authenticate, h]

/-- The state behind an authentication layer is the one that authentication leaves. -/
theorem pass_authenticate_state :
    (pass svc around r .authenticate c s).state =
      (svc.authenticate around (headerText r) s).state := by
  unfold pass authenticate
  dsimp only
  split <;> rfl

/-! ### A stack of layers -/

/-- The rules of the authorization layers of a stack. -/
def rules (layers : List Layer) : List String :=
  layers.filterMap fun
    | .authorize rule => some rule
    | .authenticate => none

@[simp] theorem rules_authenticate_cons (layers : List Layer) :
    rules (.authenticate :: layers) = rules layers := rfl

@[simp] theorem rules_authorize_cons (rule : String) (layers : List Layer) :
    rules (.authorize rule :: layers) = rule :: rules layers := rfl

/-- A request that a layer turns away goes no further. -/
theorem passAll_cons_of_error {layer : Layer} {layers : List Layer} {rejection : Rejection}
    (h : (pass svc around r layer c s).result = .error rejection) :
    (passAll svc around r (layer :: layers) c s).result = .error rejection := by
  simp [passAll, h]

/-- A request at which a layer breaks off goes no further. -/
theorem passAll_cons_of_interrupted {layer : Layer} {layers : List Layer} {reason : Overflow}
    (h : (pass svc around r layer c s).result = .interrupted reason) :
    (passAll svc around r (layer :: layers) c s).result = .interrupted reason := by
  simp [passAll, h]

/-- A request that a layer lets pass goes on to the layers inside. -/
theorem passAll_cons_of_ok {layer : Layer} {layers : List Layer} {c' : Context}
    {s' : ServiceState σ} (hresult : (pass svc around r layer c s).result = .ok c')
    (hstate : (pass svc around r layer c s).state = s') :
    (passAll svc around r (layer :: layers) c s).result =
      (passAll svc around r layers c' s').result := by
  simp [passAll, hresult, hstate]

/-- The request is known to be the holder's of claims, and to authenticate it once more changes
nothing. -/
structure Settled (svc : AuthService σ) (around : Surroundings) (r : Request) (claims : Claims)
    (c : Context) (s : ServiceState σ) : Prop where
  noted : c.claims = some claims
  result : (svc.authenticate around (headerText r) s).result = .ok claims
  state : (svc.authenticate around (headerText r) s).state = s

/-- What an authentication layer puts down is settled. -/
theorem settled_of_authenticate
    (h : (svc.authenticate around (headerText r) s).result = .ok claims) (c : Context) :
    Settled svc around r claims { c with claims := some claims }
      (svc.authenticate around (headerText r) s).state where
  noted := rfl
  result := (AuthService.authenticate_again h).1
  state := (AuthService.authenticate_again h).2

/-- A further authentication layer changes nothing. -/
theorem pass_authenticate_of_settled (h : Settled svc around r claims c s) :
    (pass svc around r .authenticate c s).result = .ok c ∧
      (pass svc around r .authenticate c s).state = s := by
  refine ⟨?_, pass_authenticate_state.trans h.state⟩
  rw [pass_authenticate_of_ok h.result, ← h.noted]

/-- What an authorization layer puts down leaves the request settled. -/
theorem Settled.withTarget (h : Settled svc around r claims c s) (target : Option UserId) :
    Settled svc around r claims { c with target } s :=
  ⟨h.noted, h.result, h.state⟩

/-- Layers whose rules are permitted let a settled request pass. -/
theorem passAll_of_permits {layers : List Layer} (h : Settled svc around r claims c s)
    (hread : rules layers ≠ [] → r.Readable)
    (hpermits : ∀ rule ∈ rules layers,
      svc.Permits around.now claims (r.named?.getD UserId.nil) rule)
    (htarget : c.target = none ∨ c.target = r.named?) :
    (passAll svc around r layers c s).result =
      .ok { c with target := if rules layers = [] then c.target else r.named? } := by
  induction layers generalizing c with
  | nil => rfl
  | cons layer layers ih =>
    cases layer with
    | authenticate =>
      obtain ⟨hresult, hstate⟩ := pass_authenticate_of_settled h
      rw [passAll_cons_of_ok hresult hstate]
      exact ih h hread hpermits htarget
    | authorize rule =>
      have hreadable : r.Readable := hread (by simp)
      have hsame : (r.named? <|> c.target) = r.named? := by
        rcases htarget with ht | ht <;> rw [ht] <;> cases r.named? <;> rfl
      have hpassed : (pass svc around r (.authorize rule) c s).result =
          .ok { c with target := r.named? } := by
        rw [pass_authorize_of_permits h.noted hreadable (hpermits rule (by simp)), hsame]
      rw [passAll_cons_of_ok hpassed pass_authorize_state, ih (h.withTarget r.named?)
        (fun _ => hreadable) (fun rule hrule => hpermits rule (by simp [hrule])) (.inr rfl)]
      simp

/-- The first authorization layer turns a request away whose path cannot be read. -/
theorem passAll_of_unreadable {layers : List Layer} (h : Settled svc around r claims c s)
    (hrules : rules layers ≠ []) (hread : ¬ r.Readable) :
    (passAll svc around r layers c s).result = .error .invalidId := by
  induction layers with
  | nil => exact absurd rfl hrules
  | cons layer layers ih =>
    cases layer with
    | authenticate =>
      obtain ⟨hresult, hstate⟩ := pass_authenticate_of_settled h
      rw [passAll_cons_of_ok hresult hstate]
      exact ih hrules
    | authorize rule => exact passAll_cons_of_error (pass_authorize_of_unreadable h.noted hread)

/-- One rule that is not permitted keeps a request from the handler. -/
theorem passAll_of_not_permits {layers : List Layer} (h : Settled svc around r claims c s)
    (hread : r.Readable)
    (hpermits : ∃ rule ∈ rules layers,
      ¬ svc.Permits around.now claims (r.named?.getD UserId.nil) rule) :
    (passAll svc around r layers c s).result = .error .forbidden := by
  induction layers generalizing c with
  | nil =>
    obtain ⟨rule, hmem, -⟩ := hpermits
    cases hmem
  | cons layer layers ih =>
    cases layer with
    | authenticate =>
      obtain ⟨hresult, hstate⟩ := pass_authenticate_of_settled h
      rw [passAll_cons_of_ok hresult hstate]
      exact ih h hpermits
    | authorize first =>
      by_cases hfirst : svc.Permits around.now claims (r.named?.getD UserId.nil) first
      · -- this layer lets the request pass, so a layer inside holds the rule
        obtain ⟨rule, hmem, hnot⟩ := hpermits
        have hinside : rule ∈ rules layers := by
          rcases List.mem_cons.mp hmem with rfl | hinside
          · exact absurd hfirst hnot
          · exact hinside
        rw [passAll_cons_of_ok (pass_authorize_of_permits h.noted hread hfirst)
          pass_authorize_state]
        exact ih (h.withTarget _) ⟨rule, hinside, hnot⟩
      · exact passAll_cons_of_error (pass_authorize_of_not_permits h.noted hread hfirst)

/-! ### Main statement -/

/-- The ways of a stack of layers to end. -/
inductive StackEnding (svc : AuthService σ) (around : Surroundings) (r : Request)
    (layers : List Layer) (s : ServiceState σ) : Ending Rejection Context → Prop
  /-- There is no layer. -/
  | empty (layerless : layers = []) : StackEnding svc around r layers s (.ok .empty)
  /-- An outermost authorization layer forbids everything. -/
  | unguarded (bare : ¬ Guarded layers) : StackEnding svc around r layers s (.error .forbidden)
  /-- The outermost authentication layer turns the request away. -/
  | refused {e : AuthFailure} (guarded : Guarded layers) (asks : .authenticate ∈ layers)
      (result : (svc.authenticate around (headerText r) s).result = .error e) :
      StackEnding svc around r layers s (.error (Rejection.ofError e))
  /-- The outermost authentication layer breaks off. -/
  | brokenOff {reason : Overflow} (guarded : Guarded layers) (asks : .authenticate ∈ layers)
      (result : (svc.authenticate around (headerText r) s).result = .interrupted reason) :
      StackEnding svc around r layers s (.interrupted reason)
  /-- An authorization layer turns the request away because of the path. -/
  | unreadable {claims : Claims} (guarded : Guarded layers) (asks : .authenticate ∈ layers)
      (result : (svc.authenticate around (headerText r) s).result = .ok claims)
      (ruled : rules layers ≠ []) (unread : ¬ r.Readable) :
      StackEnding svc around r layers s (.error .invalidId)
  /-- An authorization layer turns the request away because of a rule. -/
  | forbidden {claims : Claims} (guarded : Guarded layers) (asks : .authenticate ∈ layers)
      (result : (svc.authenticate around (headerText r) s).result = .ok claims)
      (readable : r.Readable)
      (refusal : ∃ rule ∈ rules layers,
        ¬ svc.Permits around.now claims (r.named?.getD UserId.nil) rule) :
      StackEnding svc around r layers s (.error .forbidden)
  /-- The handler runs. -/
  | passed {claims : Claims} (guarded : Guarded layers) (asks : .authenticate ∈ layers)
      (result : (svc.authenticate around (headerText r) s).result = .ok claims)
      (readable : rules layers ≠ [] → r.Readable)
      (permits : ∀ rule ∈ rules layers,
        svc.Permits around.now claims (r.named?.getD UserId.nil) rule) :
      StackEnding svc around r layers s
        (.ok ⟨some claims, if rules layers = [] then none else r.named?⟩)

/-- A stack ends in one of these ways. -/
theorem stackEnding_passAll (svc : AuthService σ) (around : Surroundings) (r : Request)
    (layers : List Layer) (s : ServiceState σ) :
    StackEnding svc around r layers s (passAll svc around r layers .empty s).result := by
  cases layers with
  | nil => exact .empty rfl
  | cons layer layers =>
    cases layer with
    | authorize rule =>
      rw [passAll_cons_of_error (pass_authorize_of_noClaims rfl)]
      exact .unguarded (not_guarded_authorize_cons rule layers)
    | authenticate =>
      have hguarded := guarded_authenticate_cons layers
      have hasks : Layer.authenticate ∈ .authenticate :: layers := List.mem_cons_self
      cases hresult : (svc.authenticate around (headerText r) s).result with
      | error e =>
        rw [passAll_cons_of_error (pass_authenticate_of_error hresult)]
        exact .refused hguarded hasks hresult
      | interrupted reason =>
        rw [passAll_cons_of_interrupted (pass_authenticate_of_interrupted hresult)]
        exact .brokenOff hguarded hasks hresult
      | ok claims =>
        have hsettled := settled_of_authenticate hresult .empty
        rw [passAll_cons_of_ok (pass_authenticate_of_ok hresult) pass_authenticate_state]
        by_cases hread : rules layers ≠ [] → r.Readable
        · by_cases hpermits : ∀ rule ∈ rules layers,
            svc.Permits around.now claims (r.named?.getD UserId.nil) rule
          · rw [passAll_of_permits hsettled hread hpermits (.inl rfl)]
            exact .passed hguarded hasks hresult hread hpermits
          · push Not at hpermits
            have hreadable : r.Readable := by
              obtain ⟨rule, hmem, -⟩ := hpermits
              exact hread (List.ne_nil_of_mem hmem)
            rw [passAll_of_not_permits hsettled hreadable hpermits]
            exact .forbidden hguarded hasks hresult hreadable hpermits
        · push Not at hread
          rw [passAll_of_unreadable hsettled hread.1 hread.2]
          exact .unreadable hguarded hasks hresult hread.1 hread.2

/-- When the handler runs, and what it sees. -/
theorem passAll_eq_ok_iff {context : Context} {layers : List Layer} :
    (passAll svc around r layers .empty s).result = .ok context ↔
      Guarded layers ∧
      (.authenticate ∈ layers →
        ∃ claims, (svc.authenticate around (headerText r) s).result = .ok claims) ∧
      (rules layers ≠ [] → r.Readable ∧ ∀ rule ∈ rules layers,
        ∃ claims, (svc.authenticate around (headerText r) s).result = .ok claims ∧
          svc.Permits around.now claims (r.named?.getD UserId.nil) rule) ∧
      context.claims = (if .authenticate ∈ layers then
        (svc.authenticate around (headerText r) s).result.toOption else none) ∧
      context.target = (if rules layers = [] then none else r.named?) := by
  have hends := stackEnding_passAll svc around r layers s
  generalize (passAll svc around r layers .empty s).result = result at hends ⊢
  cases hends with
  | empty layerless =>
    subst layerless
    constructor
    · intro h
      obtain rfl := Ending.ok.inj h
      exact ⟨guarded_nil, fun h => absurd h (by simp), fun h => absurd rfl h, rfl, rfl⟩
    · rintro ⟨-, -, -, hclaims, htarget⟩
      obtain ⟨found, target⟩ := context
      obtain rfl : found = none := hclaims
      obtain rfl : target = none := htarget
      rfl
  | unguarded bare => simp [bare]
  | refused guarded asks result => simp [asks, result]
  | brokenOff guarded asks result => simp [asks, result]
  | unreadable guarded asks result ruled unread => simp [ruled, unread]
  | forbidden guarded asks result readable refusal =>
    obtain ⟨rule, hrule, hnot⟩ := refusal
    rw [result]
    constructor
    · intro h
      cases h
    · rintro ⟨-, -, hpermits, -⟩
      obtain ⟨found, hfound, hyes⟩ := (hpermits (List.ne_nil_of_mem hrule)).2 rule hrule
      obtain rfl := Ending.ok.inj hfound
      exact absurd hyes hnot
  | @passed claims guarded asks result readable permits =>
    rw [result, if_pos asks]
    constructor
    · intro h
      obtain rfl := Ending.ok.inj h
      exact ⟨guarded, fun _ => ⟨claims, rfl⟩,
        fun hrules => ⟨readable hrules, fun rule hrule => ⟨claims, rfl, permits rule hrule⟩⟩,
        rfl, rfl⟩
    · rintro ⟨-, -, -, hclaims, htarget⟩
      obtain ⟨found, target⟩ := context
      obtain rfl : found = some claims := hclaims
      obtain rfl := htarget
      rfl

/-- When a request is turned away, and how. -/
theorem passAll_eq_error_iff {rejection : Rejection} {layers : List Layer} :
    (passAll svc around r layers .empty s).result = .error rejection ↔
      (¬ Guarded layers ∧ rejection = .forbidden) ∨
      (Guarded layers ∧ .authenticate ∈ layers ∧
        ∃ e, (svc.authenticate around (headerText r) s).result = .error e ∧
          rejection = Rejection.ofError e ∧
          (rejection = .unauthorized ∨ rejection = .unavailable)) ∨
      (Guarded layers ∧ .authenticate ∈ layers ∧
        ∃ claims, (svc.authenticate around (headerText r) s).result = .ok claims ∧
          ((rules layers ≠ [] ∧ ¬ r.Readable ∧ rejection = .invalidId) ∨
            (r.Readable ∧ (∃ rule ∈ rules layers,
                ¬ svc.Permits around.now claims (r.named?.getD UserId.nil) rule) ∧
              rejection = .forbidden))) := by
  have hends := stackEnding_passAll svc around r layers s
  generalize (passAll svc around r layers .empty s).result = result at hends ⊢
  cases hends with
  | empty layerless => simp [layerless, guarded_nil]
  | unguarded bare =>
    rw [Ending.error.injEq, @eq_comm _ _ rejection]
    simp [bare]
  | @refused e guarded asks result =>
    have hanswer := AuthService.ofError_of_authenticate result
    rw [Ending.error.injEq, @eq_comm _ _ rejection, result]
    constructor
    · rintro rfl
      exact .inr (.inl ⟨guarded, asks, e, rfl, rfl, hanswer⟩)
    · rintro (⟨hnot, -⟩ | ⟨-, -, other, hother, hrejection, -⟩ | ⟨-, -, claims, hclaims, -⟩)
      · exact absurd guarded hnot
      · obtain rfl := Ending.error.inj hother
        exact hrejection
      · cases hclaims
  | brokenOff guarded asks result => simp [guarded, result]
  | unreadable guarded asks result ruled unread =>
    rw [Ending.error.injEq, @eq_comm _ _ rejection]
    simp [guarded, asks, result, ruled, unread]
  | forbidden guarded asks result readable refusal =>
    rw [Ending.error.injEq, @eq_comm _ _ rejection]
    simp only [guarded, asks, result, readable]
    simpa using fun _ => refusal
  | passed guarded asks result readable permits =>
    rw [result]
    constructor
    · intro h
      cases h
    · rintro (⟨hnot, -⟩ | ⟨-, -, e, he, -⟩ | ⟨-, -, found, hfound, hinside⟩)
      · exact absurd guarded hnot
      · cases he
      · obtain rfl := Ending.ok.inj hfound
        rcases hinside with ⟨hrules, hnot, -⟩ | ⟨-, ⟨rule, hrule, hnot⟩, -⟩
        · exact absurd (readable hrules) hnot
        · exact absurd (permits rule hrule) hnot

/-- When a request is left without an answer. -/
theorem passAll_eq_interrupted_iff {reason : Overflow} {layers : List Layer} :
    (passAll svc around r layers .empty s).result = .interrupted reason ↔
      Guarded layers ∧ .authenticate ∈ layers ∧
        (svc.authenticate around (headerText r) s).result = .interrupted reason := by
  have hends := stackEnding_passAll svc around r layers s
  generalize (passAll svc around r layers .empty s).result = result at hends ⊢
  cases hends with
  | empty layerless => simp [layerless]
  | unguarded bare => simp [bare]
  | refused guarded asks result => simp [result]
  | brokenOff guarded asks result => simp [guarded, asks, result]
  | unreadable guarded asks result ruled unread => simp [result]
  | forbidden guarded asks result readable refusal => simp [result]
  | passed guarded asks result readable permits => simp [result]

/-- Complete mediation.  Whatever the order of the layers, the handler runs exactly if every
authorization layer has an authentication layer outside it, the bearer is believed where the
stack authenticates, and the path can be read and every rule is permitted where the stack
authorizes.  What the handler then sees is the claims of the bearer and the user in the path, and
neither of them where no layer put it down.  Every other request is turned away, and its
rejection tells which of these conditions failed first, unless authentication breaks off, which
leaves it without an answer. -/
theorem handler_runs_iff_mediated (svc : AuthService σ) (around : Surroundings) (r : Request)
    (layers : List Layer) (s : ServiceState σ) :
    (∀ context, (passAll svc around r layers .empty s).result = .ok context ↔
      Guarded layers ∧
      (.authenticate ∈ layers →
        ∃ claims, (svc.authenticate around (headerText r) s).result = .ok claims) ∧
      (rules layers ≠ [] → r.Readable ∧ ∀ rule ∈ rules layers,
        ∃ claims, (svc.authenticate around (headerText r) s).result = .ok claims ∧
          svc.Permits around.now claims (r.named?.getD UserId.nil) rule) ∧
      context.claims = (if .authenticate ∈ layers then
        (svc.authenticate around (headerText r) s).result.toOption else none) ∧
      context.target = (if rules layers = [] then none else r.named?)) ∧
    (∀ rejection, (passAll svc around r layers .empty s).result = .error rejection ↔
      (¬ Guarded layers ∧ rejection = .forbidden) ∨
      (Guarded layers ∧ .authenticate ∈ layers ∧
        ∃ e, (svc.authenticate around (headerText r) s).result = .error e ∧
          rejection = Rejection.ofError e ∧
          (rejection = .unauthorized ∨ rejection = .unavailable)) ∨
      (Guarded layers ∧ .authenticate ∈ layers ∧
        ∃ claims, (svc.authenticate around (headerText r) s).result = .ok claims ∧
          ((rules layers ≠ [] ∧ ¬ r.Readable ∧ rejection = .invalidId) ∨
            (r.Readable ∧ (∃ rule ∈ rules layers,
                ¬ svc.Permits around.now claims (r.named?.getD UserId.nil) rule) ∧
              rejection = .forbidden)))) ∧
    ∀ reason, (passAll svc around r layers .empty s).result = .interrupted reason ↔
      Guarded layers ∧ .authenticate ∈ layers ∧
        (svc.authenticate around (headerText r) s).result = .interrupted reason :=
  ⟨fun _ => passAll_eq_ok_iff, fun _ => passAll_eq_error_iff, fun _ => passAll_eq_interrupted_iff⟩

end Gateway

end BearerAuth
