import Mathlib
import BearerAuth.Fixtures
import BearerAuth.Proofs.Gateway.Mediation

/-!
# Rejections tell nothing

Whoever is turned away learns no more than that.  Two requests that an authentication layer turns
away, of whatever services in whatever states, get the same response, unless one of them met an
outage of its source of keys and the other did not.  Two requests that an authorization layer turns
away get the same response, whatever the policy found.

Main statement: `Gateway.rejections_alike`.
-/

namespace BearerAuth

namespace AuthService

variable {σ : Type} {svc : AuthService σ} {around : Surroundings} {bearer : String}
  {s : ServiceState σ} {e : AuthFailure}

/-- Once the key is found, authentication fails for no reason that is told. -/
theorem eq_authenticationFailed_of_resolvesKey
    (h : (svc.authenticate around bearer s).result = .error e)
    (hresolved : svc.ResolvesKey around bearer s) : e = .authenticationFailed := by
  obtain ⟨token, kid, pem, hbearer, hspace, hkid, hsupplies⟩ := hresolved
  rw [authenticate_of_lookup_ok (bearerToken?_eq_some_iff.mpr ⟨hbearer, hspace⟩) hkid
    (KeyCache.lookup_result_eq_ok_iff.mpr hsupplies)] at h
  exact judgeToken_eq_error h

end AuthService

namespace Gateway

variable {σ τ : Type} {svc : AuthService σ} {around : Surroundings} {r : Request} {c : Context}
  {s : ServiceState σ} {rejection : Rejection}

/-! ### One request -/

/-- An authentication layer has two answers for those whom it turns away: one for those who met an
outage, and one for all others. -/
theorem pass_authenticate_error_cases
    (h : (pass svc around r .authenticate c s).result = .error rejection) :
    (svc.MeetsOutage around (headerText r) s ∧ rejection = .unavailable) ∨
    (¬ svc.MeetsOutage around (headerText r) s ∧ rejection = .unauthorized) := by
  cases hresult : (svc.authenticate around (headerText r) s).result with
  | ok claims =>
    rw [pass_authenticate_of_ok hresult] at h
    cases h
  | error e =>
    rw [pass_authenticate_of_error hresult] at h
    obtain rfl : Rejection.ofError e = rejection := Ending.error.inj h
    exact AuthService.ofError_of_authenticate_cases hresult
  | interrupted reason =>
    rw [pass_authenticate_of_interrupted hresult] at h
    cases h

/-- An authorization layer turns away whom the policy does not permit, and has one answer for all
whose path can be read. -/
theorem pass_authorize_eq_error_iff {claims : Claims} {rule : String}
    (hclaims : c.claims = some claims) (hread : r.Readable) :
    (pass svc around r (.authorize rule) c s).result = .error rejection ↔
      ¬ svc.Permits around.now claims (r.named?.getD UserId.nil) rule ∧ rejection = .forbidden := by
  by_cases hpermits : svc.Permits around.now claims (r.named?.getD UserId.nil) rule
  · rw [pass_authorize_of_permits hclaims hread hpermits]
    constructor
    · intro h
      cases h
    · rintro ⟨hnot, -⟩
      exact absurd hpermits hnot
  · rw [pass_authorize_of_not_permits hclaims hread hpermits, Ending.error.injEq]
    constructor
    · rintro rfl
      exact ⟨hpermits, rfl⟩
    · rintro ⟨-, rfl⟩
      rfl

/-! ### Responses -/

/-- The responses to those who lack authority, who may not act, and who met an outage. -/
theorem responses :
    (Rejection.unauthorized.status = 401 ∧
      Rejection.unauthorized.body = "\x7b\"error\":\"Unauthorized\"\x7d") ∧
    (Rejection.forbidden.status = 403 ∧
      Rejection.forbidden.body = "\x7b\"error\":\"Forbidden\"\x7d") ∧
    (Rejection.unavailable.status = 503 ∧
      Rejection.unavailable.body = "\x7b\"error\":\"Service Unavailable\"\x7d") := by
  decide

/-! ### Main statement -/

/-- Rejections tell nothing.  Take any two services, each in any state, with any policy, any source
of keys and any clock, and a request to each:

* if authentication layers turn both requests away, the responses agree in status and body exactly
  if both requests met an outage of their source of keys or neither did;
* the response to a request that met an outage is always the same 503, and the response to all
  others, whatever was wrong with them, is always the same 401, so that no authentication layer
  answers 400, 403 or 500;
* if two headers are refused once their keys were found, the errors are the same and have no cause;
* if authorization layers turn both requests away, the requests carrying claims and their paths
  being readable, the responses are the same 403, whatever the rules, the claims and the users in
  the paths; and such a layer turns away exactly whom its policy does not answer yes. -/
theorem rejections_alike :
    (∀ (σ τ : Type) (svc : AuthService σ) (svc' : AuthService τ) (around around' : Surroundings)
        (r r' : Request) (c c' : Context) (s : ServiceState σ) (s' : ServiceState τ)
        (rejection rejection' : Rejection),
      (pass svc around r .authenticate c s).result = .error rejection →
      (pass svc' around' r' .authenticate c' s').result = .error rejection' →
      ((rejection.status = rejection'.status ∧ rejection.body = rejection'.body) ↔
        (svc.MeetsOutage around (headerText r) s ↔
          svc'.MeetsOutage around' (headerText r') s'))) ∧
    (∀ (σ : Type) (svc : AuthService σ) (around : Surroundings) (r : Request) (c : Context)
        (s : ServiceState σ) (rejection : Rejection),
      (pass svc around r .authenticate c s).result = .error rejection →
      (svc.MeetsOutage around (headerText r) s → rejection.status = 503 ∧
        rejection.body = "\x7b\"error\":\"Service Unavailable\"\x7d") ∧
      (¬ svc.MeetsOutage around (headerText r) s → rejection.status = 401 ∧
        rejection.body = "\x7b\"error\":\"Unauthorized\"\x7d") ∧
      rejection.status ≠ 400 ∧ rejection.status ≠ 403 ∧ rejection.status ≠ 500) ∧
    (∀ (σ τ : Type) (svc : AuthService σ) (svc' : AuthService τ) (around around' : Surroundings)
        (bearer bearer' : String) (s : ServiceState σ) (s' : ServiceState τ) (e e' : AuthFailure),
      (svc.authenticate around bearer s).result = .error e → svc.ResolvesKey around bearer s →
      (svc'.authenticate around' bearer' s').result = .error e' →
      svc'.ResolvesKey around' bearer' s' →
      e = e' ∧ e = .authenticationFailed ∧ ∀ w, e.sourceMessage? w = none) ∧
    (∀ (σ τ : Type) (svc : AuthService σ) (svc' : AuthService τ) (around around' : Surroundings)
        (rule rule' : String) (r r' : Request) (c c' : Context) (claims claims' : Claims)
        (s : ServiceState σ) (s' : ServiceState τ) (rejection rejection' : Rejection),
      c.claims = some claims → r.Readable → c'.claims = some claims' → r'.Readable →
      (pass svc around r (.authorize rule) c s).result = .error rejection →
      (pass svc' around' r' (.authorize rule') c' s').result = .error rejection' →
      rejection = rejection' ∧ rejection.status = 403 ∧
        rejection.body = "\x7b\"error\":\"Forbidden\"\x7d") ∧
    (∀ (σ : Type) (svc : AuthService σ) (around : Surroundings) (rule : String) (r : Request)
        (c : Context) (claims : Claims) (s : ServiceState σ),
      c.claims = some claims → r.Readable →
      ((∃ rejection, (pass svc around r (.authorize rule) c s).result = .error rejection) ↔
        (svc.policy.evaluate .authorization rule (.authorization claims.roles claims.subject
          (r.named?.getD UserId.nil)) around.now).answer ≠ .ok true)) := by
  obtain ⟨hunauthorized, hforbidden, hunavailable⟩ := responses
  have hdiffer : Rejection.unauthorized.status ≠ Rejection.unavailable.status := by decide
  refine ⟨?_, ?_, ?_, ?_, ?_⟩
  · intro σ τ svc svc' around around' r r' c c' s s' rejection rejection' h h'
    rcases pass_authenticate_error_cases h with ⟨hmeets, rfl⟩ | ⟨hnot, rfl⟩
    · rcases pass_authenticate_error_cases h' with ⟨hmeets', rfl⟩ | ⟨hnot', rfl⟩
      · simp [hmeets, hmeets']
      · simp [hmeets, hnot', hdiffer.symm]
    · rcases pass_authenticate_error_cases h' with ⟨hmeets', rfl⟩ | ⟨hnot', rfl⟩
      · simp [hnot, hmeets', hdiffer]
      · simp [hnot, hnot']
  · intro σ svc around r c s rejection h
    rcases pass_authenticate_error_cases h with ⟨hmeets, rfl⟩ | ⟨hnot, rfl⟩
    · exact ⟨fun _ => hunavailable, fun hnot => absurd hmeets hnot, by decide, by decide,
        by decide⟩
    · exact ⟨fun hmeets => absurd hmeets hnot, fun _ => hunauthorized, by decide, by decide,
        by decide⟩
  · intro σ τ svc svc' around around' bearer bearer' s s' e e' h hresolved h' hresolved'
    obtain rfl := AuthService.eq_authenticationFailed_of_resolvesKey h hresolved
    obtain rfl := AuthService.eq_authenticationFailed_of_resolvesKey h' hresolved'
    exact ⟨rfl, rfl, fun _ => rfl⟩
  · intro σ τ svc svc' around around' rule rule' r r' c c' claims claims' s s' rejection rejection'
      hclaims hread hclaims' hread' h h'
    obtain ⟨-, rfl⟩ := (pass_authorize_eq_error_iff hclaims hread).mp h
    obtain ⟨-, rfl⟩ := (pass_authorize_eq_error_iff hclaims' hread').mp h'
    exact ⟨rfl, hforbidden⟩
  · intro σ svc around rule r c claims s hclaims hread
    simp only [pass_authorize_eq_error_iff hclaims hread, exists_and_left, exists_eq, and_true]
    rfl

/-- A request with a token that names a key nobody has. -/
def strayRequest : Request where
  authorization := [utf8 (Fixtures.bearer
    (Fixtures.unsignedToken "\x7b\"alg\":\"RS256\",\"kid\":\"k\"\x7d" "\x7b\x7d"))]
  parameters := .missing

/-- A source that does not answer in time. -/
def silentSource : ServiceState (Counted KeyStore) :=
  { Fixtures.start with source.failure := some fun _ => .timeout }

/-- A missing header and a token that names an unknown key are answered alike, unless the source of
keys does not answer; a rule that does not exist and a rule that says no are answered alike. -/
theorem rejections_alike_stray :
    let missing : Request := ⟨[], .missing⟩
    let user : Context := ⟨some (Fixtures.freshUserClaims 0), none⟩
    ((pass Fixtures.service ⟨0, false⟩ missing .authenticate .empty Fixtures.start).result =
        .error .unauthorized ∧
      (pass Fixtures.service ⟨0, false⟩ strayRequest .authenticate .empty Fixtures.start).result =
        .error .unauthorized ∧
      (Fixtures.service.MeetsOutage ⟨0, false⟩ (headerText missing) Fixtures.start ↔
        Fixtures.service.MeetsOutage ⟨0, false⟩ (headerText strayRequest) Fixtures.start)) ∧
    ((pass Fixtures.service ⟨0, false⟩ strayRequest .authenticate .empty silentSource).result =
        .error .unavailable ∧
      ¬ (Fixtures.service.MeetsOutage ⟨0, false⟩ (headerText strayRequest) Fixtures.start ↔
        Fixtures.service.MeetsOutage ⟨0, false⟩ (headerText strayRequest) silentSource)) ∧
    ∃ rejection,
      (pass Fixtures.service ⟨0, false⟩ missing (.authorize "unknown") user Fixtures.start).result =
        .error rejection ∧
      (pass Fixtures.service ⟨0, false⟩ missing (.authorize RuleName.adminOnly) user
        Fixtures.start).result = .error rejection ∧
      rejection.status = 403 := by
  intro missing user
  obtain ⟨hauthenticate, -, -, hauthorize, -⟩ := rejections_alike
  have hmissing : (pass Fixtures.service ⟨0, false⟩ missing .authenticate .empty
      Fixtures.start).result = .error .unauthorized := by decide +kernel
  have hstray : (pass Fixtures.service ⟨0, false⟩ strayRequest .authenticate .empty
      Fixtures.start).result = .error .unauthorized := by decide +kernel
  have hsilent : (pass Fixtures.service ⟨0, false⟩ strayRequest .authenticate .empty
      silentSource).result = .error .unavailable := by decide +kernel
  have hunknown : (pass Fixtures.service ⟨0, false⟩ missing (.authorize "unknown") user
      Fixtures.start).result = .error .forbidden := by decide +kernel
  have hadmin : (pass Fixtures.service ⟨0, false⟩ missing (.authorize RuleName.adminOnly) user
      Fixtures.start).result = .error .forbidden := by decide +kernel
  have hread : missing.Readable := by
    refine ⟨by decide, ?_⟩
    intro text htext
    cases htext
  refine ⟨⟨hmissing, hstray, ?_⟩, ⟨hsilent, ?_⟩, .forbidden, hunknown, hadmin, ?_⟩
  · exact (hauthenticate _ _ _ _ _ _ _ _ _ _ _ _ _ _ hmissing hstray).mp ⟨rfl, rfl⟩
  · intro hboth
    have hsame := (hauthenticate _ _ _ _ _ _ _ _ _ _ _ _ _ _ hstray hsilent).mpr hboth
    exact absurd hsame.1 (by decide)
  · exact (hauthorize _ _ _ _ _ _ _ _ _ _ _ _ _ _ _ _ _ _ rfl hread rfl hread hunknown
      hadmin).2.1

end Gateway

end BearerAuth
