import Mathlib
import BearerAuth.Gateway
import BearerAuth.Proofs.Service.Steps
import BearerAuth.Proofs.Token.NamedKey

/-!
# How requests are turned away

Authentication can fail for many reasons, and its errors tell them apart.  The response to a request
keeps one bit of them: whether the source of keys was asked and could not be reached.

Main statements: `AuthService.authenticate_error_cases` lists the errors of authentication, and
`AuthService.ofError_of_authenticate_cases` says which of the two rejections answers them.
-/

namespace BearerAuth

/-- A failure may pass by itself if the secret store cannot be reached or does not answer in
time. -/
theorem KeyFailure.mayPass_iff {failure : KeyFailure} :
    failure.mayPass ↔ (∃ message, failure = .connection message) ∨
      (∃ message source, failure = .connectionCausedBy message source) ∨ failure = .timeout := by
  cases failure <;> simp [mayPass]

/-- A malformed request is answered as a lack of authority. -/
theorem Rejection.ofError_of_isMalformed {e : AuthFailure} (h : e.isMalformed) :
    Rejection.ofError e = .unauthorized := by
  cases e <;> first | rfl | cases h

/-- A failure of the source of keys is answered by whether it may pass. -/
theorem Rejection.ofError_keyLookup (kid : String) (failure : KeyFailure) :
    Rejection.ofError (.keyLookup kid failure) =
      if failure.mayPass then .unavailable else .unauthorized := by
  cases hpass : failure.mayPass <;> simp [ofError, AuthFailure.status, hpass]

namespace AuthService

variable {σ : Type}

section Definitions

variable (svc : AuthService σ) (around : Surroundings) (bearer : String) (s : ServiceState σ)

/-- The header presents a token that names a key, and the key is supplied. -/
def ResolvesKey : Prop :=
  ∃ token kid pem, bearer = "Bearer " ++ token ∧ ' ' ∉ token.toList ∧
    Token.namedKid token = .ok kid ∧
    KeyCache.Supplies svc.source around.fetchBlocked kid s pem

/-- The header presents a token that names a key which is not cached, and the source, asked for it,
reports that the secret store cannot be reached or does not answer in time. -/
def MeetsOutage : Prop :=
  ∃ token kid failure, bearer = "Bearer " ++ token ∧ ' ' ∉ token.toList ∧
    Token.namedKid token = .ok kid ∧ s.cache.find? kid = none ∧ around.fetchBlocked = false ∧
    (svc.source.publicPem kid s.source).1 = .error failure ∧
    ((∃ message, failure = .connection message) ∨
      (∃ message source, failure = .connectionCausedBy message source) ∨ failure = .timeout)

end Definitions

variable {svc : AuthService σ} {around : Surroundings} {bearer : String} {s : ServiceState σ}
  {e : AuthFailure}

/-- The three kinds of errors of authentication: the request names no key, or the key that it names
is not found, or it is found and the token is not believed. -/
theorem authenticate_error_cases (h : (svc.authenticate around bearer s).result = .error e) :
    (e.isMalformed ∧
      ∀ token kid, bearerToken? bearer = some token → Token.namedKid token ≠ .ok kid) ∨
    (∃ token kid failure, bearerToken? bearer = some token ∧ Token.namedKid token = .ok kid ∧
      e = .keyLookup kid failure ∧ s.cache.find? kid = none ∧
      (around.fetchBlocked = true ∧ failure = KeyCache.blockedFetch ∨
        around.fetchBlocked = false ∧
          (svc.source.publicPem kid s.source).1 = .error failure)) ∨
    (svc.ResolvesKey around bearer s ∧ e = .authenticationFailed) := by
  rcases authenticate_cases svc around bearer s with ⟨htoken, heq⟩ | ⟨token, _, htoken, hkid, heq⟩ |
    ⟨token, kid, _, htoken, hkid, hfound, heq⟩ | ⟨token, kid, pem, htoken, hkid, hfound, heq⟩ <;>
    rw [heq] at h
  · cases h
    refine .inl ⟨rfl, ?_⟩
    intro token kid hother
    rw [htoken] at hother
    cases hother
  · cases h
    refine .inl ⟨Token.isMalformed_of_namedKid hkid, ?_⟩
    intro other kid hother hnamed
    rw [htoken] at hother
    obtain rfl := Option.some.inj hother
    rw [hkid] at hnamed
    cases hnamed
  · cases h
    obtain ⟨hnone, failure, rfl, hfailure⟩ := KeyCache.lookup_result_eq_error_iff.mp hfound
    exact .inr (.inl ⟨token, kid, failure, htoken, hkid, rfl, hnone, hfailure⟩)
  · obtain ⟨hbearer, hspace⟩ := bearerToken?_eq_some_iff.mp htoken
    exact .inr (.inr ⟨⟨token, kid, pem, hbearer, hspace, hkid,
      KeyCache.lookup_result_eq_ok_iff.mp hfound⟩, judgeToken_eq_error h⟩)

/-- A header that names no key meets no outage. -/
theorem not_meetsOutage_of_noKid
    (h : ∀ token kid, bearerToken? bearer = some token → Token.namedKid token ≠ .ok kid) :
    ¬ svc.MeetsOutage around bearer s := by
  rintro ⟨token, kid, -, hbearer, hspace, hkid, -⟩
  exact h token kid (bearerToken?_eq_some_iff.mpr ⟨hbearer, hspace⟩) hkid

/-- A key that is supplied meets no outage. -/
theorem ResolvesKey.not_meetsOutage (h : svc.ResolvesKey around bearer s) :
    ¬ svc.MeetsOutage around bearer s := by
  obtain ⟨token, kid, pem, rfl, -, hkid, hsupplies⟩ := h
  rintro ⟨other, named, failure, hbearer, -, hnamed, hnone, -, hfailure, -⟩
  obtain rfl : token = other := by simpa using hbearer
  obtain rfl : kid = named := Except.ok.inj (hkid.symm.trans hnamed)
  rcases hsupplies with hcached | ⟨-, -, hanswer⟩
  · rw [hnone] at hcached
    cases hcached
  · rw [hfailure] at hanswer
    cases hanswer

/-- A key that is not found meets an outage exactly if it may be fetched and the failure of the
source may pass by itself. -/
theorem meetsOutage_iff_mayPass {token kid : String} {failure : KeyFailure}
    (htoken : bearerToken? bearer = some token) (hkid : Token.namedKid token = .ok kid)
    (hnone : s.cache.find? kid = none)
    (hfailure : around.fetchBlocked = true ∧ failure = KeyCache.blockedFetch ∨
      around.fetchBlocked = false ∧ (svc.source.publicPem kid s.source).1 = .error failure) :
    svc.MeetsOutage around bearer s ↔ failure.mayPass := by
  obtain ⟨rfl, hspace⟩ := bearerToken?_eq_some_iff.mp htoken
  rw [KeyFailure.mayPass_iff]
  constructor
  · rintro ⟨other, named, found, hbearer, -, hnamed, -, hopen, hfound, hpass⟩
    obtain rfl : token = other := by simpa using hbearer
    obtain rfl : kid = named := Except.ok.inj (hkid.symm.trans hnamed)
    rcases hfailure with ⟨hblocked, -⟩ | ⟨-, hanswer⟩
    · rw [hblocked] at hopen
      cases hopen
    · obtain rfl : failure = found := Except.error.inj (hanswer.symm.trans hfound)
      exact hpass
  · intro hpass
    rcases hfailure with ⟨-, rfl⟩ | ⟨hopen, hanswer⟩
    · simp [KeyCache.blockedFetch] at hpass
    · exact ⟨token, kid, failure, rfl, hspace, hkid, hnone, hopen, hanswer, hpass⟩

/-- What goes wrong while a header is authenticated is answered as a source of keys that cannot be
reached if that is what went wrong, and as a lack of authority otherwise. -/
theorem ofError_of_authenticate_cases
    (h : (svc.authenticate around bearer s).result = .error e) :
    (svc.MeetsOutage around bearer s ∧ Rejection.ofError e = .unavailable) ∨
    (¬ svc.MeetsOutage around bearer s ∧ Rejection.ofError e = .unauthorized) := by
  rcases authenticate_error_cases h with ⟨hmalformed, hnoKid⟩ |
    ⟨token, kid, failure, htoken, hkid, rfl, hnone, hfailure⟩ | ⟨hresolved, rfl⟩
  · exact .inr ⟨not_meetsOutage_of_noKid hnoKid, Rejection.ofError_of_isMalformed hmalformed⟩
  · rw [meetsOutage_iff_mayPass htoken hkid hnone hfailure, Rejection.ofError_keyLookup]
    cases failure.mayPass with
    | true => exact .inl ⟨rfl, rfl⟩
    | false => exact .inr ⟨Bool.false_ne_true, rfl⟩
  · exact .inr ⟨hresolved.not_meetsOutage, rfl⟩

end AuthService

end BearerAuth
