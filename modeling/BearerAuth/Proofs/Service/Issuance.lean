import Mathlib
import BearerAuth.Proofs.Service.Acceptance
import BearerAuth.Proofs.Token.Signed

/-!
# Issued tokens are believed

A service that issues a token has read the private half of the pair that its source holds, and the
signature in the token fits the public half of this pair.  A service that verifies the token under
the text of the public half believes it for as long as its time lasts.

Main statements: `AuthService.signs_of_issueToken` and `AuthService.judgeToken_of_signs`.
-/

namespace BearerAuth

/-! ### Headers -/

/-- A signed token can be presented in a header. -/
theorem KeyPair.bearerToken?_of_signs {p : KeyPair} {claims : Claims} {kid token : String}
    (h : p.Signs claims kid token) :
    AuthService.bearerToken? ("Bearer " ++ token) = some token := by
  obtain ⟨signature, rfl, -⟩ := h
  exact AuthService.bearerToken?_eq_some_iff.mpr
    ⟨rfl, Token.space_notMem_issued claims kid signature⟩

/-! ### Stores -/

namespace KeyStore

/-- A store answers with the text of the private half of what it holds, and stays as it is. -/
theorem source_privatePem_eq_ok_iff {s next : KeyStore} {kid pem : String} :
    source.privatePem kid s = (.ok pem, next) ↔
      ∃ p, s.pairs.find? kid = some p ∧ p.privatePem = .ok pem ∧ s = next := by
  cases hfind : s.pairs.find? kid <;>
    simp [source, privatePem, pair, hfind, Except.bind]

/-- A store answers with the text of the public half of what it holds, and stays as it is. -/
theorem source_publicPem_eq_ok_iff {s next : KeyStore} {kid pem : String} :
    source.publicPem kid s = (.ok pem, next) ↔
      ∃ p, s.pairs.find? kid = some p ∧ p.publicPem = pem ∧ s = next := by
  cases hfind : s.pairs.find? kid <;>
    simp [source, publicPem, pair, hfind, Except.map]

end KeyStore

/-! ### Issuing -/

namespace AuthService

variable {σ : Type} {svc : AuthService σ} {claims : Claims} {s : ServiceState σ}

/-- A service issues what is put together with the private key that the source answers. -/
theorem issueToken_result_eq_ok_iff {token : String} :
    (svc.issueToken claims s).result = .ok token ↔
      ∃ pem next, svc.source.privatePem svc.config.activeKid s.source = (.ok pem, next) ∧
        Token.encode claims svc.config.activeKid pem = .ok token := by
  unfold issueToken
  dsimp only
  split
  · rename_i e next hsource
    simp [hsource]
  · rename_i pem next hsource
    split
    · rename_i e hencode
      simp [hsource, hencode]
    · rename_i found hencode
      simp [hsource, hencode]

/-- Issuing does not touch the cache, and changes the source by one question. -/
theorem issueToken_state :
    (svc.issueToken claims s).state =
      ⟨s.cache, (svc.source.privatePem svc.config.activeKid s.source).2⟩ := by
  unfold issueToken
  dsimp only
  split
  · rename_i e next hsource
    rw [hsource]
  · rename_i pem next hsource
    rw [hsource]
    split <;> rfl

/-- A token that a service over a store issues is signed under the pair of its active key id. -/
theorem signs_of_issueToken {config : AuthConfig} {s : ServiceState KeyStore} {token : String}
    (h : ((standard config KeyStore.source).issueToken claims s).result = .ok token) :
    ∃ p, s.source.pairs.find? config.activeKid = some p ∧
      p.Signs claims config.activeKid token := by
  obtain ⟨pem, next, hsource, hencode⟩ := issueToken_result_eq_ok_iff.mp h
  obtain ⟨p, hfind, hpem, -⟩ := KeyStore.source_privatePem_eq_ok_iff.mp hsource
  exact ⟨p, hfind, KeyPair.signs_of_encode hpem hencode⟩

/-- A service with the rules of the library believes a signed token under the text of the public
half in its time. -/
theorem judgeToken_of_signs {config : AuthConfig} {source : KeySource σ} {p : KeyPair}
    {kid token : String} {now : Clock} (h : p.Signs claims kid token)
    (hexp : 0 ≤ claims.expiresAt.toInt) (hle : config.leeway.wholeSeconds ≤ now)
    (hnow : (now.toNat : Int) ≤ claims.expiresAt.toInt + config.leeway.wholeSeconds.toNat) :
    ((standard config source).judgeToken now p.publicPem token).1 = .ok claims :=
  standard_judgeToken_eq_ok_iff.mpr (KeyPair.verify_of_signs h hexp hle hnow)

/-- A service with the rules of the library believes a signed token that it is presented with in its
time, if it is supplied with the text of the public half. -/
theorem authenticate_of_signs {config : AuthConfig} {source : KeySource σ} {p : KeyPair}
    {kid token : String} {around : Surroundings} (h : p.Signs claims kid token)
    (hkid : KeyId.Valid kid)
    (hsupplies : KeyCache.Supplies source around.fetchBlocked kid s p.publicPem)
    (hexp : 0 ≤ claims.expiresAt.toInt) (hle : config.leeway.wholeSeconds ≤ around.now)
    (hnow :
      (around.now.toNat : Int) ≤ claims.expiresAt.toInt + config.leeway.wholeSeconds.toNat) :
    ((standard config source).authenticate around ("Bearer " ++ token) s).result = .ok claims := by
  have hjudged : ((standard config source).judgeToken around.now p.publicPem token).1 =
      .ok claims :=
    judgeToken_of_signs h hexp hle hnow
  have hstep : (standard config source).authenticate around ("Bearer " ++ token) s = _ :=
    authenticate_of_lookup_ok (KeyPair.bearerToken?_of_signs h) (KeyPair.namedKid_of_signs h hkid)
      (KeyCache.lookup_result_eq_ok_iff.mpr hsupplies)
  rw [hstep]
  dsimp only
  exact hjudged

end AuthService

end BearerAuth
