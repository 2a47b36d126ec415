import Mathlib
import BearerAuth.Service

/-!
# What a step of a service comes to

Looking a key up ends in one of four ways, and authentication in one of four as well.  This file
states each of them as an equation, together with the inversion lemmas `KeyCache.lookup_cases` and
`AuthService.authenticate_cases`, so that no later proof opens the two functions again.

Main statements: `KeyCache.lookup_result_eq_ok_iff` says which public key a lookup yields, and
`AuthService.authenticate_result_eq_ok_iff` whom a service believes.
-/

namespace BearerAuth

variable {σ : Type}

/-! ### Looking a key up -/

namespace KeyCache

/-- The public key under which a key id is known: the cached one, or else the one that the source
answers, if it may be asked. -/
def Supplies (source : KeySource σ) (fetchBlocked : Bool) (kid : String) (s : ServiceState σ)
    (pem : String) : Prop :=
  s.cache.find? kid = some pem ∨
    s.cache.find? kid = none ∧ fetchBlocked = false ∧ (source.publicPem kid s.source).1 = .ok pem

variable {source : KeySource σ} {fetchBlocked : Bool} {kid : String} {s : ServiceState σ}

/-- A cached key is found without asking the source. -/
theorem lookup_of_cached {pem : String} (h : s.cache.find? kid = some pem) :
    lookup source fetchBlocked kid s = ⟨.ok pem, s, [.cacheHit]⟩ := by
  simp [lookup, h]

/-- A lookup that may not ask the source fails and changes nothing. -/
theorem lookup_of_blocked (h : s.cache.find? kid = none) (hblocked : fetchBlocked = true) :
    lookup source fetchBlocked kid s =
      ⟨.error (.keyLookup kid blockedFetch), s, [.cacheMiss]⟩ := by
  simp [lookup, h, hblocked]

/-- What the source answers is kept. -/
theorem lookup_of_fetched {pem : String} {next : σ} (h : s.cache.find? kid = none)
    (hblocked : fetchBlocked = false) (hsource : source.publicPem kid s.source = (.ok pem, next)) :
    lookup source fetchBlocked kid s =
      ⟨.ok pem, ⟨s.cache.insert kid pem, next⟩, [.cacheMiss, .cachePopulated]⟩ := by
  simp [lookup, h, hblocked, hsource]

/-- A failure of the source leaves no trace in the cache. -/
theorem lookup_of_failed {e : KeyFailure} {next : σ} (h : s.cache.find? kid = none)
    (hblocked : fetchBlocked = false)
    (hsource : source.publicPem kid s.source = (.error e, next)) :
    lookup source fetchBlocked kid s =
      ⟨.error (.keyLookup kid e), ⟨s.cache, next⟩, [.cacheMiss, .publicKeyLookupFailed]⟩ := by
  simp [lookup, h, hblocked, hsource]

/-- The four ways in which a lookup ends. -/
theorem lookup_cases (source : KeySource σ) (fetchBlocked : Bool) (kid : String)
    (s : ServiceState σ) :
    (∃ pem, s.cache.find? kid = some pem ∧
      lookup source fetchBlocked kid s = ⟨.ok pem, s, [.cacheHit]⟩) ∨
    (s.cache.find? kid = none ∧ fetchBlocked = true ∧ lookup source fetchBlocked kid s =
      ⟨.error (.keyLookup kid blockedFetch), s, [.cacheMiss]⟩) ∨
    (∃ pem next, s.cache.find? kid = none ∧ fetchBlocked = false ∧
      source.publicPem kid s.source = (.ok pem, next) ∧ lookup source fetchBlocked kid s =
        ⟨.ok pem, ⟨s.cache.insert kid pem, next⟩, [.cacheMiss, .cachePopulated]⟩) ∨
    (∃ e next, s.cache.find? kid = none ∧ fetchBlocked = false ∧
      source.publicPem kid s.source = (.error e, next) ∧ lookup source fetchBlocked kid s =
        ⟨.error (.keyLookup kid e), ⟨s.cache, next⟩, [.cacheMiss, .publicKeyLookupFailed]⟩) := by
  cases hfind : s.cache.find? kid with
  | some pem => exact .inl ⟨pem, rfl, lookup_of_cached hfind⟩
  | none =>
    cases hblocked : fetchBlocked with
    | true => exact .inr (.inl ⟨rfl, rfl, lookup_of_blocked hfind rfl⟩)
    | false =>
      rcases hsource : source.publicPem kid s.source with ⟨_ | pem, next⟩
      · exact .inr (.inr (.inr ⟨_, next, rfl, rfl, rfl, lookup_of_failed hfind rfl hsource⟩))
      · exact .inr (.inr (.inl ⟨pem, next, rfl, rfl, rfl, lookup_of_fetched hfind rfl hsource⟩))

/-- A lookup yields the key that is supplied, and no other. -/
theorem lookup_result_eq_ok_iff {pem : String} :
    (lookup source fetchBlocked kid s).result = .ok pem ↔
      Supplies source fetchBlocked kid s pem := by
  unfold Supplies
  rcases lookup_cases source fetchBlocked kid s with ⟨found, hfind, heq⟩ | ⟨hfind, hblocked, heq⟩ |
    ⟨found, next, hfind, hblocked, hsource, heq⟩ | ⟨e, next, hfind, hblocked, hsource, heq⟩
  · rw [heq]
    simp [hfind]
  · rw [heq]
    simp [hfind, hblocked]
  · rw [heq]
    simp [hfind, hblocked, hsource]
  · rw [heq]
    simp [hfind, hblocked, hsource]

/-- A lookup fails if the key is not cached and either may not be fetched or cannot be. -/
theorem lookup_result_eq_error_iff {e : AuthFailure} :
    (lookup source fetchBlocked kid s).result = .error e ↔
      s.cache.find? kid = none ∧ ∃ failure, e = .keyLookup kid failure ∧
        (fetchBlocked = true ∧ failure = blockedFetch ∨
          fetchBlocked = false ∧ (source.publicPem kid s.source).1 = .error failure) := by
  rcases lookup_cases source fetchBlocked kid s with ⟨found, hfind, heq⟩ | ⟨hfind, hblocked, heq⟩ |
    ⟨found, next, hfind, hblocked, hsource, heq⟩ | ⟨failure, next, hfind, hblocked, hsource, heq⟩
  · rw [heq]
    simp [hfind]
  · rw [heq]
    simp [hfind, hblocked, eq_comm]
  · rw [heq]
    simp [hfind, hblocked, hsource]
  · rw [heq]
    simp [hfind, hblocked, hsource, eq_comm]

/-- A lookup that succeeds leaves its key in the cache. -/
theorem find?_cache_of_lookup {pem : String}
    (h : (lookup source fetchBlocked kid s).result = .ok pem) :
    (lookup source fetchBlocked kid s).state.cache.find? kid = some pem := by
  rcases lookup_cases source fetchBlocked kid s with ⟨found, hfind, heq⟩ | ⟨hfind, hblocked, heq⟩ |
    ⟨found, next, hfind, hblocked, hsource, heq⟩ | ⟨e, next, hfind, hblocked, hsource, heq⟩
  · rw [heq] at h ⊢
    cases h
    exact hfind
  · rw [heq] at h
    cases h
  · rw [heq] at h ⊢
    cases h
    simp [Registry.find?_insert]
  · rw [heq] at h
    cases h

/-- A lookup that fails names the key id for which it was made. -/
theorem eq_keyLookup_of_lookup {e : AuthFailure}
    (h : (lookup source fetchBlocked kid s).result = .error e) :
    ∃ failure, e = .keyLookup kid failure := by
  obtain ⟨-, failure, he, -⟩ := lookup_result_eq_error_iff.mp h
  exact ⟨failure, he⟩

end KeyCache

/-! ### Authentication -/

namespace AuthService

/-- The token of a header is what follows the scheme and one space, and holds no space itself. -/
theorem bearerToken?_eq_some_iff {value token : String} :
    bearerToken? value = some token ↔ value = "Bearer " ++ token ∧ ' ' ∉ token.toList := by
  have hsplit : ∀ t : String, ("Bearer " ++ t).toList = "Bearer".toList ++ ' ' :: t.toList := by
    intro t
    rw [String.toList_append]
    rfl
  unfold bearerToken?
  constructor
  · intro h
    cases hcut : Text.cutFirst ' ' value.toList with
    | none => simp [hcut] at h
    | some parts =>
      obtain ⟨scheme, rest⟩ := parts
      rw [hcut] at h
      dsimp only at h
      split at h
      · rename_i hparts
        obtain ⟨hvalue, -⟩ := Text.cutFirst_eq_some_iff.mp hcut
        obtain rfl : String.ofList rest = token := Option.some.inj h
        refine ⟨?_, by simpa using hparts.2⟩
        apply String.toList_injective
        rw [hsplit, @String.toList_ofList rest, hvalue, hparts.1]
      · cases h
  · rintro ⟨rfl, hspace⟩
    have hcut : Text.cutFirst ' ' ("Bearer " ++ token).toList =
        some ("Bearer".toList, token.toList) :=
      Text.cutFirst_eq_some_iff.mpr ⟨hsplit token, by decide⟩
    rw [hcut]
    simp [hspace]

variable {svc : AuthService σ} {around : Surroundings} {bearer : String} {s : ServiceState σ}

/-- A header without a token is refused at once. -/
theorem authenticate_of_noToken (h : bearerToken? bearer = none) :
    svc.authenticate around bearer s = ⟨.error .malformedHeader, s, []⟩ := by
  simp [authenticate, h]

/-- A token that names no key is refused at once. -/
theorem authenticate_of_noKid {token : String} {e : AuthFailure}
    (htoken : bearerToken? bearer = some token) (hkid : Token.namedKid token = .error e) :
    svc.authenticate around bearer s = ⟨.error e, s, []⟩ := by
  simp [authenticate, htoken, hkid]

/-- A failed lookup ends the authentication. -/
theorem authenticate_of_lookup_error {token kid : String} {e : AuthFailure}
    (htoken : bearerToken? bearer = some token) (hkid : Token.namedKid token = .ok kid)
    (hfound : (KeyCache.lookup svc.source around.fetchBlocked kid s).result = .error e) :
    svc.authenticate around bearer s =
      ⟨.error e, (KeyCache.lookup svc.source around.fetchBlocked kid s).state,
        (KeyCache.lookup svc.source around.fetchBlocked kid s).events⟩ := by
  simp [authenticate, htoken, hkid, hfound]

/-- Under a key that was found the policy judges the token. -/
theorem authenticate_of_lookup_ok {token kid pem : String}
    (htoken : bearerToken? bearer = some token) (hkid : Token.namedKid token = .ok kid)
    (hfound : (KeyCache.lookup svc.source around.fetchBlocked kid s).result = .ok pem) :
    svc.authenticate around bearer s =
      ⟨(svc.judgeToken around.now pem token).1,
        (KeyCache.lookup svc.source around.fetchBlocked kid s).state,
        (KeyCache.lookup svc.source around.fetchBlocked kid s).events ++
          (svc.judgeToken around.now pem token).2⟩ := by
  simp [authenticate, htoken, hkid, hfound]

/-- The four ways in which authentication ends. -/
theorem authenticate_cases (svc : AuthService σ) (around : Surroundings) (bearer : String)
    (s : ServiceState σ) :
    (bearerToken? bearer = none ∧
      svc.authenticate around bearer s = ⟨.error .malformedHeader, s, []⟩) ∨
    (∃ token e, bearerToken? bearer = some token ∧ Token.namedKid token = .error e ∧
      svc.authenticate around bearer s = ⟨.error e, s, []⟩) ∨
    (∃ token kid e, bearerToken? bearer = some token ∧ Token.namedKid token = .ok kid ∧
      (KeyCache.lookup svc.source around.fetchBlocked kid s).result = .error e ∧
      svc.authenticate around bearer s =
        ⟨.error e, (KeyCache.lookup svc.source around.fetchBlocked kid s).state,
          (KeyCache.lookup svc.source around.fetchBlocked kid s).events⟩) ∨
    (∃ token kid pem, bearerToken? bearer = some token ∧ Token.namedKid token = .ok kid ∧
      (KeyCache.lookup svc.source around.fetchBlocked kid s).result = .ok pem ∧
      svc.authenticate around bearer s =
        ⟨(svc.judgeToken around.now pem token).1,
          (KeyCache.lookup svc.source around.fetchBlocked kid s).state,
          (KeyCache.lookup svc.source around.fetchBlocked kid s).events ++
            (svc.judgeToken around.now pem token).2⟩) := by
  cases htoken : bearerToken? bearer with
  | none => exact .inl ⟨rfl, authenticate_of_noToken htoken⟩
  | some token =>
    cases hkid : Token.namedKid token with
    | error e => exact .inr (.inl ⟨token, e, rfl, hkid, authenticate_of_noKid htoken hkid⟩)
    | ok kid =>
      cases hfound : (KeyCache.lookup svc.source around.fetchBlocked kid s).result with
      | error e =>
        exact .inr (.inr (.inl ⟨token, kid, e, rfl, hkid, hfound,
          authenticate_of_lookup_error htoken hkid hfound⟩))
      | ok pem =>
        exact .inr (.inr (.inr ⟨token, kid, pem, rfl, hkid, hfound,
          authenticate_of_lookup_ok htoken hkid hfound⟩))

/-- A token is believed if the policy says so and its claims can be read. -/
theorem judgeToken_eq_ok_iff {now : Clock} {pem token : String} {claims : Claims} :
    (svc.judgeToken now pem token).1 = .ok claims ↔
      (svc.policy.evaluate .authentication RuleName.authenticate
        (.authentication pem token) now).answer = .ok true ∧
        Token.carriedClaims token = .ok claims := by
  unfold judgeToken
  dsimp only
  split
  · rename_i hanswer
    split
    · rename_i found hfound
      simp [hanswer, hfound]
    · rename_i e he
      simp [he]
  · rename_i hanswer
    simp [hanswer]
  · rename_i reason hanswer
    simp [hanswer]
  · rename_i e _ hanswer
    simp [hanswer]

/-- Judging a token breaks off where the policy does. -/
theorem judgeToken_eq_interrupted_iff {now : Clock} {pem token : String} {reason : Overflow} :
    (svc.judgeToken now pem token).1 = .interrupted reason ↔
      (svc.policy.evaluate .authentication RuleName.authenticate
        (.authentication pem token) now).answer = .error (.overflow reason) := by
  unfold judgeToken
  dsimp only
  split
  · rename_i hanswer
    split <;> simp [hanswer]
  · rename_i hanswer
    simp [hanswer]
  · rename_i other hanswer
    simp [hanswer]
  · rename_i e hother hanswer
    simp only [hanswer, Except.error.injEq]
    constructor
    · intro h
      cases h
    · rintro rfl
      exact absurd rfl (hother reason)

/-- A token that is not believed fails without a reason. -/
theorem judgeToken_eq_error {now : Clock} {pem token : String} {e : AuthFailure}
    (h : (svc.judgeToken now pem token).1 = .error e) : e = .authenticationFailed := by
  unfold judgeToken at h
  dsimp only at h
  split at h
  · split at h
    · cases h
    · cases h
      rfl
  · cases h
    rfl
  · cases h
  · cases h
    rfl

/-- A service believes a header if its token names a key that is supplied, the policy accepts the
token under that key, and the claims in the token can be read. -/
theorem authenticate_result_eq_ok_iff {claims : Claims} :
    (svc.authenticate around bearer s).result = .ok claims ↔
      ∃ token kid pem, bearer = "Bearer " ++ token ∧ ' ' ∉ token.toList ∧
        Token.namedKid token = .ok kid ∧
        KeyCache.Supplies svc.source around.fetchBlocked kid s pem ∧
        (svc.policy.evaluate .authentication RuleName.authenticate
          (.authentication pem token) around.now).answer = .ok true ∧
        Token.carriedClaims token = .ok claims := by
  constructor
  · intro h
    rcases authenticate_cases svc around bearer s with ⟨-, heq⟩ | ⟨token, e, -, -, heq⟩ |
      ⟨token, kid, e, -, -, -, heq⟩ | ⟨token, kid, pem, htoken, hkid, hfound, heq⟩
    · rw [heq] at h
      cases h
    · rw [heq] at h
      cases h
    · rw [heq] at h
      cases h
    · rw [heq] at h
      obtain ⟨hbearer, hspace⟩ := bearerToken?_eq_some_iff.mp htoken
      exact ⟨token, kid, pem, hbearer, hspace, hkid, KeyCache.lookup_result_eq_ok_iff.mp hfound,
        judgeToken_eq_ok_iff.mp h⟩
  · rintro ⟨token, kid, pem, hbearer, hspace, hkid, hsupplies, hjudged⟩
    rw [authenticate_of_lookup_ok (bearerToken?_eq_some_iff.mpr ⟨hbearer, hspace⟩) hkid
      (KeyCache.lookup_result_eq_ok_iff.mpr hsupplies)]
    exact judgeToken_eq_ok_iff.mpr hjudged

end AuthService

end BearerAuth
