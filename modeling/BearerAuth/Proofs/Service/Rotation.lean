import Mathlib
import BearerAuth.Fixtures
import BearerAuth.Proofs.Service.Fleet

/-!
# Tokens across the rotation of keys

Services that share a store rotate their keys: pairs come and go, and services sign under different
key ids.  A token that one of them issued is believed by all of them, with the claims for which it
was issued, as long as its key id is not bound to another pair and its time lasts.  A service that
has looked the key id up once does not even need the pair to stay in the store.

Main statement: `Fleet.authenticate_issued`.
-/

namespace BearerAuth

namespace Fleet

variable {ι : Type} [DecidableEq ι] {configs : ι → AuthConfig} {store : KeyStore}
  {before after : List (Step ι)} {i j : ι} {claims : Claims} {token : String}

section Bound

variable {kid : String} {pair : KeyPair}
  (hpair : ((start store).run configs before).store.pairs.find? kid = some pair)
  (hkept : NeverRebound configs kid ((start store).run configs before) (.issue i claims :: after))
  (hfills : ∀ front act back, before = front ++ act :: back →
    Fills configs j kid ((start store).run configs front) act →
    NeverRebound configs kid ((start store).run configs front)
      (act :: back ++ .issue i claims :: after))

include hpair hkept hfills

/-- Around the issue of a token a service caches no other key for the key id of the token than the
one under which it was signed: whether the cache was filled before the issue or behind it, the pair
that the store held then is the pair that it held at the issue. -/
theorem find?_cache_eq_publicPem {pem : String}
    (h : (((start store).run configs (before ++ .issue i claims :: after)).cache j).find? kid =
      some pem) : pem = pair.publicPem := by
  obtain ⟨front, act, back, found, hsplit, hfill, hfound, rfl⟩ := exists_fill h
  rcases List.append_eq_append_iff.mp hsplit with ⟨middle, rfl, hback⟩ | ⟨middle, rfl, hback⟩
  · -- The cache was filled behind the issue.
    rw [run_append] at hfound
    rw [hkept pair hpair middle ⟨act :: back, hback.symm⟩ found hfound]
  · cases middle with
    | nil =>
      rw [List.append_nil] at hpair
      rw [Option.some.inj (hfound.symm.trans hpair)]
    | cons first middle =>
      -- The cache was filled in front of the issue.
      obtain ⟨rfl, rfl⟩ := List.cons_eq_cons.mp hback
      rw [run_append] at hpair
      have hrebound := hfills front act middle rfl hfill
      rw [hrebound found hfound (act :: middle) (List.prefix_append _ _) pair hpair]

/-- A service is supplied with the key under which a token was signed, if the key id is still in the
store and may be fetched, or was looked up by that service before. -/
theorem supplies_publicPem {fetchBlocked : Bool}
    (hfound :
      (((start store).run configs (before ++ .issue i claims :: after)).store.contains kid = true ∧
          fetchBlocked = false) ∨
        ∃ front act back, before ++ .issue i claims :: after = front ++ act :: back ∧
          LooksUp j kid ((start store).run configs front) act) :
    KeyCache.Supplies KeyStore.source fetchBlocked kid
      (((start store).run configs (before ++ .issue i claims :: after)).view j)
      pair.publicPem := by
  cases hcache : (((start store).run configs (before ++ .issue i claims :: after)).cache j).find?
      kid with
  | some pem =>
    rw [find?_cache_eq_publicPem hpair hkept hfills hcache] at hcache
    exact .inl hcache
  | none =>
    rcases hfound with ⟨hcontains, hblocked⟩ | ⟨front, act, back, hsplit, hlooked⟩
    · obtain ⟨found, hfind⟩ := Option.isSome_iff_exists.mp hcontains
      have hlast := hfind
      rw [run_append] at hlast
      obtain rfl := hkept pair hpair _ List.prefix_rfl found hlast
      have hsource := KeyStore.source_publicPem_eq_ok_iff.mpr ⟨found, hfind, rfl, rfl⟩
      exact .inr ⟨hcache, hblocked, congrArg Prod.fst hsource⟩
    · obtain ⟨pem, hcached⟩ := exists_cached_of_looksUp configs hlooked back
      rw [hsplit, run_append, hcached] at hcache
      cases hcache

end Bound

/-- Every service of a fleet believes the tokens that any of them issued.  In a run of
registrations, removals, issues and authentications in any order, let a service issue a token, and
from then on let its key id not be rebound to another pair; where the verifying service had fetched
the key before, let it not be rebound since then.  Then at every later state and at every time from
the leeway to the leeway behind the end of the claims the verifying service, whatever its own active
key id, answers the header that presents the token with the claims for which it was issued, if the
key id is still in the store and may be fetched, or was looked up by that service before. -/
theorem authenticate_issued {around : Surroundings}
    (hissued : ((service (configs i)).issueToken claims
      (((start store).run configs before).view i)).result = .ok token)
    (hkept : NeverRebound configs (configs i).activeKid ((start store).run configs before)
      (.issue i claims :: after))
    (hfills : ∀ front act back, before = front ++ act :: back →
      Fills configs j (configs i).activeKid ((start store).run configs front) act →
      NeverRebound configs (configs i).activeKid ((start store).run configs front)
        (act :: back ++ .issue i claims :: after))
    (hexp : 0 ≤ claims.expiresAt.toInt) (hle : (configs j).leeway.wholeSeconds ≤ around.now)
    (hnow : (around.now.toNat : Int) ≤
      claims.expiresAt.toInt + (configs j).leeway.wholeSeconds.toNat)
    (hfound :
      (((start store).run configs (before ++ .issue i claims :: after)).store.contains
          (configs i).activeKid = true ∧ around.fetchBlocked = false) ∨
        ∃ front act back, before ++ .issue i claims :: after = front ++ act :: back ∧
          LooksUp j (configs i).activeKid ((start store).run configs front) act) :
    ((service (configs j)).authenticate around ("Bearer " ++ token)
      (((start store).run configs (before ++ .issue i claims :: after)).view j)).result =
        .ok claims := by
  obtain ⟨pair, hpair, hsigns⟩ := AuthService.signs_of_issueToken hissued
  have hsupplies := supplies_publicPem hpair hkept hfills hfound
  have hjudged :
      ((service (configs j)).judgeToken around.now pair.publicPem token).1 = .ok claims :=
    AuthService.judgeToken_of_signs hsigns hexp hle hnow
  have hstep : (service (configs j)).authenticate around ("Bearer " ++ token)
      (((start store).run configs (before ++ .issue i claims :: after)).view j) = _ :=
    AuthService.authenticate_of_lookup_ok (KeyPair.bearerToken?_of_signs hsigns)
      (KeyPair.namedKid_of_signs hsigns (configs i).validKid)
      (KeyCache.lookup_result_eq_ok_iff.mpr hsupplies)
  rw [hstep]
  dsimp only
  exact hjudged

/-! ### A rotation -/

/-- The settings of two services: one signs with the first pair, the later one with the second. -/
def rotated : Bool → AuthConfig
  | false => Fixtures.config
  | true => { Fixtures.config with activeKid := "2024-q2", validKid := by decide +kernel }

/-- Both pairs are registered. -/
def registrations : List (Step Bool) :=
  [.insert Fixtures.kid Fixtures.primaryPair, .insert "2024-q2" Fixtures.secondaryPair]

/-- The claims of the user, who logs in at a fixed time. -/
def loginClaims : Claims := Fixtures.freshUserClaims 1700000000

/-- The first pair signs these claims. -/
theorem exists_encode_loginClaims :
    ∃ token pem, Fixtures.primaryPair.privatePem = .ok pem ∧
      Token.encode loginClaims Fixtures.kid pem = .ok token := by
  apply KeyPair.exists_encode
  decide +kernel

/-- The first pair is registered under its key id. -/
theorem find?_registrations :
    ((start KeyStore.empty).run rotated registrations).store.pairs.find? Fixtures.kid =
      some Fixtures.primaryPair := by
  have hne : Fixtures.kid ≠ "2024-q2" := by decide
  have hstore : ((start KeyStore.empty).run rotated registrations).store =
      (KeyStore.empty.insert Fixtures.kid Fixtures.primaryPair).insert "2024-q2"
        Fixtures.secondaryPair := rfl
  rw [hstore, KeyStore.insert, Registry.find?_insert, if_neg hne, KeyStore.insert,
    Registry.find?_insert, if_pos rfl]

/-- Registering fills no cache. -/
theorem not_fills_registrations {j : Bool} {kid : String} {f : Fleet Bool} {act : Step Bool}
    (h : act ∈ registrations) : ¬ Fills rotated j kid f act := by
  rintro ⟨hnone, hfilled⟩
  simp only [registrations, List.mem_cons, List.not_mem_nil, or_false] at h
  rcases h with rfl | rfl <;> exact hfilled hnone

/-- The service that signs with the second pair believes a token under the first one, which it has
looked up and which is gone. -/
theorem authenticate_issued_removed :
    ∃ token, ((service (rotated false)).issueToken loginClaims
        (((start KeyStore.empty).run rotated registrations).view false)).result = .ok token ∧
      ((service (rotated true)).authenticate ⟨1700000001, false⟩ ("Bearer " ++ token)
        (((start KeyStore.empty).run rotated (registrations ++ .issue false loginClaims ::
          [.authenticate true ⟨1700000001, false⟩ ("Bearer " ++ token),
            .remove Fixtures.kid])).view true)).result = .ok loginClaims := by
  obtain ⟨token, pem, hpem, hencode⟩ := exists_encode_loginClaims
  have hsigns := KeyPair.signs_of_encode hpem hencode
  have hissued : ((service (rotated false)).issueToken loginClaims
      (((start KeyStore.empty).run rotated registrations).view false)).result = .ok token := by
    have hsource := KeyStore.source_privatePem_eq_ok_iff.mpr ⟨_, find?_registrations, hpem, rfl⟩
    exact AuthService.issueToken_result_eq_ok_iff.mpr ⟨pem, _, hsource, hencode⟩
  have hsame : (start KeyStore.empty).run rotated (registrations ++ [.issue false loginClaims]) =
      (start KeyStore.empty).run rotated registrations := by
    rw [run_append]
    exact step_issue rotated _ false loginClaims
  have hlooked : LooksUp true Fixtures.kid
      ((start KeyStore.empty).run rotated (registrations ++ [.issue false loginClaims]))
      (.authenticate true ⟨1700000001, false⟩ ("Bearer " ++ token)) := by
    rw [hsame]
    refine ⟨_, _, token, Fixtures.primaryPair.publicPem, rfl, KeyPair.bearerToken?_of_signs hsigns,
      KeyPair.namedKid_of_signs hsigns Fixtures.config.validKid, ?_⟩
    have hsource := KeyStore.source_publicPem_eq_ok_iff.mpr ⟨_, find?_registrations, rfl, rfl⟩
    exact KeyCache.lookup_result_eq_ok_iff.mpr (.inr ⟨rfl, rfl, congrArg Prod.fst hsource⟩)
  refine ⟨token, hissued, authenticate_issued hissued ?_ ?_ ?_ ?_ ?_ (.inr ?_)⟩
  · exact neverRebound_of_insert find?_registrations (by simp)
  · intro front act back hsplit hfill
    have hmem : act ∈ registrations := by
      rw [hsplit]
      simp
    exact absurd hfill (not_fills_registrations hmem)
  · decide
  · decide
  · decide
  · have hkid : (rotated false).activeKid = Fixtures.kid := rfl
    rw [hkid]
    refine ⟨registrations ++ [.issue false loginClaims],
      .authenticate true ⟨1700000001, false⟩ ("Bearer " ++ token), [.remove Fixtures.kid], ?_, ?_⟩
    · rw [List.append_assoc, List.singleton_append]
    · exact hlooked

end Fleet

end BearerAuth
