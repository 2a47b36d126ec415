import Mathlib
import BearerAuth.Proofs.Service.Lookups
import BearerAuth.Proofs.Service.Rotation
import BearerAuth.Proofs.Token.HeaderReadings

/-!
# The key under which a token is believed

A service chooses the key for a token by one reading of its header and checks the signature after
another.  Whatever a header holds, and however often, a token that is believed names the key under
which it was believed, and names no other.

Main statement: `accepted_header_names_key`.
-/

namespace BearerAuth

namespace AuthService

open Token (HasHeader Sole SignedUnder)

variable {σ : Type} {config : AuthConfig} {source : KeySource σ} {around : Surroundings}
  {s : ServiceState σ}

/-- A service with the rules of the library that believes a token has looked up one key, by the key
id that the token names; it holds this key afterwards, and the token verifies under it. -/
theorem verify_of_authenticate {token : String} {claims : Claims}
    (h : ((standard config source).authenticate around ("Bearer " ++ token) s).result =
      .ok claims) :
    ∃ kid pem, Token.namedKid token = .ok kid ∧
      (standard config source).lookups around ("Bearer " ++ token) s = [kid] ∧
      ((standard config source).authenticate around ("Bearer " ++ token) s).state.cache.find? kid =
        some pem ∧
      Token.verify token pem config.leeway around.now = .ok claims := by
  rcases authenticate_cases (standard config source) around ("Bearer " ++ token) s with
    ⟨-, heq⟩ | ⟨_, _, -, -, heq⟩ | ⟨_, _, _, -, -, -, heq⟩ |
    ⟨found, kid, pem, htoken, hkid, hlookup, heq⟩ <;> rw [heq] at h
  · cases h
  · cases h
  · cases h
  · obtain ⟨happend, -⟩ := bearerToken?_eq_some_iff.mp htoken
    obtain rfl : token = found := by simpa using happend
    refine ⟨kid, pem, hkid, ?_, ?_, standard_judgeToken_eq_ok_iff.mp h⟩
    · simp [lookups_eq, htoken, hkid]
    · rw [heq]
      exact KeyCache.find?_cache_of_lookup hlookup

/-- The two readings of a header never disagree on a token that is believed.  If a service with the
rules of the library believes a token, then the token has a header, which is one object and no
other, with texts for its strings; a single member of it is called `alg`, and its value is the
accepted algorithm; a single member of it is called `kid`, and its value is the key id for which the
one lookup of this authentication was made; and the last piece of the token is a signature over all
that stands in front of it under the public key that is cached for this key id. -/
theorem accepted_header_names_key {token : String} {claims : Claims}
    (h : ((standard config source).authenticate around ("Bearer " ++ token) s).result =
      .ok claims) :
    ∃ ms kid pem, HasHeader token ms ∧ (∀ other, HasHeader token other → other = ms) ∧
      Token.isSound Token.maxDepth (.object ms) ∧
      Sole "alg" "RS256" ms ∧ Sole "kid" kid ms ∧
      (standard config source).lookups around ("Bearer " ++ token) s = [kid] ∧
      ((standard config source).authenticate around ("Bearer " ++ token) s).state.cache.find? kid =
        some pem ∧
      SignedUnder token pem := by
  obtain ⟨kid, pem, hkid, hlookups, hcached, hverify⟩ := verify_of_authenticate h
  obtain ⟨ms, hheader, hsound, halg, hsole⟩ := Token.exists_hasHeader_of_verify hkid hverify
  refine ⟨ms, kid, pem, hheader, ?_, hsound, halg, hsole, hlookups, hcached,
    Token.signedUnder_of_verify hverify⟩
  intro other hother
  exact hother.unique hheader

/-- A service believes a token that it signed itself, and the header of this token names its key. -/
theorem accepted_header_names_key_login :
    ∃ token ms pem,
      ((standard Fixtures.config KeyStore.source).authenticate ⟨1700000001, false⟩
        ("Bearer " ++ token) (start (Fixtures.store Fixtures.kid))).result =
          .ok Fleet.loginClaims ∧
      HasHeader token ms ∧ (∀ other, HasHeader token other → other = ms) ∧
      Sole "alg" "RS256" ms ∧ Sole "kid" Fixtures.kid ms ∧
      ((standard Fixtures.config KeyStore.source).authenticate ⟨1700000001, false⟩
        ("Bearer " ++ token) (start (Fixtures.store Fixtures.kid))).state.cache.find?
          Fixtures.kid = some pem ∧
      SignedUnder token pem := by
  obtain ⟨token, privatePem, hpem, hencode⟩ := Fleet.exists_encode_loginClaims
  have hsigns := KeyPair.signs_of_encode hpem hencode
  have hsupplies : KeyCache.Supplies KeyStore.source false Fixtures.kid
      (start (Fixtures.store Fixtures.kid)) Fixtures.primaryPair.publicPem := by
    have hfind : (Fixtures.store Fixtures.kid).pairs.find? Fixtures.kid =
        some Fixtures.primaryPair := by
      rw [Fixtures.store, KeyStore.insert, Registry.find?_insert, if_pos rfl]
    have hsource := KeyStore.source_publicPem_eq_ok_iff.mpr ⟨_, hfind, rfl, rfl⟩
    exact .inr ⟨rfl, rfl, congrArg Prod.fst hsource⟩
  have hbelieved : ((standard Fixtures.config KeyStore.source).authenticate ⟨1700000001, false⟩
      ("Bearer " ++ token) (start (Fixtures.store Fixtures.kid))).result =
        .ok Fleet.loginClaims :=
    authenticate_of_signs hsigns Fixtures.config.validKid hsupplies (by decide) (by decide)
      (by decide)
  obtain ⟨ms, kid, pem, hheader, hunique, -, halg, hsole, hlookups, hcached, hsigned⟩ :=
    accepted_header_names_key hbelieved
  have hsame : [kid] = [Fixtures.kid] := by
    rw [← hlookups, lookups_eq, KeyPair.bearerToken?_of_signs hsigns]
    dsimp only
    rw [KeyPair.namedKid_of_signs hsigns Fixtures.config.validKid]
  obtain rfl : kid = Fixtures.kid := (List.cons.inj hsame).1
  exact ⟨token, ms, pem, hbelieved, hheader, hunique, halg, hsole, hcached, hsigned⟩

end AuthService

end BearerAuth
