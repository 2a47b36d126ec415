import Mathlib
import BearerAuth.Proofs.Service.Acceptance
import BearerAuth.Proofs.Token.ValidityWindow

/-!
# Longer leeways

A longer leeway moves both bounds of the window outwards, as long as they are words: whatever is
accepted with a leeway is accepted with a longer one.  Where a bound is no word any more, verifying
breaks off, and so does the service; a leeway beyond the clock does this to every token that would
have verified.  So a longer leeway never turns an acceptance into a refusal, but it may turn it into
no answer at all.

Main statement: `AuthService.authenticate_mono_leeway`.
-/

namespace BearerAuth

variable {now : Clock} {short long leeway : Duration} {token pem : String} {c : Claims}

namespace Token

/-! ### Both bounds -/

/-- Where both bounds are words, a longer leeway keeps what was valid. -/
theorem Registered.isValidAt_mono {r : Registered} (hle : short.seconds ≤ long.seconds)
    (hfits : long.FitsAround now) (h : r.isValidAt short.wholeSeconds now = .ok true) :
    r.isValidAt long.wholeSeconds now = .ok true := by
  obtain ⟨hsub, exp, hexp, hend, hbegun⟩ :=
    (Registered.isValidAt_wholeSeconds_iff (hfits.mono hle)).mp h
  refine (Registered.isValidAt_wholeSeconds_iff hfits).mpr ⟨hsub, exp, hexp, by omega, ?_⟩
  intro nbf hnbf
  have hshort := hbegun nbf hnbf
  omega

/-- A leeway beyond the clock breaks the comparison off for every token that was valid. -/
theorem Registered.isValidAt_beyond {r : Registered} {leeway shorter now : UInt64}
    (hlt : now < leeway) (h : r.isValidAt shorter now = .ok true) :
    r.isValidAt leeway now = .error .subtraction := by
  obtain ⟨hsub, exp, hexp, -⟩ := Registered.isValidAt_eq_ok_true_iff.mp h
  rw [Registered.isValidAt_of_named hexp hsub, if_pos hlt]

/-- A longer leeway keeps what was valid, or breaks the comparison off. -/
theorem Registered.isValidAt_longer {r : Registered} {shorter longer now : UInt64}
    (hle : shorter ≤ longer) (h : r.isValidAt shorter now = .ok true) :
    r.isValidAt longer now = .ok true ∨ ∃ reason, r.isValidAt longer now = .error reason := by
  obtain ⟨hsub, exp, hexp, -, hend, hbegun⟩ := Registered.isValidAt_eq_ok_true_iff.mp h
  rw [UInt64.le_iff_toNat_le] at hle
  rw [Registered.isValidAt_of_named hexp hsub]
  split
  · exact .inr ⟨_, rfl⟩
  · rw [if_neg (by omega)]
    by_cases hnamed : ∃ nbf, r.nbf = some (some nbf)
    · obtain ⟨nbf, hnbf⟩ := hnamed
      have hshort := (hbegun nbf hnbf).2
      rw [Registered.hasBegunAt_eq.1 nbf hnbf]
      split
      · exact .inr ⟨_, rfl⟩
      · exact .inl (by rw [decide_eq_true (by omega)])
    · push Not at hnamed
      exact .inl (Registered.hasBegunAt_eq.2 hnamed)

/-- What a longer leeway makes of a token that verifies. -/
structure KeepsOrBreaks (token pem : String) (long : Duration) (now : Clock) (c : Claims) :
    Prop where
  /-- Where both bounds are words, the token verifies with the same claims. -/
  keeps : long.FitsAround now → verify token pem long now = .ok c
  /-- With a leeway beyond the clock, verifying breaks off. -/
  breaks : now.toNat < long.seconds → verify token pem long now = .error (.overflow .subtraction)
  /-- There is no third way: the token is never refused. -/
  never_refused : verify token pem long now = .ok c ∨
    ∃ reason, verify token pem long now = .error (.overflow reason)

/-- A longer leeway keeps what verified, or breaks off. -/
theorem keepsOrBreaks (hle : short.seconds ≤ long.seconds)
    (h : verify token pem short now = .ok c) : KeepsOrBreaks token pem long now c := by
  obtain ⟨material, payload, hpem, hpayload, hread⟩ := verify_eq_ok_iff_signed.mp h
  obtain ⟨hclaims, r, hr, hvalid⟩ := readPayload_eq_ok_iff.mp hread
  have hlong : verify token pem long now = readPayload long.wholeSeconds now payload :=
    verify_of_signedPayload? hpem hpayload
  have hword : short.wholeSeconds ≤ long.wholeSeconds := by
    rwa [UInt64.le_iff_toNat_le, Duration.toNat_wholeSeconds, Duration.toNat_wholeSeconds]
  refine ⟨fun hfits => ?_, fun hlt => ?_, ?_⟩
  · rw [hlong]
    exact readPayload_eq_ok_iff.mpr ⟨hclaims, r, hr, Registered.isValidAt_mono hle hfits hvalid⟩
  · have hbeyond : now < long.wholeSeconds := by
      rwa [UInt64.lt_iff_toNat_lt, Duration.toNat_wholeSeconds]
    rw [hlong]
    exact readPayload_eq_overflow_iff.mpr
      ⟨c, r, hclaims, hr, Registered.isValidAt_beyond hbeyond hvalid⟩
  · rw [hlong]
    rcases Registered.isValidAt_longer hword hvalid with hkept | ⟨reason, hbroken⟩
    · exact .inl (readPayload_eq_ok_iff.mpr ⟨hclaims, r, hr, hkept⟩)
    · exact .inr ⟨reason, readPayload_eq_overflow_iff.mpr ⟨c, r, hclaims, hr, hbroken⟩⟩

end Token

namespace AuthService

variable {σ : Type} {config config' : AuthConfig} {source : KeySource σ} {around : Surroundings}
  {bearer : String} {s : ServiceState σ}

/-- A service with the rules of the library has nothing to report about a token that verifies. -/
theorem standard_judgeToken_of_verify (h : Token.verify token pem config.leeway now = .ok c) :
    (standard config source).judgeToken now pem token = (.ok c, []) := by
  unfold judgeToken
  rw [standard_policy_evaluate]
  simp only [RuleTable.verifies, h, Token.carriedClaims_of_verify h]

/-- What a longer leeway makes of a header that a service believes.  The state is the same in any
case. -/
structure KeepsOrBreaks (config config' : AuthConfig) (source : KeySource σ)
    (around : Surroundings) (bearer : String) (s : ServiceState σ) (c : Claims) : Prop where
  /-- Where both bounds are words, the service does the same about the header. -/
  keeps : config'.leeway.FitsAround around.now →
    (standard config' source).authenticate around bearer s =
      (standard config source).authenticate around bearer s
  /-- With a leeway beyond the clock, authentication breaks off. -/
  breaks : around.now.toNat < config'.leeway.seconds →
    ((standard config' source).authenticate around bearer s).result = .interrupted .subtraction
  /-- There is no third way: the header is never refused. -/
  never_refused : ((standard config' source).authenticate around bearer s).result = .ok c ∨
    ∃ reason, ((standard config' source).authenticate around bearer s).result =
      .interrupted reason
  state : ((standard config' source).authenticate around bearer s).state =
    ((standard config source).authenticate around bearer s).state

/-- A service whose leeway is longer believes every header that one with a shorter leeway
believes, or breaks off. -/
theorem keepsOrBreaks (hle : config.leeway.seconds ≤ config'.leeway.seconds)
    (h : ((standard config source).authenticate around bearer s).result = .ok c) :
    KeepsOrBreaks config config' source around bearer s c := by
  rcases authenticate_cases (standard config source) around bearer s with ⟨-, heq⟩ |
    ⟨_, _, -, -, heq⟩ | ⟨_, _, _, -, -, -, heq⟩ | ⟨token, kid, pem, htoken, hkid, hfound, heq⟩
  · rw [heq] at h
    cases h
  · rw [heq] at h
    cases h
  · rw [heq] at h
    cases h
  · rw [heq] at h
    have hverify := standard_judgeToken_eq_ok_iff.mp h
    have htokens := Token.keepsOrBreaks hle hverify
    have hlong : (standard config' source).authenticate around bearer s = _ :=
      authenticate_of_lookup_ok htoken hkid hfound
    refine ⟨fun hfits => ?_, fun hlt => ?_, ?_, ?_⟩
    · rw [hlong, heq, standard_judgeToken_of_verify hverify,
        standard_judgeToken_of_verify (htokens.keeps hfits)]
      rfl
    · rw [hlong]
      exact standard_judgeToken_eq_interrupted_iff.mpr (htokens.breaks hlt)
    · rw [hlong]
      rcases htokens.never_refused with hkept | ⟨reason, hbroken⟩
      · exact .inl (standard_judgeToken_eq_ok_iff.mpr hkept)
      · exact .inr ⟨reason, standard_judgeToken_eq_interrupted_iff.mpr hbroken⟩
    · rw [hlong, heq]
      rfl

/-- A longer leeway refuses nothing that a shorter one accepts, neither a token nor, in a service
with the rules of the library, a header: as long as both ends of it around the clock are words, what
is accepted stays accepted, and beyond that verifying breaks off. -/
theorem authenticate_mono_leeway :
    (∀ {token pem : String} {short long : Duration} {now : Clock} {c : Claims},
      short.seconds ≤ long.seconds → Token.verify token pem short now = .ok c →
        Token.KeepsOrBreaks token pem long now c) ∧
    ∀ {config config' : AuthConfig} {source : KeySource σ} {around : Surroundings}
        {bearer : String} {s : ServiceState σ} {c : Claims},
      config.leeway.seconds ≤ config'.leeway.seconds →
        ((standard config source).authenticate around bearer s).result = .ok c →
          KeepsOrBreaks config config' source around bearer s c :=
  ⟨Token.keepsOrBreaks, keepsOrBreaks⟩

/-! ### A service over the pair of proved primes -/

/-- The state in which the public half of the pair of proved primes is cached. -/
def cachedState : ServiceState KeyStore :=
  ⟨Registry.empty.insert Fixtures.kid KeyPair.smoothPair.publicPem, KeyStore.empty⟩

/-- The service of the fixtures with a leeway, over an empty store. -/
def withLeeway (leeway : Duration) : AuthService KeyStore :=
  standard { Fixtures.config with leeway := leeway } KeyStore.source

/-- For all claims there is a token that the service accepts in their window. -/
theorem exists_authenticate (h : Token.InWindow c none Duration.zero now) :
    ∃ token, KeyPair.smoothPair.Signs c Fixtures.kid token ∧
      Token.verify token KeyPair.smoothPair.publicPem Duration.zero now = .ok c ∧
      ((withLeeway Duration.zero).authenticate ⟨now, false⟩ (Fixtures.bearer token)
        cachedState).result = .ok c := by
  obtain ⟨token, pem, hpem, hencode⟩ := KeyPair.exists_encode_of_primes
    KeyPair.smoothPair_hasPrimes KeyPair.smoothPair_suitsSigning c Fixtures.kid
  have hsigns := KeyPair.signs_of_encode hpem hencode
  have hverify := (hsigns.signedOver.verify_iff_inWindow .plain (.zero now)).mpr h
  have hkid : Token.namedKid token = .ok Fixtures.kid :=
    KeyPair.namedKid_of_signs hsigns (by decide)
  have hspace : ' ' ∉ token.toList := by
    obtain ⟨signature, rfl, -⟩ := hsigns
    exact Token.space_notMem_issued _ _ signature
  refine ⟨token, hsigns, hverify, authenticate_result_eq_ok_iff.mpr ⟨token, Fixtures.kid,
    KeyPair.smoothPair.publicPem, rfl, hspace, hkid, .inl ?_, ?_⟩⟩
  · rw [cachedState, Registry.find?_insert, if_pos rfl]
  · exact judgeToken_eq_ok_iff.mp (standard_judgeToken_eq_ok_iff.mpr hverify)

/-- A second more than the clock. -/
def beyondClock : Duration := ⟨1700003601, 0, by decide, Duration.zero.nanos_lt⟩

/-- At the end of the claims the header is accepted without leeway, in the same way with five
minutes of leeway, and left without an answer with a leeway that exceeds the clock. -/
theorem authenticate_mono_leeway_of_an_hour :
    ∃ token, ((withLeeway Duration.zero).authenticate ⟨1700003600, false⟩ (Fixtures.bearer token)
        cachedState).result = .ok (Fixtures.freshUserClaims 1700000000) ∧
      Duration.zero.seconds ≤ Token.fiveMinutes.seconds ∧
      Token.fiveMinutes.FitsAround 1700003600 ∧
      (withLeeway Token.fiveMinutes).authenticate ⟨1700003600, false⟩ (Fixtures.bearer token)
          cachedState =
        (withLeeway Duration.zero).authenticate ⟨1700003600, false⟩ (Fixtures.bearer token)
          cachedState ∧
      Token.verify token KeyPair.smoothPair.publicPem Token.fiveMinutes 1700003600 =
        .ok (Fixtures.freshUserClaims 1700000000) ∧
      ((withLeeway beyondClock).authenticate ⟨1700003600, false⟩ (Fixtures.bearer token)
        cachedState).result = .interrupted .subtraction := by
  have hwindow : Token.InWindow (Fixtures.freshUserClaims 1700000000) none Duration.zero
      1700003600 := Token.inWindow_at_end (by decide)
  obtain ⟨token, hsigns, hverify, hresult⟩ := exists_authenticate hwindow
  have hle : Duration.zero.seconds ≤ Token.fiveMinutes.seconds := by decide
  have hfits : Token.fiveMinutes.FitsAround 1700003600 := ⟨by decide, by decide⟩
  obtain ⟨htokens, hheaders⟩ := authenticate_mono_leeway (σ := KeyStore)
  have hbroken : KeepsOrBreaks _ { Fixtures.config with leeway := beyondClock } _ _ _ _ _ :=
    hheaders (by decide) hresult
  exact ⟨token, hresult, hle, hfits, (hheaders hle hresult).keeps hfits,
    (htokens hle hverify).keeps hfits, hbroken.breaks (by decide)⟩

/-- A token that verifies without leeway does not verify with a leeway that exceeds the clock, and a
service that believed it does not believe it. -/
theorem exists_verify_and_refused_with_leeway :
    ∃ token, Token.verify token KeyPair.smoothPair.publicPem Duration.zero 1700003600 =
        .ok (Fixtures.freshUserClaims 1700000000) ∧
      (∀ c, Token.verify token KeyPair.smoothPair.publicPem beyondClock 1700003600 ≠ .ok c) ∧
      ((withLeeway Duration.zero).authenticate ⟨1700003600, false⟩ (Fixtures.bearer token)
        cachedState).result = .ok (Fixtures.freshUserClaims 1700000000) ∧
      ∀ c, ((withLeeway beyondClock).authenticate ⟨1700003600, false⟩ (Fixtures.bearer token)
        cachedState).result ≠ .ok c := by
  have hwindow : Token.InWindow (Fixtures.freshUserClaims 1700000000) none Duration.zero
      1700003600 := Token.inWindow_at_end (by decide)
  obtain ⟨token, -, hverify, hresult⟩ := exists_authenticate hwindow
  have htoken : Token.KeepsOrBreaks token KeyPair.smoothPair.publicPem beyondClock 1700003600 _ :=
    Token.keepsOrBreaks (by decide) hverify
  have hheader : KeepsOrBreaks _ { Fixtures.config with leeway := beyondClock } _ _ _ _ _ :=
    keepsOrBreaks (by decide) hresult
  refine ⟨token, hverify, fun c hc => ?_, hresult, fun c hc => ?_⟩
  · rw [htoken.breaks (by decide)] at hc
    cases hc
  · rw [withLeeway, hheader.breaks (by decide)] at hc
    cases hc

end AuthService

end BearerAuth
