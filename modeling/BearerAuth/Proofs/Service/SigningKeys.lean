import Mathlib
import BearerAuth.Proofs.KeyPair.Signing
import BearerAuth.Proofs.Service.Issuance

/-!
# Keys that load and do not sign

A store loads every pair whose numbers fit together, and a service signs with what it finds there.
A pair that does not suit signing signs no claims at all.  A suitable pair of primes signs all
claims; what a suitable pair signs whose factors are not primes is left open, but whatever it does
not sign fails because the signature does not verify.  Pairs that are shorter than generated ones
may be are loaded all the same.

Main statement: `AuthService.issueToken_of_load`.
-/

namespace BearerAuth

namespace AuthService

variable {config : AuthConfig} {policy : Evaluator} {cache : KeyCache} {store : KeyStore}
  {pair : KeyPair}

/-- What a service may say that does not issue a token under a pair that does not suit signing. -/
def unsuitableFailures (kid : String) (pair : KeyPair) : List AuthFailure :=
  match pair.privateKey? with
  | none => [.keyLookup kid KeyPair.encodingFailure]
  | some k => [.keyParse kid, .signing (.unsuitableKey (Der.encodePrivateKey k))]

/-- A service issues a token for all claims under a suitable pair of primes. -/
theorem exists_issueToken (hfind : store.pairs.find? config.activeKid = some pair)
    (hprimes : pair.HasPrimes) (h : pair.SuitsSigning) (claims : Claims) :
    ∃ token, ((AuthService.mk config KeyStore.source policy).issueToken claims
      ⟨cache, store⟩).result = .ok token := by
  obtain ⟨token, pem, hpem, hencode⟩ :=
    KeyPair.exists_encode_of_primes hprimes h claims config.activeKid
  have hsource : KeyStore.source.privatePem config.activeKid store = (.ok pem, store) :=
    KeyStore.source_privatePem_eq_ok_iff.mpr ⟨pair, hfind, hpem, rfl⟩
  exact ⟨token, issueToken_result_eq_ok_iff.mpr ⟨pem, store, hsource, hencode⟩⟩

/-- A service fails as signing does under the key that it finds. -/
theorem issueToken_of_encode_eq_error {claims : Claims} {pem : String} {failure : AuthFailure}
    (hsource : KeyStore.source.privatePem config.activeKid store = (.ok pem, store))
    (hencode : Token.encode claims config.activeKid pem = .error failure) :
    (AuthService.mk config KeyStore.source policy).issueToken claims ⟨cache, store⟩ =
      ⟨.error failure, ⟨cache, store⟩, []⟩ := by
  simp only [issueToken, hsource, hencode]

/-- Under a suitable pair a service issues a token, unless the signature does not verify under the
pair itself. -/
theorem issueToken_of_suitsSigning (hfind : store.pairs.find? config.activeKid = some pair)
    (h : pair.SuitsSigning) (claims : Claims) :
    (∃ token, ((AuthService.mk config KeyStore.source policy).issueToken claims
        ⟨cache, store⟩).result = .ok token) ∨
      ((AuthService.mk config KeyStore.source policy).issueToken claims ⟨cache, store⟩).result =
        .error (.signing .inconsistentKey) := by
  obtain ⟨pem, hpem, hencode⟩ := KeyPair.encode_of_suitsSigning h claims config.activeKid
  have hsource : KeyStore.source.privatePem config.activeKid store = (.ok pem, store) :=
    KeyStore.source_privatePem_eq_ok_iff.mpr ⟨pair, hfind, hpem, rfl⟩
  rcases hencode with ⟨token, hencode⟩ | hencode
  · exact .inl ⟨token, issueToken_result_eq_ok_iff.mpr ⟨pem, store, hsource, hencode⟩⟩
  · exact .inr (by rw [issueToken_of_encode_eq_error hsource hencode])

/-- A service issues no token for any claims under a pair that does not suit signing. -/
theorem issueToken_of_not_suitsSigning (hfind : store.pairs.find? config.activeKid = some pair)
    (h : ¬ pair.SuitsSigning) (claims : Claims) :
    ∃ failure ∈ unsuitableFailures config.activeKid pair,
      ((AuthService.mk config KeyStore.source policy).issueToken claims ⟨cache, store⟩).result =
        .error failure := by
  have hpair : store.pair config.activeKid = .ok pair := by
    rw [KeyStore.pair, hfind]
  cases hk : pair.privateKey? with
  | none =>
    have hpem : pair.privatePem = .error KeyPair.encodingFailure := by
      rw [KeyPair.privatePem, hk]
    refine ⟨.keyLookup config.activeKid KeyPair.encodingFailure,
      by simp [unsuitableFailures, hk], ?_⟩
    simp only [issueToken, KeyStore.source, KeyStore.privatePem, hpair, Except.bind, hpem]
  | some k =>
    have hpem := KeyPair.privatePem_eq_ok_iff.mpr ⟨k, hk, rfl⟩
    have hsource := KeyStore.source_privatePem_eq_ok_iff.mpr ⟨pair, hfind, hpem, rfl⟩
    rcases KeyPair.encode_of_not_suitsSigning h hk hpem claims config.activeKid with
      ⟨-, hencode⟩ | hencode
    · refine ⟨.keyParse config.activeKid, by simp [unsuitableFailures, hk], ?_⟩
      rw [issueToken_of_encode_eq_error hsource hencode]
    · refine ⟨.signing (.unsuitableKey (Der.encodePrivateKey k)),
        by simp [unsuitableFailures, hk], ?_⟩
      rw [issueToken_of_encode_eq_error hsource hencode]

/-- What a store loads for the active key id of a service decides about all of its tokens.  If the
pair in the text does not suit signing, no token is issued for any claims.  If it does, a token is
issued unless the signature does not verify under the pair itself, which does not happen to a pair
of primes. -/
theorem issueToken_of_load {next : KeyStore} {pem : String}
    (hload : store.load config.activeKid pem = .ok next) :
    ∃ pair, KeyPair.ofPem? pem = some pair ∧ next = store.insert config.activeKid pair ∧
      (pair.HasPrimes → pair.SuitsSigning → ∀ claims, ∃ token,
        ((AuthService.mk config KeyStore.source policy).issueToken claims ⟨cache, next⟩).result =
          .ok token) ∧
      (pair.SuitsSigning → ∀ claims,
        (∃ token, ((AuthService.mk config KeyStore.source policy).issueToken claims
          ⟨cache, next⟩).result = .ok token) ∨
        ((AuthService.mk config KeyStore.source policy).issueToken claims ⟨cache, next⟩).result =
          .error (.signing .inconsistentKey)) ∧
      (¬ pair.SuitsSigning → ∀ claims, ∃ failure ∈ unsuitableFailures config.activeKid pair,
        ((AuthService.mk config KeyStore.source policy).issueToken claims ⟨cache, next⟩).result =
          .error failure) := by
  cases hpair : KeyPair.ofPem? pem with
  | none => simp [KeyStore.load, KeyPair.fromPem, hpair, Except.map] at hload
  | some pair =>
    obtain rfl : store.insert config.activeKid pair = next := by
      simpa [KeyStore.load, KeyPair.fromPem, hpair, Except.map] using hload
    have hfind : (store.insert config.activeKid pair).pairs.find? config.activeKid = some pair := by
      rw [KeyStore.insert, Registry.find?_insert, if_pos rfl]
    refine ⟨pair, rfl, rfl, ?_, ?_, ?_⟩
    · intro hprimes hsuits claims
      exact exists_issueToken hfind hprimes hsuits claims
    · intro hsuits claims
      exact issueToken_of_suitsSigning hfind hsuits claims
    · intro hunsuitable claims
      exact issueToken_of_not_suitsSigning hfind hunsuitable claims

/-- The text of the pair of proved primes is loaded, and a token is issued for all claims. -/
theorem issueToken_of_load_smooth :
    ∃ pem next, KeyPair.smoothPair.privatePem = .ok pem ∧
      KeyStore.empty.load Fixtures.config.activeKid pem = .ok next ∧
      ∀ claims, ∃ token,
        ((AuthService.mk Fixtures.config KeyStore.source
          (RuleTable.standard Duration.zero).toEvaluator).issueToken claims
            ⟨Registry.empty, next⟩).result = .ok token := by
  obtain ⟨k, hk, -⟩ := KeyPair.exists_privateKey_smoothPair
  obtain ⟨pem, hpem⟩ : ∃ pem, KeyPair.smoothPair.privatePem = .ok pem :=
    ⟨_, KeyPair.privatePem_eq_ok_iff.mpr ⟨k, hk, rfl⟩⟩
  have hread : KeyPair.ofPem? pem = some KeyPair.smoothPair :=
    KeyPair.ofPem?_privatePem hpem (by decide : 5 ≤ 256) (by decide) (by decide +kernel)
      (by decide +kernel)
  have hload : KeyStore.empty.load Fixtures.config.activeKid pem =
      .ok (KeyStore.empty.insert Fixtures.config.activeKid KeyPair.smoothPair) := by
    simp [KeyStore.load, KeyPair.fromPem, hread, Except.map]
  obtain ⟨pair, hpair, -, hissues, -⟩ := issueToken_of_load hload
  obtain rfl : KeyPair.smoothPair = pair := Option.some.inj (hread.symm.trans hpair)
  exact ⟨pem, _, hpem, hload,
    hissues KeyPair.smoothPair_hasPrimes KeyPair.smoothPair_suitsSigning⟩

/-! ### A short pair -/

/-- A pair of two primes of 256 bits. -/
def shortPair : KeyPair :=
  (KeyPair.ofPrimes? 0xebe67034fafdf806b56b09d6b2c474f9fb197cae5d30e25d812a515c5483b547
    0xdd3fd9d0160d137191f7d43dbc7057eff3aa581594a49f366d38c27e57399a63).get (by decide +kernel)

/-- The text of a pair with a modulus of 512 bits is loaded, though generated keys have at least
2048, and then no token is issued for any claims. -/
theorem short_pair_loaded_and_unsuitable :
    ∃ pem next content, shortPair.privatePem = .ok pem ∧ bitLength shortPair.modulus = 512 ∧
      bitLength shortPair.modulus < KeyPair.minBits ∧
      KeyStore.empty.load Fixtures.config.activeKid pem = .ok next ∧
      ∀ claims, (AuthService.mk Fixtures.config KeyStore.source
        (RuleTable.standard Duration.zero).toEvaluator).issueToken claims ⟨Registry.empty, next⟩ =
          ⟨.error (.signing (.unsuitableKey content)), ⟨Registry.empty, next⟩, []⟩ := by
  have hcoprime : Nat.Coprime shortPair.prime1 shortPair.prime2 := by decide +kernel
  obtain ⟨k, hk⟩ := KeyPair.exists_privateKey?_iff.mpr hcoprime
  obtain ⟨pem, hpem⟩ : ∃ pem, shortPair.privatePem = .ok pem :=
    ⟨_, KeyPair.privatePem_eq_ok_iff.mpr ⟨k, hk, rfl⟩⟩
  have hmodulus : Bytes.byteLength shortPair.modulus ≤ 64 := by decide +kernel
  have hexponent : Bytes.byteLength shortPair.privateExponent ≤ 64 := by decide +kernel
  have hread : KeyPair.ofPem? pem = some shortPair :=
    KeyPair.ofPem?_privatePem hpem (by decide) (by decide) hmodulus hexponent
  have hload : KeyStore.empty.load Fixtures.config.activeKid pem =
      .ok (KeyStore.empty.insert Fixtures.config.activeKid shortPair) := by
    simp [KeyStore.load, KeyPair.fromPem, hread, Except.map]
  have hunsuitable : ¬ shortPair.SuitsSigning := fun h => by
    have hsize := h.size
    revert hsize
    decide +kernel
  refine ⟨pem, _, Der.encodePrivateKey k, hpem, by decide +kernel, by decide +kernel, hload, ?_⟩
  intro claims
  have hencode := KeyPair.encode_of_short hunsuitable hk hpem (by decide) (by decide) hmodulus
    hexponent claims Fixtures.config.activeKid
  have hsource : KeyStore.source.privatePem Fixtures.config.activeKid
      (KeyStore.empty.insert Fixtures.config.activeKid shortPair) = (.ok pem, _) :=
    KeyStore.source_privatePem_eq_ok_iff.mpr
      ⟨shortPair, by rw [KeyStore.insert, Registry.find?_insert, if_pos rfl], hpem, rfl⟩
  exact issueToken_of_encode_eq_error hsource hencode

end AuthService

end BearerAuth
