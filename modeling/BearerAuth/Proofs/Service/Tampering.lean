import Mathlib
import BearerAuth.Proofs.KeyPair.Signing
import BearerAuth.Proofs.Service.KeySelection

/-!
# Tokens with another signature

Whoever changes the last piece of a token that a service believes, and nothing else, gets one
answer: the token is not believed, for no stated reason.  What the piece is changed to does not
matter.  It may spell the same bytes in another way, it may be no base64 at all, or it may be empty:
the key that the token names is found as before, and under this key the token does not verify.

Main statement: `tampered_signature_refused`.  It rests on two facts, that base64 has one spelling
for every byte string (`Token.eq_of_decodeSegment`) and that the key determines its signatures.
-/

namespace BearerAuth

namespace Token

/-! ### Tokens that differ in their last piece -/

/-- Two pieces that spell the same bytes are the same. -/
theorem eq_of_decodeSegment {cs ds : List Char} {b : Bytes} (hcs : decodeSegment cs = some b)
    (hds : decodeSegment ds = some b) : cs = ds := by
  rw [Base64.Alphabet.eq_encode_of_decode hcs, Base64.Alphabet.eq_encode_of_decode hds]

/-- The key that a token names does not depend on its last piece. -/
theorem namedKid_congr {token other kid : String} {s pieces : Segments}
    (hs : segments? token = some s) (hother : segments? other = some pieces)
    (hheader : pieces.header = s.header) (hpayload : pieces.payload = s.payload)
    (h : namedKid token = .ok kid) : namedKid other = .ok kid := by
  obtain ⟨found, header, members, payload, hfound, hdecode, hread, hpayloadBytes, halg, hkid,
    hvalid⟩ := namedKid_eq_ok_iff.mp h
  obtain rfl : s = found := Option.some.inj (hs.symm.trans hfound)
  exact namedKid_eq_ok_iff.mpr ⟨pieces, header, members, payload, hother, hheader ▸ hdecode, hread,
    hpayload ▸ hpayloadBytes, halg, hkid, hvalid⟩

/-- Under a key that determines its signatures no token verifies that differs from one that does in
its last piece alone. -/
theorem verify_eq_invalidToken {token other pem : String} {leeway : Duration} {now later : Clock}
    {claims : Claims} {s pieces : Segments} (hverify : verify token pem leeway now = .ok claims)
    (hs : segments? token = some s) (hother : segments? other = some pieces)
    (hmessage : pieces.message = s.message) (hne : pieces.signature ≠ s.signature)
    (hkey : ∀ key, (KeyMaterial.ofPem? pem).bind KeyMaterial.publicKey? = some key →
      key.DeterminesSignatures) :
    verify other pem leeway later = .error .invalidToken := by
  obtain ⟨material, found, -, key, signature, -, hmaterial, hfound, -, -, hpublic, hsignature,
    hverifies, -, -⟩ := verify_eq_ok_iff.mp hverify
  obtain rfl : s = found := Option.some.inj (hs.symm.trans hfound)
  have hnone : signedPayload? material other = none := by
    by_contra hsome
    obtain ⟨payload, hpayload⟩ := Option.ne_none_iff_exists'.mp hsome
    obtain ⟨found', -, key', signature', hfound', -, -, hpublic', hsignature', hverifies', -⟩ :=
      signedPayload?_eq_some_iff.mp hpayload
    obtain rfl : pieces = found' := Option.some.inj (hother.symm.trans hfound')
    obtain rfl : key = key' := Option.some.inj (hpublic.symm.trans hpublic')
    rw [hmessage] at hverifies'
    have hone : key.DeterminesSignatures := hkey key (by rw [hmaterial, Option.bind_some, hpublic])
    obtain rfl : signature = signature' := hone _ _ _ hverifies hverifies'
    exact hne (eq_of_decodeSegment hsignature' hsignature)
  simp only [verify, hmaterial, hnone]

end Token

namespace AuthService

variable {σ : Type} {config : AuthConfig} {source : KeySource σ} {around later : Surroundings}
  {s : ServiceState σ}

/-- The public key in the text that a service holds for the key id that a token names. -/
def heldKey? (s : ServiceState σ) (token : String) : Option Rsa.PublicKey := do
  let kid ← (Token.namedKid token).toOption
  let pem ← s.cache.find? kid
  (KeyMaterial.ofPem? pem).bind KeyMaterial.publicKey?

/-- The key that is held is the one in the cached text. -/
theorem heldKey?_of_cached {token kid pem : String} (hkid : Token.namedKid token = .ok kid)
    (hcached : s.cache.find? kid = some pem) :
    heldKey? s token = (KeyMaterial.ofPem? pem).bind KeyMaterial.publicKey? := by
  rw [heldKey?, hkid]
  simp only [Except.toOption, Option.bind_eq_bind, Option.bind_some, hcached]

/-- A service with the rules of the library gives no reason for a token that does not verify. -/
theorem standard_judgeToken_of_invalidToken {now : Clock} {pem token : String}
    (h : Token.verify token pem config.leeway now = .error .invalidToken) :
    (standard config source).judgeToken now pem token =
      (.error .authenticationFailed, [.tokenVerificationFailed, .tokenRejectedByPolicy]) := by
  unfold judgeToken
  rw [standard_policy_evaluate]
  simp [RuleTable.verifies, h]

/-- A service believes at most one signature over a header and a payload.  If a service with the
rules of the library believes a token, and the public key that it then holds for the token
determines its signatures, then the token with any other last piece, as long as it has no dot and no
space, is not believed at any later time: it is refused without a reason, what is cached stays as it
is, and the source of keys is not asked. -/
theorem tampered_signature_refused {header payload signature other : String} {claims : Claims}
    {accepted : ServiceState σ} {events : List Event}
    (haccepted : (standard config source).authenticate around
      ("Bearer " ++ (header ++ "." ++ payload ++ "." ++ signature)) s =
        ⟨.ok claims, accepted, events⟩)
    (hkey : ∀ key, heldKey? accepted (header ++ "." ++ payload ++ "." ++ signature) = some key →
      key.DeterminesSignatures)
    (hne : other ≠ signature) (hdot : '.' ∉ other.toList) (hspace : ' ' ∉ other.toList) :
    (standard config source).authenticate later
      ("Bearer " ++ (header ++ "." ++ payload ++ "." ++ other)) accepted =
        ⟨.error .authenticationFailed, accepted,
          [.cacheHit, .tokenVerificationFailed, .tokenRejectedByPolicy]⟩ := by
  have hresult := congrArg Outcome.result haccepted
  obtain ⟨kid, pem, hkid, -, hcached, hverify⟩ := verify_of_authenticate hresult
  rw [haccepted] at hcached
  obtain ⟨bearer, -, -, hbearer, hclean, -⟩ := authenticate_result_eq_ok_iff.mp hresult
  obtain rfl : header ++ "." ++ payload ++ "." ++ signature = bearer := by simpa using hbearer
  have htoList : ∀ last : String, (header ++ "." ++ payload ++ "." ++ last).toList =
      header.toList ++ '.' :: payload.toList ++ '.' :: last.toList := by
    intro last
    simp
  -- Both tokens fall into the pieces from which they are put together here.
  obtain ⟨-, pieces, -, -, -, -, -, hpieces, -⟩ := Token.verify_eq_ok_iff.mp hverify
  obtain rfl : pieces = ⟨header.toList, payload.toList, signature.toList⟩ :=
    Token.segments?_eq_of_toList hpieces (htoList signature)
  obtain ⟨-, hnonempty, hnotHeader, hnotPayload, -⟩ := Token.segments?_eq_some_iff.mp hpieces
  have hother : Token.segments? (header ++ "." ++ payload ++ "." ++ other) =
      some ⟨header.toList, payload.toList, other.toList⟩ :=
    Token.segments?_eq_some_iff.mpr ⟨htoList other, hnonempty, hnotHeader, hnotPayload, hdot⟩
  have htoken : bearerToken? ("Bearer " ++ (header ++ "." ++ payload ++ "." ++ other)) =
      some (header ++ "." ++ payload ++ "." ++ other) := by
    refine bearerToken?_eq_some_iff.mpr ⟨rfl, ?_⟩
    rw [htoList] at hclean ⊢
    simp only [List.mem_append, List.mem_cons, not_or] at hclean ⊢
    exact ⟨hclean.1, by decide, hspace⟩
  -- The key is found in the cache, and under this key only one signature verifies.
  have hlookup : KeyCache.lookup (standard config source).source later.fetchBlocked kid accepted =
      ⟨.ok pem, accepted, [.cacheHit]⟩ := KeyCache.lookup_of_cached hcached
  have hinvalid : Token.verify (header ++ "." ++ payload ++ "." ++ other) pem config.leeway
      later.now = .error .invalidToken := by
    refine Token.verify_eq_invalidToken hverify hpieces hother rfl ?_ ?_
    · intro heq
      exact hne (String.toList_injective heq)
    · intro key hheld
      apply hkey key
      rw [heldKey?_of_cached hkid hcached, hheld]
  rw [authenticate_of_lookup_ok htoken (Token.namedKid_congr hpieces hother rfl rfl hkid)
    (congrArg Outcome.result hlookup), hlookup, standard_judgeToken_of_invalidToken hinvalid]
  rfl

/-! ### A pair that determines its signatures -/

/-- The public half of the pair of proved primes, read in its text, determines its signatures. -/
theorem smoothPair_publicPem {key : Rsa.PublicKey}
    (h : (KeyMaterial.ofPem? KeyPair.smoothPair.publicPem).bind KeyMaterial.publicKey? =
      some key) : key.DeterminesSignatures := by
  obtain ⟨k, hk, husable⟩ := KeyPair.exists_privateKey_smoothPair
  have hpublic : KeyPair.smoothPair.publicKey.isUsable = true := by
    rw [← KeyPair.publicKey_of_privateKey? hk]
    exact Rsa.PrivateKey.isUsable_publicKey husable
  obtain ⟨material, hmaterial, hkey⟩ := KeyPair.readPublic_publicPem hpublic
  rw [hmaterial, Option.bind_some, hkey] at h
  obtain rfl : KeyPair.smoothPair.publicKey = key := Option.some.inj h
  exact KeyPair.determinesSignatures_of_primes KeyPair.smoothPair_hasPrimes KeyPair.smoothPair_ne

/-- The state of a service that has not been used and whose counted store holds the pair of proved
primes. -/
def smoothStart : ServiceState (Counted KeyStore) :=
  start (Counted.start (KeyStore.empty.insert Fixtures.kid KeyPair.smoothPair))

/-- The state after the first lookup: the key is cached, and the store was asked once. -/
def smoothFetched : ServiceState (Counted KeyStore) :=
  ⟨Registry.empty.insert Fixtures.kid KeyPair.smoothPair.publicPem,
    ⟨KeyStore.empty.insert Fixtures.kid KeyPair.smoothPair, 0, 1, none⟩⟩

theorem lookup_smoothStart :
    KeyCache.lookup Fixtures.service.source false Fixtures.kid smoothStart =
      ⟨.ok KeyPair.smoothPair.publicPem, smoothFetched, [.cacheMiss, .cachePopulated]⟩ := by
  have hfind : (KeyStore.empty.insert Fixtures.kid KeyPair.smoothPair).pairs.find? Fixtures.kid =
      some KeyPair.smoothPair := by
    rw [KeyStore.insert, Registry.find?_insert, if_pos rfl]
  have hinner := KeyStore.source_publicPem_eq_ok_iff.mpr ⟨_, hfind, rfl, rfl⟩
  have hsource : Fixtures.service.source.publicPem Fixtures.kid smoothStart.source =
      (.ok KeyPair.smoothPair.publicPem,
        ⟨KeyStore.empty.insert Fixtures.kid KeyPair.smoothPair, 0, 1, none⟩) := by
    simp only [Fixtures.service, standard, KeySource.counting, KeySource.failing, smoothStart,
      start, Counted.start, hinner]
  exact KeyCache.lookup_of_fetched rfl rfl hsource

/-- A token that the service signs with this pair is believed, and its signature is not empty. -/
theorem exists_believed_smooth :
    ∃ signature events, signature.length = 256 ∧
      Token.namedKid (Token.issued Fleet.loginClaims Fixtures.kid signature) = .ok Fixtures.kid ∧
      Fixtures.service.authenticate ⟨1700000001, false⟩
        ("Bearer " ++ Token.issued Fleet.loginClaims Fixtures.kid signature) smoothStart =
          ⟨.ok Fleet.loginClaims, smoothFetched, events⟩ := by
  obtain ⟨token, pem, hpem, hencode⟩ := KeyPair.exists_encode_of_primes
    KeyPair.smoothPair_hasPrimes KeyPair.smoothPair_suitsSigning Fleet.loginClaims Fixtures.kid
  have hsigns := KeyPair.signs_of_encode hpem hencode
  have hkid := KeyPair.namedKid_of_signs hsigns Fixtures.config.validKid
  have hbearer := KeyPair.bearerToken?_of_signs hsigns
  have hfound := congrArg Outcome.result lookup_smoothStart
  have hbelieved : (Fixtures.service.authenticate ⟨1700000001, false⟩ ("Bearer " ++ token)
      smoothStart).result = .ok Fleet.loginClaims :=
    authenticate_of_signs hsigns Fixtures.config.validKid
      (KeyCache.lookup_result_eq_ok_iff.mp hfound) (by decide) (by decide) (by decide)
  have hstate : (Fixtures.service.authenticate ⟨1700000001, false⟩ ("Bearer " ++ token)
      smoothStart).state =
        (KeyCache.lookup Fixtures.service.source false Fixtures.kid smoothStart).state :=
    congrArg Outcome.state (authenticate_of_lookup_ok hbearer hkid hfound)
  rcases hstep : Fixtures.service.authenticate ⟨1700000001, false⟩ ("Bearer " ++ token)
    smoothStart with ⟨result, state, events⟩
  rw [hstep] at hbelieved hstate
  rw [lookup_smoothStart] at hstate
  obtain rfl : result = .ok Fleet.loginClaims := hbelieved
  obtain rfl : state = smoothFetched := hstate
  obtain ⟨signature, rfl, hverifies⟩ := hsigns
  obtain ⟨-, hlength, -, -⟩ := Rsa.PublicKey.verifies_iff.mp hverifies
  have hsize : Bytes.byteLength KeyPair.smoothPair.publicKey.modulus = 256 := by
    decide +kernel
  exact ⟨signature, events, hlength.trans hsize, hkid, hstep⟩

/-- The segments of a token that was issued. -/
theorem issued_eq (claims : Claims) (kid : String) (signature : Bytes) :
    Token.issued claims kid signature = Token.encodeSegment (utf8 (Token.headerJson kid)) ++ "." ++
      Token.encodeSegment (utf8 claims.toJson) ++ "." ++ Token.encodeSegment signature := rfl

/-- A service believes the token that it signed with this pair, and refuses it with the
same bytes in another spelling and with nothing in the place of its signature; the
source has been asked once. -/
theorem tampered_signature_refused_respelled :
    ∃ header payload signature accepted events,
      Fixtures.service.authenticate ⟨1700000001, false⟩
        ("Bearer " ++ (header ++ "." ++ payload ++ "." ++ signature)) smoothStart =
          ⟨.ok Fleet.loginClaims, accepted, events⟩ ∧
      accepted.source.publicCalls = 1 ∧
      ∀ other ∈ [signature ++ "==", ""],
        Fixtures.service.authenticate ⟨1700000001, false⟩
          ("Bearer " ++ (header ++ "." ++ payload ++ "." ++ other)) accepted =
            ⟨.error .authenticationFailed, accepted,
              [.cacheHit, .tokenVerificationFailed, .tokenRejectedByPolicy]⟩ := by
  obtain ⟨signature, events, hlength, hkid, hbelieved⟩ := exists_believed_smooth
  rw [issued_eq] at hkid hbelieved
  refine ⟨Token.encodeSegment (utf8 (Token.headerJson Fixtures.kid)),
    Token.encodeSegment (utf8 Fleet.loginClaims.toJson), Token.encodeSegment signature,
    smoothFetched, events, hbelieved, rfl, ?_⟩
  intro other hother
  have hclean : ∀ c, Base64.Alphabet.urlSafe.value? c = none →
      c ∉ (Token.encodeSegment signature).toList := by
    intro c hc
    rw [Token.encodeSegment, String.toList_ofList]
    exact Base64.Alphabet.notMem_encode Base64.Alphabet.urlSafe_lawful hc signature
  have hother' : other ≠ Token.encodeSegment signature ∧ '.' ∉ other.toList ∧
      ' ' ∉ other.toList := by
    simp only [List.mem_cons, List.not_mem_nil, or_false] at hother
    rcases hother with rfl | rfl
    · refine ⟨?_, by simp [hclean '.' (by decide)], by simp [hclean ' ' (by decide)]⟩
      intro heq
      have hlonger := congrArg String.length heq
      simp at hlonger
    · refine ⟨?_, by decide, by decide⟩
      intro heq
      have hempty := congrArg (fun text : String => text.toList.length) heq
      simp [Token.encodeSegment, Base64.Alphabet.length_encode, hlength] at hempty
  refine tampered_signature_refused hbelieved ?_ hother'.1 hother'.2.1 hother'.2.2
  intro key hheld
  have hcached : smoothFetched.cache.find? Fixtures.kid = some KeyPair.smoothPair.publicPem := by
    rw [smoothFetched, Registry.find?_insert, if_pos rfl]
  apply smoothPair_publicPem
  rw [← heldKey?_of_cached hkid hcached, hheld]

end AuthService

end BearerAuth
