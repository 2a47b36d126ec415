import Mathlib
import BearerAuth.Proofs.Claims.Rewriting
import BearerAuth.Proofs.KeyPair.Signing
import BearerAuth.Proofs.Token.PayloadReadings

/-!
# The window in which a token verifies

From when on and until when a token verifies, as a statement about whole numbers.  Times are
compared in words of 64 bits, so this holds where both ends of the leeway around the clock are words
themselves.  Without leeway this is always the case.

Main statements: `verify_within_window`, and `hasEndedBy_iff_of_verify` for the second in which
claims have ended and their token still verifies.
-/

namespace BearerAuth

variable {token pem : String} {payload : Bytes} {begins : Option Nat} {leeway : Duration}
  {now : Clock} {c : Claims} {r r' : Token.Registered}

/-- Both ends of the leeway around a point in time are words of 64 bits. -/
def Duration.FitsAround (leeway : Duration) (now : Clock) : Prop :=
  leeway.seconds ≤ now.toNat ∧ now.toNat + leeway.seconds < 2 ^ 64

theorem Duration.toNat_wholeSeconds (d : Duration) : d.wholeSeconds.toNat = d.seconds :=
  UInt64.toNat_ofNat_of_lt' d.seconds_lt

/-- Without leeway both ends are the point in time itself. -/
theorem Duration.FitsAround.zero (now : Clock) : Duration.zero.FitsAround now :=
  ⟨Nat.zero_le _, now.toNat_lt⟩

/-- A shorter leeway reaches less far. -/
theorem Duration.FitsAround.mono {short long : Duration} (h : long.FitsAround now)
    (hle : short.seconds ≤ long.seconds) : short.FitsAround now :=
  ⟨le_trans hle h.1, lt_of_le_of_lt (Nat.add_le_add_left hle _) h.2⟩

theorem Duration.FitsAround.le (h : leeway.FitsAround now) : leeway.wholeSeconds ≤ now := by
  rw [UInt64.le_iff_toNat_le, toNat_wholeSeconds]
  exact h.1

namespace Token

open Json

/-! ### Payloads with a beginning -/

/-- A step on any other member leaves the beginning alone. -/
theorem Registered.step_withBeginning {name : String} {input rest : Bytes}
    (hname : name ≠ "nbf") (h : r.step name input = some (r', rest)) (nbf : Option (Option Nat)) :
    ({ r with nbf := nbf } : Registered).step name input = some ({ r' with nbf := nbf }, rest) ∧
      r'.nbf = r.nbf := by
  by_cases hregistered : name ∈ ["exp", "nbf", "sub", "iss", "aud"]
  · simp only [List.mem_cons, List.not_mem_nil, or_false, hname, false_or] at hregistered
    -- Whether the place is free does not depend on the beginning.
    rcases hregistered with rfl | rfl | rfl | rfl
    all_goals
      simp only [Registered.step, Option.ite_none_left_eq_some] at h ⊢
      obtain ⟨hfree, heq⟩ := h
      cases heq
      exact ⟨⟨hfree, rfl⟩, rfl⟩
  · rw [Registered.step_of_notMem hregistered] at h ⊢
    obtain ⟨behind, hvalue, heq⟩ := Option.map_eq_some_iff.mp h
    cases heq
    rw [hvalue]
    exact ⟨rfl, rfl⟩

/-- Members without a beginning are read as if there were one already. -/
theorem Registered.Takes.withBeginning {ms : List (String × Written)} (h : r.Takes ms r')
    (hnames : ∀ m ∈ ms, m.1 ≠ "nbf") (nbf : Option (Option Nat)) :
    ({ r with nbf := nbf } : Registered).Takes ms { r' with nbf := nbf } := by
  induction h with
  | nil r => exact .nil _
  | @cons r r₁ r' m ms hstep _ ih =>
    obtain ⟨hname, hnames⟩ := List.forall_mem_cons.mp hnames
    refine .cons (fun rest hrest => ?_) (ih hnames)
    exact (Registered.step_withBeginning hname (hstep rest hrest) nbf).1

/-- A beginning whose value can be passed may be added anywhere among members that name none. -/
theorem Registered.Takes.insert {front back : List (String × Written)}
    (h : r.Takes (front ++ back) r') (hnames : ∀ m ∈ front ++ back, m.1 ≠ "nbf")
    (hfree : r.nbf = none) {w : Written} {seconds : Option Nat}
    (hread : ∀ rest, Stops rest → readSeconds (utf8 w.text ++ rest) = (seconds, rest)) :
    r.Takes (front ++ ("nbf", w) :: back) { r' with nbf := some seconds } := by
  induction front generalizing r with
  | nil =>
    refine .cons (fun rest hrest => ?_) (h.withBeginning hnames (some seconds))
    simp only [Registered.step, hfree, hread rest hrest]
    rfl
  | cons m front ih =>
    rw [List.cons_append] at h hnames
    obtain ⟨hname, hnames⟩ := List.forall_mem_cons.mp hnames
    cases h with
    | @cons _ r₁ _ _ _ hstep hms =>
      have hkept : r₁.nbf = none := by
        rw [(Registered.step_withBeginning hname (hstep [] stops_nil) none).2, hfree]
      exact .cons hstep (ih hms hnames hkept)

/-- Claims with a beginning of any kind. -/
def withBeginning (front back : List (String × Written)) (w : Written) : Bytes :=
  utf8 (Written.object (front ++ ("nbf", w) :: back)).text

variable {front back : List (String × Written)} {w : Written}

/-- A beginning is no part of claims, whatever it is. -/
theorem ofJson_withBeginning (hmembers : c.writtenMembers = front ++ back) :
    Claims.ofJson (withBeginning front back w) = .ok c := by
  have hheld := c.heldBy_written
  rw [hmembers, List.map_append] at hheld
  have hinserted := hheld.rearranged
    (.inserted (textOf?_escaped "nbf") (by decide) w.spells)
  rw [withBeginning, Claims.ofJson_eq_of_spells (Written.spellsDocument _), Written.object_value,
    List.map_append, List.map_cons]
  exact Claims.ofValue_object_eq_ok_iff.mpr hinserted

/-- The tolerant reading finds the end of the claims and what the beginning says. -/
theorem registered_withBeginning (hmembers : c.writtenMembers = front ++ back)
    (hexp : 0 ≤ c.expiresAt.toInt) {seconds : Option Nat}
    (hread : ∀ rest, Stops rest → readSeconds (utf8 w.text ++ rest) = (seconds, rest)) :
    Registered.ofBytes (withBeginning front back w) =
      some ⟨some (some c.expiresAt.toInt.toNat), some seconds, some true, true, false⟩ := by
  have htakes := Registered.takes_writtenMembers hexp
  have hnames : ∀ m ∈ front ++ back, m.1 ≠ "nbf" := by
    rw [← hmembers]
    simp [Claims.writtenMembers]
  rw [hmembers] at htakes
  obtain ⟨m, ms, heq⟩ : ∃ m ms, front ++ ("nbf", w) :: back = m :: ms :=
    List.exists_cons_of_ne_nil (by simp)
  have hinsert := htakes.insert hnames rfl hread
  rw [withBeginning, heq]
  rw [heq] at hinsert
  exact ofBytes_object hinsert

/-- A beginning that is a number of seconds is passed. -/
theorem readSeconds_written {n : Nat} (hn : n < 2 ^ 64) (rest : Bytes) (hrest : Stops rest) :
    readSeconds (utf8 (Written.ofInt n).text ++ rest) = (some n, rest) := by
  have hlt : (n : Int) < Number.wordLimit := by
    rw [Number.wordLimit]
    omega
  exact readSeconds_ofInt (Int.natCast_nonneg n) hlt hrest

/-- The payload is that of the claims, to which the beginning of their validity may have been
added. -/
inductive PayloadOf (c : Claims) : Option Nat → Bytes → Prop
  | plain : PayloadOf c none (utf8 c.toJson)
  | begins {front back : List (String × Written)} {n : Nat}
      (hmembers : c.writtenMembers = front ++ back) (hn : n < 2 ^ 64) :
      PayloadOf c (some n) (utf8 (Written.object (front ++ ("nbf", Written.ofInt n) :: back)).text)

/-- A beginning that is added fits into a word. -/
theorem PayloadOf.begins_lt (h : PayloadOf c begins payload) : ∀ n ∈ begins, n < 2 ^ 64 := by
  intro n hn
  cases h with
  | plain => cases hn
  | begins hmembers hlt =>
    obtain rfl := Option.some.inj hn
    exact hlt

/-- The claims are read from their payload, a beginning or not. -/
theorem PayloadOf.ofJson (h : PayloadOf c begins payload) : Claims.ofJson payload = .ok c := by
  cases h with
  | plain => exact Claims.ofJson_toJson c
  | begins hmembers hn => exact ofJson_withBeginning hmembers

/-- The tolerant reading finds the end of the claims and the beginning that was added. -/
theorem PayloadOf.registered (h : PayloadOf c begins payload) (hexp : 0 ≤ c.expiresAt.toInt) :
    Registered.ofBytes payload =
      some ⟨some (some c.expiresAt.toInt.toNat), begins.map some, some true, true, false⟩ := by
  cases h with
  | plain => exact Registered.ofBytes_toJson hexp
  | begins hmembers hn => exact registered_withBeginning hmembers hexp (readSeconds_written hn)

/-! ### The window -/

/-- The time lies between the bounds, each widened by the leeway. -/
structure InWindow (c : Claims) (begins : Option Nat) (leeway : Duration) (now : Clock) : Prop where
  nonneg : 0 ≤ c.expiresAt.toInt
  notEnded : (now.toNat : Int) ≤ c.expiresAt.toInt + leeway.seconds
  begun : ∀ n ∈ begins, n ≤ now.toNat + leeway.seconds

/-- The times in a window are an interval. -/
theorem InWindow.between {early late : Clock} (hearly : InWindow c begins leeway early)
    (hlate : InWindow c begins leeway late) (hearlyNow : early ≤ now) (hnowLate : now ≤ late) :
    InWindow c begins leeway now := by
  rw [UInt64.le_iff_toNat_le] at hearlyNow hnowLate
  refine ⟨hearly.nonneg, ?_, ?_⟩
  · have hend := hlate.notEnded
    omega
  · intro n hn
    have hbegun := hearly.begun n hn
    omega

/-- The claims are those in the payload, their end is the one that was compared with the clock and
has not passed, and no integer in the payload says that they begin later. -/
structure TimesHold (payload : Bytes) (leeway : Duration) (now : Clock) (c : Claims) : Prop where
  read : Claims.ofJson payload = .ok c
  nonneg : 0 ≤ c.expiresAt.toInt
  notEnded : (now.toNat : Int) ≤ c.expiresAt.toInt + leeway.seconds
  sameEnd : ∃ r, Registered.ofBytes payload = some r ∧
    r.exp = some (some c.expiresAt.toInt.toNat)
  begun : ∃ ms, Document.ofBytes payload = ⟨.object ms, true⟩ ∧
    ∀ x n, .number x ∈ membersNamed "nbf" ms → x.numeral = .natural n →
      n ≤ now.toNat + leeway.seconds

/-- The comparison with the clock, where both bounds are words. -/
theorem Registered.isValidAt_wholeSeconds_iff (hfits : leeway.FitsAround now) :
    r.isValidAt leeway.wholeSeconds now = .ok true ↔
      r.sub = some true ∧ ∃ exp, r.exp = some (some exp) ∧
        now.toNat ≤ exp % 2 ^ 64 + leeway.seconds ∧
        ∀ nbf, r.nbf = some (some nbf) → nbf % 2 ^ 64 ≤ now.toNat + leeway.seconds := by
  have hiff := Registered.isValidAt_iff (r := r) hfits.le
  rw [Duration.toNat_wholeSeconds] at hiff
  exact hiff hfits.2

/-- Digits are taken into a word only while they fit. -/
theorem absorb_fst_lt {n : Nat} {ds : List Nat} (h : n < 2 ^ 64) :
    (Number.absorb n ds).1 < 2 ^ 64 := by
  induction ds generalizing n with
  | nil => exact h
  | cons d ds ih =>
    rw [Number.absorb]
    split
    · rename_i hfits
      exact ih hfits
    · exact h

/-- An integer that a number denotes fits into a word. -/
theorem lt_of_numeral_natural {x : Number} {n : Nat} (h : x.numeral = .natural n) :
    n < 2 ^ 64 := by
  have habsorb : (Number.absorb 0 x.whole).1 < 2 ^ 64 := absorb_fst_lt (by decide)
  unfold Number.numeral at h
  dsimp only at h
  split at h
  · split at h
    · cases h
      exact habsorb
    · split at h
      · cases h
      · split at h <;> cases h
  -- Any other number denotes a float, if anything.
  · split at h
    · split at h <;> cases h
    · split at h
      · split at h <;> cases h
      · split at h <;> cases h

/-- What passes at a point in time holds at it. -/
theorem timesHold_of_readPayload (hfits : leeway.FitsAround now)
    (h : readPayload leeway.wholeSeconds now payload = .ok c) :
    TimesHold payload leeway now c := by
  obtain ⟨hread, -⟩ := readPayload_eq_ok_iff.mp h
  obtain ⟨ms, r, hdocument, hr, hvalid, hnonneg, hexp, hnbf⟩ := readings_of_readPayload h
  obtain ⟨-, exp, hsame, hnotEnded, hbegun⟩ :=
    (Registered.isValidAt_wholeSeconds_iff hfits).mp hvalid
  rw [hexp] at hsame
  obtain rfl := Option.some.inj (Option.some.inj hsame)
  refine ⟨hread, hnonneg, by omega, ⟨r, hr, hexp⟩, ms, hdocument, ?_⟩
  intro x n hmem hn
  rcases hnbf with ⟨hnone, -⟩ | ⟨-, v, seconds, honly, hseconds, hplace⟩
  · rw [hnone] at hmem
    cases hmem
  · rw [honly] at hmem
    obtain rfl := List.mem_singleton.mp hmem
    have hfound : seconds = some n := by
      rw [hseconds, secondsOf?, hn]
      rfl
    have hle := hbegun n (by rw [hplace, hfound])
    rwa [Nat.mod_eq_of_lt (lt_of_numeral_natural hn)] at hle

/-- Claims of which the tolerant reading finds the end pass as long as they have not ended, and have
begun if it finds a beginning that is a number of seconds. -/
theorem readPayload_iff_of_registered (hfits : leeway.FitsAround now)
    {place : Option (Option Nat)} (hread : Claims.ofJson payload = .ok c)
    (hregistered : 0 ≤ c.expiresAt.toInt → Registered.ofBytes payload =
      some ⟨some (some c.expiresAt.toInt.toNat), place, some true, true, false⟩) :
    readPayload leeway.wholeSeconds now payload = .ok c ↔
      InWindow c none leeway now ∧
        ∀ n, place = some (some n) → n % 2 ^ 64 ≤ now.toNat + leeway.seconds := by
  constructor
  · intro hpasses
    have hholds := timesHold_of_readPayload hfits hpasses
    obtain ⟨-, r, hr, hvalid⟩ := readPayload_eq_ok_iff.mp hpasses
    rw [hregistered hholds.nonneg] at hr
    obtain rfl := Option.some.inj hr
    obtain ⟨-, -, -, -, hbegun⟩ := (Registered.isValidAt_wholeSeconds_iff hfits).mp hvalid
    exact ⟨⟨hholds.nonneg, hholds.notEnded, by simp⟩, hbegun⟩
  · rintro ⟨hwindow, hbegun⟩
    have hlt := c.expiresAt.toInt_lt
    have hnotEnded := hwindow.notEnded
    refine readPayload_eq_ok_iff.mpr ⟨hread, _, hregistered hwindow.nonneg, ?_⟩
    refine (Registered.isValidAt_wholeSeconds_iff hfits).mpr ⟨rfl, _, rfl, ?_, hbegun⟩
    rw [Nat.mod_eq_of_lt (by omega)]
    omega

/-- Claims pass as long as the time lies in their window. -/
theorem PayloadOf.readPayload_eq_ok_iff (hfits : leeway.FitsAround now)
    (h : PayloadOf c begins payload) :
    readPayload leeway.wholeSeconds now payload = .ok c ↔ InWindow c begins leeway now := by
  rw [readPayload_iff_of_registered hfits h.ofJson h.registered]
  constructor
  · rintro ⟨⟨hnonneg, hnotEnded, -⟩, hbegun⟩
    refine ⟨hnonneg, hnotEnded, fun n hn => ?_⟩
    have hle := hbegun n (by rw [Option.mem_def.mp hn]; rfl)
    rwa [Nat.mod_eq_of_lt (h.begins_lt n hn)] at hle
  · rintro ⟨hnonneg, hnotEnded, hbegun⟩
    refine ⟨⟨hnonneg, hnotEnded, by simp⟩, fun n hn => ?_⟩
    obtain ⟨m, hm, heq⟩ := Option.map_eq_some_iff.mp hn
    obtain rfl := Option.some.inj heq
    rw [Nat.mod_eq_of_lt (h.begins_lt m hm)]
    exact hbegun m hm

/-! ### Tokens with a payload of one's choice -/

/-- The payload of a token. -/
def HasPayload (token : String) (payload : Bytes) : Prop :=
  ∃ s, segments? token = some s ∧ decodeSegment s.payload = some payload

/-- The token has a header as it is written for some key id and this payload, and is signed under
the public key in the text. -/
def SignedOver (token pem : String) (payload : Bytes) : Prop :=
  ∃ s kid signature material key, segments? token = some s ∧
    decodeSegment s.header = some (utf8 (headerJson kid)) ∧
    decodeSegment s.payload = some payload ∧
    decodeSegment s.signature = some signature ∧
    KeyMaterial.ofPem? pem = some material ∧ material.publicKey? = some key ∧
    key.verifies (utf8 (String.ofList s.message)) signature

/-- A signed token is answered as its payload is. -/
theorem SignedOver.verify_eq (h : SignedOver token pem payload) :
    verify token pem leeway now = readPayload leeway.wholeSeconds now payload := by
  obtain ⟨s, kid, signature, material, key, hs, hheader, hpayload, hsignature, hpem, hkey,
    hverifies⟩ := h
  exact verify_of_signedPayload? hpem (signedPayload?_eq_some_iff.mpr ⟨s, _, key, signature, hs,
    hheader, headerAlgorithm?_headerJson kid, hkey, hsignature, hverifies, hpayload⟩)

/-- Whether a signed token verifies is up to its payload. -/
theorem SignedOver.verify_eq_ok_iff (h : SignedOver token pem payload) :
    verify token pem leeway now = .ok c ↔
      readPayload leeway.wholeSeconds now payload = .ok c := by
  rw [h.verify_eq]

/-- Signed claims verify as long as the time lies in their window. -/
theorem SignedOver.verify_iff_inWindow (hsigned : SignedOver token pem payload)
    (hpayload : PayloadOf c begins payload) (hfits : leeway.FitsAround now) :
    verify token pem leeway now = .ok c ↔ InWindow c begins leeway now :=
  hsigned.verify_eq_ok_iff.trans (hpayload.readPayload_eq_ok_iff hfits)

/-- What verifies at a point in time holds at it. -/
theorem timesHold_of_verify (hfits : leeway.FitsAround now)
    (h : verify token pem leeway now = .ok c) :
    ∃ payload, HasPayload token payload ∧ TimesHold payload leeway now c := by
  obtain ⟨-, s, -, -, -, payload, -, hs, -, -, -, -, -, hpayload, hread⟩ := verify_eq_ok_iff.mp h
  exact ⟨payload, ⟨s, hs, hpayload⟩, timesHold_of_readPayload hfits hread⟩

/-- What is signed in a token with some payload. -/
def messageOf (kid : String) (payload : Bytes) : List Char :=
  Base64.Alphabet.urlSafe.encode (utf8 (headerJson kid)) ++
    '.' :: Base64.Alphabet.urlSafe.encode payload

/-- A token can be put together of any payload and any signature. -/
theorem exists_segments? (kid : String) (payload signature : Bytes) :
    ∃ token s, segments? token = some s ∧
      decodeSegment s.header = some (utf8 (headerJson kid)) ∧
      decodeSegment s.payload = some payload ∧ decodeSegment s.signature = some signature ∧
      s.message = messageOf kid payload := by
  have hnoDot : ∀ b, '.' ∉ Base64.Alphabet.urlSafe.encode b := fun b =>
    dot_notMem_of_decodeSegment (decodeSegment_encode b)
  refine ⟨String.ofList (messageOf kid payload ++ '.' :: Base64.Alphabet.urlSafe.encode signature),
    ⟨Base64.Alphabet.urlSafe.encode (utf8 (headerJson kid)),
      Base64.Alphabet.urlSafe.encode payload, Base64.Alphabet.urlSafe.encode signature⟩,
    segments?_eq_some_iff.mpr ⟨String.toList_ofList, ?_, hnoDot _, hnoDot _, hnoDot _⟩,
    decodeSegment_encode _, decodeSegment_encode _, decodeSegment_encode _, rfl⟩
  exact ne_nil_of_headerAlgorithm? (decodeSegment_encode _) (headerAlgorithm?_headerJson kid)

end Token

/-- A token that is signed under a pair is signed over its claims. -/
theorem KeyPair.Signs.signedOver {p : KeyPair} {kid : String} (h : p.Signs c kid token) :
    Token.SignedOver token p.publicPem (utf8 c.toJson) := by
  obtain ⟨signature, rfl, hverifies⟩ := h
  obtain ⟨material, hmaterial, hkey⟩ :=
    readPublic_publicPem (Rsa.PublicKey.verifies_iff.mp hverifies).1
  have hmessage : String.ofList (Token.issuedSegments c kid signature).message =
      Token.signingInput c kid := by
    rw [← Token.toList_signingInput, String.ofList_toList]
  obtain ⟨hheader, hpayload, hsignature⟩ := Token.decodeSegment_issuedSegments c kid signature
  exact ⟨_, kid, signature, material, _, Token.segments?_issued c kid signature, hheader, hpayload,
    hsignature, hmaterial, hkey, by rw [hmessage]; exact hverifies⟩

/-- Any payload can be signed under a pair of primes that suits signing. -/
theorem KeyPair.exists_signedOver {p : KeyPair} (hprimes : p.HasPrimes) (h : p.SuitsSigning)
    (kid : String) (payload : Bytes) : ∃ token, Token.SignedOver token p.publicPem payload := by
  obtain ⟨k, hk, husable⟩ := suitsSigning_iff.mp h
  obtain ⟨signature, hsign⟩ := exists_sign_of_primes hprimes hk husable
    (utf8 (String.ofList (Token.messageOf kid payload)))
  obtain ⟨token, s, hs, hheader, hpayload, hsignature, hmessage⟩ :=
    Token.exists_segments? kid payload signature
  have hverifies := Rsa.PrivateKey.verifies_of_sign hsign
  rw [publicKey_of_privateKey? hk, ← hmessage] at hverifies
  obtain ⟨material, hmaterial, hkey⟩ :=
    readPublic_publicPem (Rsa.PublicKey.verifies_iff.mp hverifies).1
  exact ⟨token, s, kid, signature, material, _, hs, hheader, hpayload, hsignature, hmaterial, hkey,
    hverifies⟩

namespace Token

/-! ### Main statements -/

/-- The window in which tokens verify, where both bounds are words.  The claims of a token that
verifies have an end that is not negative, is the one that was compared with the clock, and is at
most the leeway past; and no integer in its payload puts their beginning later than the leeway from
now.  Where the payload is that of some claims, with or without a beginning added, this is all it
takes for a signed token, so that it verifies at all times between any two at which it does. -/
theorem verify_within_window (hfits : leeway.FitsAround now) :
    (∀ {token pem : String} {c : Claims}, verify token pem leeway now = .ok c →
      ∃ payload, HasPayload token payload ∧ TimesHold payload leeway now c) ∧
    ∀ {token pem : String} {c : Claims} {begins : Option Nat} {payload : Bytes},
      SignedOver token pem payload → PayloadOf c begins payload →
        (verify token pem leeway now = .ok c ↔ InWindow c begins leeway now) ∧
        ∀ {early late : Clock}, early ≤ now → now ≤ late →
          leeway.FitsAround early → leeway.FitsAround late →
          verify token pem leeway early = .ok c → verify token pem leeway late = .ok c →
            verify token pem leeway now = .ok c := by
  refine ⟨timesHold_of_verify hfits, ?_⟩
  intro token pem c begins payload hsigned hpayload
  have hiff : verify token pem leeway now = .ok c ↔ InWindow c begins leeway now :=
    hsigned.verify_iff_inWindow hpayload hfits
  refine ⟨hiff, ?_⟩
  intro early late hearly hlate hfitsEarly hfitsLate hverifyEarly hverifyLate
  have hwindowEarly := (hsigned.verify_iff_inWindow hpayload hfitsEarly).mp hverifyEarly
  have hwindowLate := (hsigned.verify_iff_inWindow hpayload hfitsLate).mp hverifyLate
  exact hiff.mpr (hwindowEarly.between hwindowLate hearly hlate)

/-- Five minutes, less a nanosecond of the next second. -/
def fiveMinutes : Duration := ⟨300, 999999999, by decide, by decide⟩

/-- Claims of an hour, in front of whose last member a beginning is added, verify from five minutes
before it until five minutes after their end, to the second. -/
theorem verify_within_window_of_an_hour :
    ∃ token payload, SignedOver token KeyPair.smoothPair.publicPem payload ∧
      PayloadOf (Fixtures.freshUserClaims 1700000000) (some 1700000600) payload ∧
      verify token KeyPair.smoothPair.publicPem fiveMinutes 1700000299 ≠
        .ok (Fixtures.freshUserClaims 1700000000) ∧
      verify token KeyPair.smoothPair.publicPem fiveMinutes 1700000300 =
        .ok (Fixtures.freshUserClaims 1700000000) ∧
      verify token KeyPair.smoothPair.publicPem fiveMinutes 1700002000 =
        .ok (Fixtures.freshUserClaims 1700000000) ∧
      verify token KeyPair.smoothPair.publicPem fiveMinutes 1700003900 =
        .ok (Fixtures.freshUserClaims 1700000000) ∧
      verify token KeyPair.smoothPair.publicPem fiveMinutes 1700003901 ≠
        .ok (Fixtures.freshUserClaims 1700000000) := by
  have hexp : (Fixtures.freshUserClaims 1700000000).expiresAt.toInt = 1700003600 := by decide
  have hpayload := PayloadOf.begins (c := Fixtures.freshUserClaims 1700000000) (n := 1700000600)
    (List.take_append_drop 5 _).symm (by decide)
  obtain ⟨token, hsigned⟩ := KeyPair.exists_signedOver KeyPair.smoothPair_hasPrimes
    KeyPair.smoothPair_suitsSigning Fixtures.kid _
  have hiff := fun now (h : fiveMinutes.FitsAround now) =>
    ((verify_within_window h).2 hsigned hpayload).1
  have hfitsEarly : fiveMinutes.FitsAround 1700000300 := ⟨by decide, by decide⟩
  have hfitsBetween : fiveMinutes.FitsAround 1700002000 := ⟨by decide, by decide⟩
  have hfitsLate : fiveMinutes.FitsAround 1700003900 := ⟨by decide, by decide⟩
  have hearly := (hiff 1700000300 hfitsEarly).mpr
    ⟨by rw [hexp]; decide, by rw [hexp]; decide, by decide⟩
  have hlate := (hiff 1700003900 hfitsLate).mpr
    ⟨by rw [hexp]; decide, by rw [hexp]; decide, by decide⟩
  have hbetween := ((verify_within_window hfitsBetween).2 hsigned hpayload).2 (by decide)
    (by decide) hfitsEarly hfitsLate hearly hlate
  refine ⟨token, _, hsigned, hpayload, ?_, hearly, hbetween, hlate, ?_⟩
  · intro hverify
    have hbegun := ((hiff 1700000299 ⟨by decide, by decide⟩).mp hverify).begun _ rfl
    revert hbegun
    decide
  · intro hverify
    have hend := ((hiff 1700003901 ⟨by decide, by decide⟩).mp hverify).notEnded
    rw [hexp] at hend
    revert hend
    decide

/-! ### The second at which claims end -/

/-- Without leeway, claims have ended in the eyes of the verifier only a second after they have by
themselves.  The claims of a token that verifies have ended if and only if this is the second of
their end; and signed claims with an end that is not negative have ended, and not just now, if their
token does not verify. -/
theorem hasEndedBy_iff_of_verify {t : Int64} (ht : t.toInt = now.toNat) :
    (∀ {token pem : String} {c : Claims}, verify token pem Duration.zero now = .ok c →
      (c.hasEndedBy t ↔ c.expiresAt = t)) ∧
    ∀ {token pem : String} {c : Claims}, SignedOver token pem (utf8 c.toJson) →
      0 ≤ c.expiresAt.toInt → verify token pem Duration.zero now ≠ .ok c →
        c.hasEndedBy t ∧ c.expiresAt ≠ t := by
  have hended : ∀ c : Claims, c.hasEndedBy t ↔ c.expiresAt.toInt ≤ now.toNat := by
    intro c
    rw [Claims.hasEndedBy, decide_eq_true_eq, Int64.le_iff_toInt_le, ht]
  have hnow : ∀ c : Claims, c.expiresAt = t ↔ c.expiresAt.toInt = now.toNat := by
    intro c
    rw [← Int64.toInt_inj, ht]
  have hzero : Duration.zero.seconds = 0 := rfl
  constructor
  · intro token pem c hverify
    obtain ⟨payload, -, hholds⟩ := timesHold_of_verify (.zero now) hverify
    have hend := hholds.notEnded
    rw [hended, hnow]
    omega
  · intro token pem c hsigned hnonneg hrefused
    have hlate : c.expiresAt.toInt < now.toNat := by
      by_contra hle
      refine hrefused ((hsigned.verify_iff_inWindow .plain (.zero now)).mpr ⟨hnonneg, ?_, ?_⟩)
      · omega
      · intro n hn
        cases hn
    rw [hended, ne_eq, hnow]
    omega

/-- Claims are still in their window in the second of their end. -/
theorem inWindow_at_end (h : c.expiresAt.toInt = now.toNat) : InWindow c none leeway now :=
  ⟨by omega, by omega, by simp⟩

/-- A token that was put together for claims of an hour: in the second of their end it verifies
and they have ended, a second later it does not verify any more. -/
theorem hasEndedBy_iff_of_verify_of_an_hour :
    ∃ token pem, KeyPair.smoothPair.privatePem = .ok pem ∧
      encode (Fixtures.freshUserClaims 1700000000) Fixtures.kid pem = .ok token ∧
      verify token KeyPair.smoothPair.publicPem Duration.zero 1700003600 =
        .ok (Fixtures.freshUserClaims 1700000000) ∧
      (Fixtures.freshUserClaims 1700000000).hasEndedBy 1700003600 ∧
      verify token KeyPair.smoothPair.publicPem Duration.zero 1700003601 ≠
        .ok (Fixtures.freshUserClaims 1700000000) ∧
      (Fixtures.freshUserClaims 1700000000).hasEndedBy 1700003601 := by
  have hexp : (Fixtures.freshUserClaims 1700000000).expiresAt = 1700003600 := by decide
  obtain ⟨token, pem, hpem, hencode⟩ := KeyPair.exists_encode_of_primes
    KeyPair.smoothPair_hasPrimes KeyPair.smoothPair_suitsSigning
    (Fixtures.freshUserClaims 1700000000) Fixtures.kid
  have hsigned := (KeyPair.signs_of_encode hpem hencode).signedOver
  have hverify := (hsigned.verify_iff_inWindow .plain (.zero 1700003600)).mpr
    (inWindow_at_end (by rw [hexp]; decide))
  have hrefused : verify token KeyPair.smoothPair.publicPem Duration.zero 1700003601 ≠
      .ok (Fixtures.freshUserClaims 1700000000) := by
    intro hverify
    have hend := ((hsigned.verify_iff_inWindow .plain (.zero 1700003601)).mp hverify).notEnded
    rw [hexp] at hend
    revert hend
    decide
  have hatEnd := (hasEndedBy_iff_of_verify (t := 1700003600) (by decide)).1 hverify
  have hafter := (hasEndedBy_iff_of_verify (t := 1700003601) (by decide)).2 hsigned
    (by rw [hexp]; decide) hrefused
  exact ⟨token, pem, hpem, hencode, hverify, hatEnd.mpr hexp, hrefused, hafter.1⟩

/-- A token verifies without leeway whose claims have ended at this very time. -/
theorem exists_verify_hasEndedBy :
    ∃ token, verify token KeyPair.smoothPair.publicPem Duration.zero 1700003600 =
        .ok (Fixtures.freshUserClaims 1700000000) ∧
      (Fixtures.freshUserClaims 1700000000).hasEndedBy 1700003600 = true := by
  obtain ⟨token, hsigned⟩ := KeyPair.exists_signedOver KeyPair.smoothPair_hasPrimes
    KeyPair.smoothPair_suitsSigning Fixtures.kid (utf8 (Fixtures.freshUserClaims 1700000000).toJson)
  have hverify := (hsigned.verify_iff_inWindow .plain (.zero 1700003600)).mpr
    (inWindow_at_end (by decide))
  exact ⟨token, hverify, by decide⟩

end Token

end BearerAuth
