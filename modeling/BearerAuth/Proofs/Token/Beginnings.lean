import Mathlib
import BearerAuth.Proofs.Binary64
import BearerAuth.Proofs.Token.ValidityWindow

/-!
# Beginnings of any kind

A payload may put any JSON value where the beginning of its claims belongs.  The tolerant reading
looks for a number of seconds there.  A number that is not one, and any value that is not a number,
counts as if there were no beginning, so that it keeps nobody from using the token; a fraction is
rounded before it is compared.

Main statement: `begun_as_far_as_seconds`.
-/

namespace BearerAuth

namespace Token

open Json

variable {token pem : String} {payload b rest : Bytes} {leeway : Duration} {now : Clock}
  {c : Claims}
  {v : Value}

/-! ### Seconds are words -/

/-- The magnitude that a number denotes has 53 bits. -/
theorem hasPrecision_of_numeral {x : Number} {negative : Bool} {m : Binary64}
    (h : x.numeral = .float negative m) : m.HasPrecision := by
  have hdecimal : ∀ {significand : Nat} {exponent : Int} {found : Binary64},
      Binary64.ofDecimal? significand exponent = some found →
        Numeral.float x.negative found = .float negative m → m.HasPrecision := by
    intro significand exponent found hfound heq
    cases heq
    exact Binary64.hasPrecision_of_ofDecimal? hfound
  unfold Number.numeral at h
  dsimp only at h
  split at h
  · split at h
    · cases h
    · split at h
      · cases h
      · split at h
        · exact hdecimal ‹_› h
        · cases h
  · split at h
    · split at h
      · exact hdecimal ‹_› h
      · cases h
    · split at h
      · split at h
        · exact hdecimal ‹_› h
        · cases h
      · split at h
        · cases h
        · cases h
          exact Nat.zero_le _

/-- A number of seconds fits into a word. -/
theorem lt_of_secondsOf? {n : Nat} (h : secondsOf? v = some n) : n < 2 ^ 64 := by
  unfold secondsOf? at h
  split at h
  on_goal 2 => cases h
  unfold seconds? at h
  split at h
  · rename_i m hm
    cases h
    exact lt_of_numeral_natural hm
  · rename_i hm
    obtain ⟨hfits, heq⟩ := Option.ite_none_left_eq_some.mp h
    cases heq
    push Not at hfits
    exact Binary64.rounded_lt (hasPrecision_of_numeral hm) hfits.2
  · cases h
  · cases h

/-! ### Values that are passed -/

/-- The tolerant reading gets past the value: it is no array or object with something inside, no
string with escapes of half a surrogate pair, and no number that is too large for a float. -/
inductive IsPlain : Value → Prop
  | null : IsPlain .null
  | bool (b : Bool) : IsPlain (.bool b)
  | number {n : Number} (h : n.numeral ≠ .outOfRange) : IsPlain (.number n)
  | string {raw : Bytes} {s : String} (h : textOf? raw = some s) : IsPlain (.string raw)
  | emptyArray : IsPlain (.array .closed)
  | emptyObject : IsPlain (.object .closed)

/-- Of a plain value the tolerant reading finds the number of seconds, and goes on behind it. -/
theorem readSeconds_of_isPlain (hv : v.Spells b) (hplain : IsPlain v) (hrest : Stops rest) :
    readSeconds (b ++ rest) = (secondsOf? v, rest) := by
  cases hv with
  | null => rfl
  | bool b => cases b <;> rfl
  | @number n b hn =>
    obtain ⟨c, tail, heq, hskip, hc, hnull, htrue, hfalse, hquote, hsquare, hcurly⟩ :=
      skipBlank_number_ne hn rest
    rcases scanNumeral_spells hn hrest with hscan | ⟨_, -, houtOfRange, -⟩
    · rw [readSeconds, hskip]
      simp only [hnull, htrue, hfalse, hquote, hsquare, hcurly, hc, if_true, if_false]
      rw [← heq, hscan]
      rfl
    · cases hplain with
      | number hrange => exact absurd houtOfRange hrange
  | @string raw hraw =>
    cases hplain with
    | string htext =>
      rcases readString_body hraw with ⟨s, -, hread⟩ | ⟨hnone, -⟩
      · rw [List.cons_append, List.append_assoc, readSeconds, skipBlank_cons (by decide)]
        simp only [List.singleton_append, hread]
        rfl
      · rw [hnone] at htext
        cases htext
  | @emptyArray w hw =>
    have hclose : endArray (w ++ ([ascii ']'] ++ rest)) = .ok rest := by
      rw [endArray, skipBlank_append hw, List.singleton_append, skipBlank_cons (by decide)]
      rfl
    rw [List.cons_append, List.append_assoc, readSeconds, skipBlank_cons (by decide)]
    change (none, restOfWord (endArray (w ++ ([ascii ']'] ++ rest)))) = _
    rw [hclose]
    rfl
  | @emptyObject w hw =>
    have hclose : endObject (w ++ ([ascii '\x7d'] ++ rest)) = .ok rest := by
      rw [endObject, skipBlank_append hw, List.singleton_append, skipBlank_cons (by decide)]
      rfl
    rw [List.cons_append, List.append_assoc, readSeconds, skipBlank_cons (by decide)]
    change (none, restOfWord (endObject (w ++ ([ascii '\x7d'] ++ rest)))) = _
    rw [hclose]
    rfl
  | array hes =>
    cases hplain with
    | emptyArray => cases hes
  | object hms =>
    cases hplain with
    | emptyObject => cases hms

/-! ### Main statement -/

/-- The beginning, if the payload has one, has come as far as it is a number of seconds. -/
def HasBegun (ms : Members) (leeway : Duration) (now : Clock) : Prop :=
  membersNamed "nbf" ms = [] ∨
    ∃ v, membersNamed "nbf" ms = [v] ∧
      ∀ n, secondsOf? v = some n → n ≤ now.toNat + leeway.seconds

/-- What passes at a point in time has begun. -/
theorem hasBegun_of_readPayload (hfits : leeway.FitsAround now)
    (h : readPayload leeway.wholeSeconds now payload = .ok c) :
    ∃ ms, Document.ofBytes payload = ⟨.object ms, true⟩ ∧ HasBegun ms leeway now := by
  obtain ⟨ms, r, hdocument, -, hvalid, -, -, hnbf⟩ := readings_of_readPayload h
  obtain ⟨-, -, -, -, hbegun⟩ := (Registered.isValidAt_wholeSeconds_iff hfits).mp hvalid
  refine ⟨ms, hdocument, ?_⟩
  rcases hnbf with ⟨hnone, -⟩ | ⟨-, v, seconds, honly, hseconds, hplace⟩
  · exact .inl hnone
  · refine .inr ⟨v, honly, fun n hn => ?_⟩
    have hle := hbegun n (by rw [hplace, hseconds, hn])
    rwa [Nat.mod_eq_of_lt (lt_of_secondsOf? hn)] at hle

/-- Claims with a plain beginning pass as long as they have not ended, and have begun as far as the
beginning is a number of seconds. -/
theorem readPayload_withBeginning_iff (hfits : leeway.FitsAround now)
    {front back : List (String × Written)} {w : Written}
    (hmembers : c.writtenMembers = front ++ back) (hplain : IsPlain w.value) :
    readPayload leeway.wholeSeconds now (withBeginning front back w) = .ok c ↔
      InWindow c none leeway now ∧
        ∀ n, secondsOf? w.value = some n → n ≤ now.toNat + leeway.seconds := by
  have hread : ∀ rest, Stops rest →
      readSeconds (utf8 w.text ++ rest) = (secondsOf? w.value, rest) := fun rest hrest =>
    readSeconds_of_isPlain w.spells hplain hrest
  rw [readPayload_iff_of_registered hfits (ofJson_withBeginning hmembers) fun hexp =>
    registered_withBeginning hmembers hexp hread]
  refine and_congr_right' (forall_congr' fun n => ?_)
  rw [Option.some.injEq]
  refine forall_congr' fun hn => ?_
  rw [Nat.mod_eq_of_lt (lt_of_secondsOf? hn)]

/-- A beginning is honoured as far as it is a number of seconds.  The payload of a token that
verifies has at most one, and if this is a number of seconds, after rounding, it is at most the
leeway from now.  Of a signed token with any plain beginning more is not asked: it verifies while
its claims have not ended, unless the beginning is a number of seconds that is yet to come, so that
one that is null, a truth value, a text, an empty array or object, negative or too large for the
clock keeps it from nothing. -/
theorem begun_as_far_as_seconds (hfits : leeway.FitsAround now) :
    (∀ {token pem : String} {c : Claims}, verify token pem leeway now = .ok c →
      ∃ payload ms, HasPayload token payload ∧ Document.ofBytes payload = ⟨.object ms, true⟩ ∧
        HasBegun ms leeway now) ∧
    ∀ {token pem : String} {c : Claims} {front back : List (String × Written)} {w : Written},
      c.writtenMembers = front ++ back → IsPlain w.value →
        SignedOver token pem (withBeginning front back w) →
          (verify token pem leeway now = .ok c ↔
            InWindow c none leeway now ∧
              ∀ n, secondsOf? w.value = some n → n ≤ now.toNat + leeway.seconds) := by
  constructor
  · intro token pem c h
    obtain ⟨-, s, -, -, -, payload, -, hs, -, -, -, -, -, hpayload, hread⟩ := verify_eq_ok_iff.mp h
    obtain ⟨ms, hdocument, hbegun⟩ := hasBegun_of_readPayload hfits hread
    exact ⟨payload, ms, ⟨s, hs, hpayload⟩, hdocument, hbegun⟩
  · intro token pem c front back w hmembers hplain hsigned
    exact hsigned.verify_eq_ok_iff.trans (readPayload_withBeginning_iff hfits hmembers hplain)

/-- A printed text is plain. -/
theorem isPlain_ofText (s : String) : IsPlain (Written.ofText s).value :=
  .string (textOf?_escaped s)

/-- A printed number of seconds is plain, and is found. -/
theorem isPlain_ofInt {n : Nat} (hn : n < 2 ^ 64) :
    IsPlain (Written.ofInt n).value ∧ secondsOf? (Written.ofInt n).value = some n := by
  have hlt : (n : Int) < Number.wordLimit := by
    rw [Number.wordLimit]
    omega
  have hnumeral := numeral_ofInt_natural (Int.natCast_nonneg n) hlt
  refine ⟨.number ?_, ?_⟩
  · rw [hnumeral]
    intro h
    cases h
  · rw [Written.ofInt_value, secondsOf?, hnumeral]
    rfl

/-- The members of the claims of an hour, with some beginning in front of the last one. -/
def hourFrom (w : Written) : Bytes :=
  withBeginning ((Fixtures.freshUserClaims 1700000000).writtenMembers.take 5)
    ((Fixtures.freshUserClaims 1700000000).writtenMembers.drop 5) w

/-- Claims of an hour with a beginning in ten minutes: they verify from five minutes before it on,
with five minutes of leeway.  With a word for a beginning they verify already before. -/
theorem begun_as_far_as_seconds_of_an_hour :
    ∃ token token',
      SignedOver token KeyPair.smoothPair.publicPem (hourFrom (Written.ofInt (1700000600 : Nat))) ∧
      SignedOver token' KeyPair.smoothPair.publicPem (hourFrom (Written.ofText "soon")) ∧
      verify token KeyPair.smoothPair.publicPem fiveMinutes 1700000299 ≠
        .ok (Fixtures.freshUserClaims 1700000000) ∧
      verify token KeyPair.smoothPair.publicPem fiveMinutes 1700000300 =
        .ok (Fixtures.freshUserClaims 1700000000) ∧
      verify token' KeyPair.smoothPair.publicPem fiveMinutes 1700000299 =
        .ok (Fixtures.freshUserClaims 1700000000) := by
  have hexp : (Fixtures.freshUserClaims 1700000000).expiresAt.toInt = 1700003600 := by decide
  have hmembers := (List.take_append_drop 5
    (Fixtures.freshUserClaims 1700000000).writtenMembers).symm
  obtain ⟨hplain, hseconds⟩ := isPlain_ofInt (n := 1700000600) (by decide)
  obtain ⟨token, hsigned⟩ := KeyPair.exists_signedOver KeyPair.smoothPair_hasPrimes
    KeyPair.smoothPair_suitsSigning Fixtures.kid (hourFrom (Written.ofInt (1700000600 : Nat)))
  obtain ⟨token', hsigned'⟩ := KeyPair.exists_signedOver KeyPair.smoothPair_hasPrimes
    KeyPair.smoothPair_suitsSigning Fixtures.kid (hourFrom (Written.ofText "soon"))
  have hearly : fiveMinutes.FitsAround 1700000299 := ⟨by decide, by decide⟩
  have hwindowEarly : InWindow (Fixtures.freshUserClaims 1700000000) none fiveMinutes 1700000299 :=
    ⟨by rw [hexp]; decide, by rw [hexp]; decide, by simp⟩
  have hwindow : InWindow (Fixtures.freshUserClaims 1700000000) none fiveMinutes 1700000300 :=
    ⟨by rw [hexp]; decide, by rw [hexp]; decide, by simp⟩
  refine ⟨token, token', hsigned, hsigned', ?_, ?_, ?_⟩
  · intro hverify
    have hle :=
      (((begun_as_far_as_seconds hearly).2 hmembers hplain hsigned).mp hverify).2 _ hseconds
    revert hle
    decide
  · refine ((begun_as_far_as_seconds ⟨by decide, by decide⟩).2 hmembers hplain hsigned).mpr
      ⟨hwindow, fun n hn => ?_⟩
    obtain rfl := Option.some.inj (hseconds.symm.trans hn)
    decide
  · exact ((begun_as_far_as_seconds hearly).2 hmembers (isPlain_ofText "soon") hsigned').mpr
      ⟨hwindowEarly, nofun⟩

/-- A token verifies in whose payload a word stands where the beginning belongs. -/
theorem exists_verify_word_for_beginning :
    ∃ token payload ms raw,
      verify token KeyPair.smoothPair.publicPem Duration.zero 1700000000 =
        .ok (Fixtures.freshUserClaims 1700000000) ∧
      HasPayload token payload ∧ Document.ofBytes payload = ⟨.object ms, true⟩ ∧
      membersNamed "nbf" ms = [.string raw] := by
  have hexp : (Fixtures.freshUserClaims 1700000000).expiresAt.toInt = 1700003600 := by decide
  have hmembers := (List.take_append_drop 5
    (Fixtures.freshUserClaims 1700000000).writtenMembers).symm
  obtain ⟨token, hsigned⟩ := KeyPair.exists_signedOver KeyPair.smoothPair_hasPrimes
    KeyPair.smoothPair_suitsSigning Fixtures.kid (hourFrom (Written.ofText "soon"))
  have hread := (readPayload_withBeginning_iff (.zero 1700000000) hmembers
    (isPlain_ofText "soon")).mpr ⟨⟨by rw [hexp]; decide, by rw [hexp]; decide, by simp⟩, nofun⟩
  have hverify := hsigned.verify_eq_ok_iff.mpr hread
  obtain ⟨s, -, -, -, -, hs, -, hpayload, -⟩ := hsigned
  refine ⟨token, _, _, escaped "soon", hverify, ⟨s, hs, hpayload⟩, Written.ofBytes_text _, ?_⟩
  rfl

end Token

end BearerAuth
