import Mathlib
import BearerAuth.Proofs.Token.NamedKey
import BearerAuth.Proofs.Token.Segments
import BearerAuth.Proofs.Token.Window

/-!
# Issued tokens

What the readers of a token find in one that was put together by `Token.encode`.

Main statements: `carriedClaims_issued`, `namedKid_issued` and `verify_issued`.
-/

namespace BearerAuth.Token

open Json (Written Members Value escaped)

/-! ### Headers -/

/-- A header as it is written. -/
def writtenHeader (kid : String) : Written :=
  Written.object [("typ", Written.ofText "JWT"), ("alg", Written.ofText acceptedAlgorithm),
    ("kid", Written.ofText kid)]

theorem writtenHeader_text (kid : String) : (writtenHeader kid).text = headerJson kid := rfl

/-- The members of a header. -/
def headerMembers (kid : String) : Members :=
  .cons (escaped "typ") (.string (escaped "JWT"))
    (.cons (escaped "alg") (.string (escaped acceptedAlgorithm))
      (.cons (escaped "kid") (.string (escaped kid)) .closed))

theorem writtenHeader_value (kid : String) :
    (writtenHeader kid).value = .object (headerMembers kid) := by
  simp [writtenHeader, headerMembers, Written.memberValue]

/-- The header is read without a key. -/
theorem readObject_headerJson (kid : String) :
    readObject (utf8 (headerJson kid)) = .ok (headerMembers kid) := by
  rw [← writtenHeader_text, readObject, Written.ofBytes_text, writtenHeader_value]
  simp [headerMembers, maxDepth, isSound, areSoundMembers]

/-- The members of a header are found by their names. -/
theorem lastMember?_headerMembers (kid : String) :
    (lastMember? "alg" (headerMembers kid)).bind textOfValue? = some acceptedAlgorithm ∧
      (lastMember? "kid" (headerMembers kid)).bind textOfValue? = some kid := by
  simp [lastMember?, headerMembers, Members.toList, textOfValue?]

/-- The header passes the strict reading. -/
theorem headerAlgorithm?_headerJson (kid : String) :
    headerAlgorithm? (utf8 (headerJson kid)) = some acceptedAlgorithm := by
  rw [← writtenHeader_text, headerAlgorithm?, Written.ofBytes_text, writtenHeader_value]
  simp [headerMembers, headerAlgorithmOf?, Members.whole, Value.whole, hasTextNames,
    Members.toList, optionalHeaderMembers, isOptionalMember, membersNamed, isText, textOfValue?,
    alternative?, headerAlgorithms, acceptedAlgorithm]

/-! ### Pieces -/

/-- The bytes of a piece come back. -/
theorem decodeSegment_encode (b : Bytes) :
    decodeSegment (Base64.Alphabet.urlSafe.encode b) = some b :=
  Base64.Alphabet.decode_encode Base64.Alphabet.urlSafe_lawful b

/-- A token as it is put together. -/
def issued (claims : Claims) (kid : String) (signature : Bytes) : String :=
  signingInput claims kid ++ "." ++ encodeSegment signature

/-- The pieces of a token as they are put together. -/
def issuedSegments (claims : Claims) (kid : String) (signature : Bytes) : Segments where
  header := Base64.Alphabet.urlSafe.encode (utf8 (headerJson kid))
  payload := Base64.Alphabet.urlSafe.encode (utf8 claims.toJson)
  signature := Base64.Alphabet.urlSafe.encode signature

/-- The bytes of the pieces come back. -/
theorem decodeSegment_issuedSegments (claims : Claims) (kid : String) (signature : Bytes) :
    decodeSegment (issuedSegments claims kid signature).header = some (utf8 (headerJson kid)) ∧
      decodeSegment (issuedSegments claims kid signature).payload = some (utf8 claims.toJson) ∧
      decodeSegment (issuedSegments claims kid signature).signature = some signature := by
  unfold issuedSegments
  dsimp only
  exact ⟨decodeSegment_encode (utf8 (headerJson kid)), decodeSegment_encode (utf8 claims.toJson),
    decodeSegment_encode signature⟩

theorem toList_signingInput (claims : Claims) (kid : String) (signature : Bytes) :
    (signingInput claims kid).toList = (issuedSegments claims kid signature).message := by
  have hdot : ".".toList = ['.'] := rfl
  simp [signingInput, encodeSegment, Segments.message, issuedSegments, hdot]

theorem toList_issued (claims : Claims) (kid : String) (signature : Bytes) :
    (issued claims kid signature).toList = (issuedSegments claims kid signature).message ++
      '.' :: (issuedSegments claims kid signature).signature := by
  have hdot : ".".toList = ['.'] := rfl
  simp [issued, toList_signingInput claims kid signature, encodeSegment, issuedSegments, hdot]

/-- A token falls into the pieces from which it was put together. -/
theorem segments?_issued (claims : Claims) (kid : String) (signature : Bytes) :
    segments? (issued claims kid signature) = some (issuedSegments claims kid signature) := by
  obtain ⟨hheader, hpayload, hsignature⟩ := decodeSegment_issuedSegments claims kid signature
  exact segments?_eq_some_iff.mpr ⟨toList_issued claims kid signature,
    ne_nil_of_headerAlgorithm? hheader (headerAlgorithm?_headerJson kid),
    dot_notMem_of_decodeSegment hheader, dot_notMem_of_decodeSegment hpayload,
    dot_notMem_of_decodeSegment hsignature⟩

/-- No token holds a space, so that a header can present it. -/
theorem space_notMem_issued (claims : Claims) (kid : String) (signature : Bytes) :
    ' ' ∉ (issued claims kid signature).toList := by
  have hpiece : ∀ b, ' ' ∉ Base64.Alphabet.urlSafe.encode b :=
    Base64.Alphabet.notMem_encode Base64.Alphabet.urlSafe_lawful (by decide)
  rw [toList_issued]
  simp [Segments.message, issuedSegments, hpiece]

/-- The dots of a token are the two that part its pieces. -/
theorem count_dot_issued (claims : Claims) (kid : String) (signature : Bytes) :
    (issued claims kid signature).toList.count '.' = 2 := by
  have hpiece : ∀ b, (Base64.Alphabet.urlSafe.encode b).count '.' = 0 := by
    intro b
    exact List.count_eq_zero_of_not_mem (dot_notMem_of_decodeSegment (decodeSegment_encode b))
  rw [toList_issued, Segments.message, issuedSegments]
  simp only [List.count_append, List.count_cons_self, hpiece]

/-! ### Reading -/

/-- The header of a token is read without a key. -/
theorem peekHeader_issued (claims : Claims) (kid : String) (signature : Bytes) :
    peekHeader (issued claims kid signature) = .ok (headerMembers kid) := by
  obtain ⟨hheader, hpayload, -⟩ := decodeSegment_issuedSegments claims kid signature
  obtain ⟨halg, -⟩ := lastMember?_headerMembers kid
  exact peekHeader_eq_ok_iff.mpr ⟨_, _, _, segments?_issued claims kid signature, hheader,
    readObject_headerJson kid, hpayload, halg⟩

/-- A token into which something was stamped that is no key id is refused for the rule that this
breaks. -/
theorem namedKid_issued_eq_error (claims : Claims) {kid : String} {fault : KeyId.Fault}
    (h : KeyId.check kid = .error fault) (signature : Bytes) :
    namedKid (issued claims kid signature) = .error (.tokenParse (.keyId fault)) := by
  obtain ⟨-, hkid⟩ := lastMember?_headerMembers kid
  rw [namedKid, peekHeader_issued]
  exact headerKid_eq_error hkid h

/-- A token carries the claims that were written into it. -/
theorem carriedClaims_issued (claims : Claims) (kid : String) (signature : Bytes) :
    carriedClaims (issued claims kid signature) = .ok claims := by
  obtain ⟨-, hpayload, -⟩ := decodeSegment_issuedSegments claims kid signature
  exact carriedClaims_eq_ok_iff.mpr
    ⟨_, _, segments?_issued claims kid signature, hpayload, Claims.ofJson_toJson claims⟩

/-- A token names the key id that was stamped into it. -/
theorem namedKid_issued (claims : Claims) {kid : String} (h : KeyId.Valid kid)
    (signature : Bytes) : namedKid (issued claims kid signature) = .ok kid := by
  obtain ⟨-, hkid⟩ := lastMember?_headerMembers kid
  rw [namedKid, peekHeader_issued]
  exact headerKid_eq_ok_iff.mpr ⟨hkid, h⟩

/-- Printed claims are valid up to their end and the leeway behind it. -/
theorem readPayload_toJson {claims : Claims} {leeway now : UInt64}
    (hexp : 0 ≤ claims.expiresAt.toInt) (hle : leeway ≤ now)
    (hnow : (now.toNat : Int) ≤ claims.expiresAt.toInt + leeway.toNat) :
    readPayload leeway now (utf8 claims.toJson) = .ok claims := by
  have hlt := claims.expiresAt.toInt_lt
  have hvalid : (⟨some (some claims.expiresAt.toInt.toNat), none, some true, true, false⟩ :
      Registered).isValidAt leeway now = .ok true :=
    Registered.isValidAt_of_le rfl rfl rfl (by omega) hle (by omega)
  simp only [readPayload, Claims.ofJson_toJson, Registered.ofBytes_toJson hexp, hvalid]

/-- A token that a key signed verifies under the public key that fits, in its time. -/
theorem verify_issued {claims : Claims} {kid pem : String} {signature : Bytes}
    {material : KeyMaterial} {key : Rsa.PublicKey} {leeway : Duration} {now : Clock}
    (hpem : KeyMaterial.ofPem? pem = some material) (hkey : material.publicKey? = some key)
    (hverifies : key.verifies (utf8 (signingInput claims kid)) signature)
    (hexp : 0 ≤ claims.expiresAt.toInt) (hle : leeway.wholeSeconds ≤ now)
    (hnow : (now.toNat : Int) ≤ claims.expiresAt.toInt + leeway.wholeSeconds.toNat) :
    verify (issued claims kid signature) pem leeway now = .ok claims := by
  have hmessage : String.ofList (issuedSegments claims kid signature).message =
      signingInput claims kid := by
    rw [← toList_signingInput claims kid signature, String.ofList_toList]
  obtain ⟨hheader, hpayload, hsignature⟩ := decodeSegment_issuedSegments claims kid signature
  exact verify_eq_ok_iff.mpr ⟨material, _, _, key, signature, _, hpem,
    segments?_issued claims kid signature, hheader, headerAlgorithm?_headerJson kid, hkey,
    hsignature, by rw [hmessage]; exact hverifies, hpayload, readPayload_toJson hexp hle hnow⟩

end BearerAuth.Token
