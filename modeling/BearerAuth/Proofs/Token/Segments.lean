import Mathlib
import BearerAuth.Proofs.Base64
import BearerAuth.Token.Verify

/-!
# How tokens fall into pieces

A token is taken apart twice.  Whoever looks for its key cuts it at the first dots and wants
exactly two of them; whoever verifies it cuts it at the last dots and does not count them.  The
pieces agree all the same, because no piece that is base64 holds a dot and no header that passes is
empty.

Main statement: `verify_eq_ok_iff` says what it takes for a token to verify in terms of the pieces
that `segments?` finds.
-/

namespace BearerAuth

namespace Token

/-- No piece that is base64 holds a dot. -/
theorem dot_notMem_of_decodeSegment {cs : List Char} {b : Bytes}
    (h : decodeSegment cs = some b) : '.' ∉ cs := by
  intro hdot
  have hsome := Base64.Alphabet.isSome_value?_of_decode h hdot
  revert hsome
  decide

/-! ### Pieces of a token -/

/-- The part of a token in front of its last dot, over which it is signed. -/
def Segments.message (s : Segments) : List Char :=
  s.header ++ '.' :: s.payload

/-- A token falls into three pieces in only one way. -/
theorem segments?_eq_some_iff {token : String} {s : Segments} :
    segments? token = some s ↔
      token.toList = s.message ++ '.' :: s.signature ∧ s.header ≠ [] ∧
        '.' ∉ s.header ∧ '.' ∉ s.payload ∧ '.' ∉ s.signature := by
  obtain ⟨header, payload, signature⟩ := s
  unfold segments? Segments.message
  constructor
  · intro h
    obtain ⟨⟨header', rest⟩, hheader, h⟩ := Option.bind_eq_some_iff.mp h
    obtain ⟨⟨payload', signature'⟩, hpayload, h⟩ := Option.bind_eq_some_iff.mp h
    obtain ⟨_, hguard, h⟩ := Option.bind_eq_some_iff.mp h
    obtain ⟨rfl, rfl, rfl⟩ : header' = header ∧ payload' = payload ∧ signature' = signature := by
      simpa using h
    obtain ⟨htoken, hnotHeader⟩ := Text.cutFirst_eq_some_iff.mp hheader
    obtain ⟨hrest, hnotPayload⟩ := Text.cutFirst_eq_some_iff.mp hpayload
    obtain ⟨hne, hnotSignature⟩ : header' ≠ [] ∧ '.' ∉ signature' := by simpa using hguard
    exact ⟨by rw [htoken, hrest]; simp, hne, hnotHeader, hnotPayload, hnotSignature⟩
  · rintro ⟨htoken, hne, hnotHeader, hnotPayload, hnotSignature⟩
    have hheader : Text.cutFirst '.' token.toList = some (header, payload ++ '.' :: signature) :=
      Text.cutFirst_eq_some_iff.mpr ⟨by simpa using htoken, hnotHeader⟩
    have hpayload : Text.cutFirst '.' (payload ++ '.' :: signature) = some (payload, signature) :=
      Text.cutFirst_eq_some_iff.mpr ⟨rfl, hnotPayload⟩
    simp [hheader, hpayload, hne, hnotSignature]

/-- A token that falls into pieces is made of no others. -/
theorem segments?_eq_of_toList {token : String} {s pieces : Segments}
    (h : segments? token = some s)
    (htoken : token.toList = pieces.message ++ '.' :: pieces.signature) : s = pieces := by
  obtain ⟨hs, hne, hheader, hpayload, hsignature⟩ := segments?_eq_some_iff.mp h
  have hcount : pieces.header.count '.' + pieces.payload.count '.' +
      pieces.signature.count '.' = 0 := by
    have hdots := congrArg (List.count '.') (hs.symm.trans htoken)
    simp only [Segments.message, List.count_append, List.count_cons_self,
      List.count_eq_zero.mpr hheader, List.count_eq_zero.mpr hpayload,
      List.count_eq_zero.mpr hsignature] at hdots
    omega
  have hheader' : '.' ∉ pieces.header := List.count_eq_zero.mp (by omega)
  have hpayload' : '.' ∉ pieces.payload := List.count_eq_zero.mp (by omega)
  have hsignature' : '.' ∉ pieces.signature := List.count_eq_zero.mp (by omega)
  have hne' : pieces.header ≠ [] := by
    intro hnil
    obtain ⟨c, rest, hcons⟩ := List.exists_cons_of_ne_nil hne
    rw [hs, Segments.message, Segments.message, hnil, hcons] at htoken
    obtain rfl : c = '.' := (List.cons.inj htoken).1
    rw [hcons] at hheader
    exact hheader List.mem_cons_self
  have hpieces : segments? token = some pieces :=
    segments?_eq_some_iff.mpr ⟨htoken, hne', hheader', hpayload', hsignature'⟩
  exact Option.some.inj (h.symm.trans hpieces)

/-- A header that passes is not empty. -/
theorem ne_nil_of_headerAlgorithm? {cs : List Char} {header : Bytes} {alg : String}
    (hdecode : decodeSegment cs = some header) (halg : headerAlgorithm? header = some alg) :
    cs ≠ [] := by
  rintro rfl
  obtain rfl : header = [] := by
    have hnil : decodeSegment [] = some [] := by decide
    rw [hnil] at hdecode
    exact (Option.some.inj hdecode).symm
  revert halg
  have : headerAlgorithm? [] = none := by decide
  simp [this]

/-! ### Verification -/

/-- What it takes for a token to be signed under key material. -/
theorem signedPayload?_eq_some_iff {material : KeyMaterial} {token : String} {payload : Bytes} :
    signedPayload? material token = some payload ↔
      ∃ s header key signature, segments? token = some s ∧
        decodeSegment s.header = some header ∧
        headerAlgorithm? header = some acceptedAlgorithm ∧
        material.publicKey? = some key ∧
        decodeSegment s.signature = some signature ∧
        key.verifies (utf8 (String.ofList s.message)) signature ∧
        decodeSegment s.payload = some payload := by
  unfold signedPayload?
  constructor
  · intro h
    obtain ⟨⟨message, signature⟩, hsignature, h⟩ := Option.bind_eq_some_iff.mp h
    obtain ⟨⟨header, payload⟩, hheader, h⟩ := Option.bind_eq_some_iff.mp h
    obtain ⟨headerBytes, hheaderBytes, h⟩ := Option.bind_eq_some_iff.mp h
    obtain ⟨_, halg, h⟩ := Option.bind_eq_some_iff.mp h
    obtain ⟨key, hkey, h⟩ := Option.bind_eq_some_iff.mp h
    obtain ⟨signatureBytes, hsignatureBytes, h⟩ := Option.bind_eq_some_iff.mp h
    obtain ⟨_, hverifies, hpayloadBytes⟩ := Option.bind_eq_some_iff.mp h
    replace halg : headerAlgorithm? headerBytes = some acceptedAlgorithm := by simpa using halg
    obtain ⟨htoken, hnotSignature⟩ := Text.cutLast_eq_some_iff.mp hsignature
    obtain ⟨hmessage, hnotPayload⟩ := Text.cutLast_eq_some_iff.mp hheader
    refine ⟨⟨header, payload, signature⟩, headerBytes, key, signatureBytes,
      segments?_eq_some_iff.mpr ⟨?_, ne_nil_of_headerAlgorithm? hheaderBytes halg,
        dot_notMem_of_decodeSegment hheaderBytes, hnotPayload, hnotSignature⟩,
      hheaderBytes, halg, hkey, hsignatureBytes, ?_, hpayloadBytes⟩
    · rw [htoken, hmessage]
      rfl
    · rw [hmessage] at hverifies
      simpa [Segments.message] using hverifies
  · rintro ⟨s, header, key, signature, hs, hheader, halg, hkey, hsignature, hverifies, hpayload⟩
    obtain ⟨htoken, -, -, hnotPayload, hnotSignature⟩ := segments?_eq_some_iff.mp hs
    have hcut : Text.cutLast '.' token.toList = some (s.message, s.signature) :=
      Text.cutLast_eq_some_iff.mpr ⟨htoken, hnotSignature⟩
    have hcut' : Text.cutLast '.' s.message = some (s.header, s.payload) :=
      Text.cutLast_eq_some_iff.mpr ⟨rfl, hnotPayload⟩
    simp [hcut, hcut', hheader, halg, hkey, hsignature, hverifies, hpayload]

/-- A token with a signed payload is answered as reading the payload is. -/
theorem verify_of_signedPayload? {token pem : String} {leeway : Duration} {now : Clock}
    {material : KeyMaterial} {payload : Bytes} (hpem : KeyMaterial.ofPem? pem = some material)
    (hpayload : signedPayload? material token = some payload) :
    verify token pem leeway now = readPayload leeway.wholeSeconds now payload := by
  simp only [verify, hpem, hpayload]

/-- A token verifies if it is signed under the key in the text and its payload is read. -/
theorem verify_eq_ok_iff_signed {token pem : String} {leeway : Duration} {now : Clock}
    {claims : Claims} :
    verify token pem leeway now = .ok claims ↔
      ∃ material payload, KeyMaterial.ofPem? pem = some material ∧
        signedPayload? material token = some payload ∧
        readPayload leeway.wholeSeconds now payload = .ok claims := by
  unfold verify
  cases KeyMaterial.ofPem? pem with
  | none => simp
  | some material =>
    cases hpayload : signedPayload? material token with
    | none => simp [hpayload]
    | some payload => simp [hpayload]

/-- What it takes for a token to verify: three pieces of base64, a header that names the accepted
algorithm, a signature over the first two pieces, and a payload with claims whose time it is. -/
theorem verify_eq_ok_iff {token pem : String} {leeway : Duration} {now : Clock} {claims : Claims} :
    verify token pem leeway now = .ok claims ↔
      ∃ material s header key signature payload, KeyMaterial.ofPem? pem = some material ∧
        segments? token = some s ∧
        decodeSegment s.header = some header ∧
        headerAlgorithm? header = some acceptedAlgorithm ∧
        material.publicKey? = some key ∧
        decodeSegment s.signature = some signature ∧
        key.verifies (utf8 (String.ofList s.message)) signature ∧
        decodeSegment s.payload = some payload ∧
        readPayload leeway.wholeSeconds now payload = .ok claims := by
  rw [verify_eq_ok_iff_signed]
  constructor
  · rintro ⟨material, payload, hpem, hsigned, hread⟩
    obtain ⟨s, header, key, signature, hs, hheader, halg, hkey, hsignature, hverifies, hpayload⟩ :=
      signedPayload?_eq_some_iff.mp hsigned
    exact ⟨material, s, header, key, signature, payload, hpem, hs, hheader, halg, hkey, hsignature,
      hverifies, hpayload, hread⟩
  · rintro ⟨material, s, header, key, signature, payload, hpem, hs, hheader, halg, hkey, hsignature,
      hverifies, hpayload, hread⟩
    exact ⟨material, payload, hpem, signedPayload?_eq_some_iff.mpr ⟨s, header, key, signature, hs,
      hheader, halg, hkey, hsignature, hverifies, hpayload⟩, hread⟩

/-- The claims of a payload that is valid are the claims in it. -/
theorem ofJson_of_readPayload {leeway now : UInt64} {payload : Bytes} {claims : Claims}
    (h : readPayload leeway now payload = .ok claims) : Claims.ofJson payload = .ok claims := by
  unfold readPayload at h
  split at h
  · rename_i found registered hfound _
    split at h
    · rw [hfound, Except.ok.inj h]
    · cases h
    · cases h
  · cases h

/-- The claims that a token carries are those in its payload. -/
theorem carriedClaims_eq_ok_iff {token : String} {claims : Claims} :
    carriedClaims token = .ok claims ↔
      ∃ s payload, segments? token = some s ∧ decodeSegment s.payload = some payload ∧
        Claims.ofJson payload = .ok claims := by
  unfold carriedClaims
  cases hs : segments? token with
  | none => simp
  | some s =>
    cases hpayload : decodeSegment s.payload with
    | none => simp [hpayload]
    | some payload =>
      cases hread : Claims.ofJson payload with
      | error fault => simp [hpayload, hread, Except.mapError]
      | ok c => simp [hpayload, hread, Except.mapError]

/-- A token that verifies carries the claims for which it was verified. -/
theorem carriedClaims_of_verify {token pem : String} {leeway : Duration} {now : Clock}
    {claims : Claims} (h : verify token pem leeway now = .ok claims) :
    carriedClaims token = .ok claims := by
  obtain ⟨-, s, -, -, -, payload, -, hs, -, -, -, -, -, hpayload, hread⟩ := verify_eq_ok_iff.mp h
  exact carriedClaims_eq_ok_iff.mpr ⟨s, payload, hs, hpayload, ofJson_of_readPayload hread⟩

end Token

end BearerAuth
