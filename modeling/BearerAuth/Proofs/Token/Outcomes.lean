import Mathlib
import BearerAuth.Proofs.Token.HeaderGrammar

/-!
# The outcomes of looking for a key

Whoever looks for the key of a token makes several checks one after the other.  They sort all texts
into four classes: texts that name a key, texts whose header lacks a key id, texts whose key id is
no string, and all others.  What stands behind the second dot plays no part in this, and of the
payload it only matters that it is base64.

Main statement: `namedKid_outcomes`.
-/

namespace BearerAuth.Token

open Json (Value Members)

/-! ### Headers -/

/-- The value is a string. -/
def IsString (v : Value) : Prop :=
  ∃ raw, v = .string raw

variable {ms : Members} {kid : String}

/-- A header lacks a key id if none of its members has the name. -/
theorem headerKid_eq_missingKid_iff : headerKid ms = .error .missingKid ↔ LacksMember "kid" ms := by
  rw [← lastMember?_eq_none_iff]
  unfold headerKid
  constructor
  · intro h
    split at h
    · assumption
    · split at h
      · cases h
      · split at h
        · cases h
        · cases h
  · intro h
    rw [h]

/-- The key id of an acceptable header has the wrong type if its last member of this name is no
string. -/
theorem headerKid_eq_kidType_iff (h : Acceptable ms) :
    headerKid ms = .error .kidType ↔ ∃ v, LastMember "kid" v ms ∧ ¬ IsString v := by
  unfold headerKid
  constructor
  · intro hkid
    split at hkid
    · cases hkid
    · rename_i v hlast
      rw [lastMember?_eq_some_iff] at hlast
      refine ⟨v, hlast, ?_⟩
      rintro ⟨raw, rfl⟩
      obtain ⟨text, htext⟩ := h.exists_textOf? hlast
      rw [textOfValue?, htext] at hkid
      dsimp only at hkid
      split at hkid
      · cases hkid
      · cases hkid
  · rintro ⟨v, hlast, hstring⟩
    rw [lastMember?_eq_some_iff.mpr hlast]
    cases v with
    | string raw => exact absurd ⟨raw, rfl⟩ hstring
    | _ => rfl

/-- The header names a key id: its last member of this name is a string that is one. -/
theorem headerKid_eq_ok_iff_lastText :
    headerKid ms = .ok kid ↔ LastText "kid" kid ms ∧ KeyId.Valid kid := by
  rw [headerKid_eq_ok_iff, lastMember?_bind_textOfValue?_iff]

/-- A header names a key id, lacks one, has one of the wrong type, or has one that breaks a rule. -/
theorem headerKid_cases (ms : Members) :
    (∃ kid, headerKid ms = .ok kid) ∨ headerKid ms = .error .missingKid ∨
      headerKid ms = .error .kidType ∨ ∃ fault, headerKid ms = .error (.tokenParse fault) := by
  unfold headerKid
  split
  · exact .inr (.inl rfl)
  · split
    · exact .inr (.inr (.inl rfl))
    · rename_i kid _
      split
      · rename_i fault _
        exact .inr (.inr (.inr ⟨.keyId fault, rfl⟩))
      · exact .inl ⟨kid, rfl⟩

/-! ### Tokens -/

/-- The text has exactly two dots.  In front of the first one is base64 of an acceptable object
whose last algorithm is the accepted one, in front of the second one is base64 of anything. -/
structure Presents (token : String) (ms : Members) : Prop where
  pieces : ∃ first second third header payload,
    token.toList = first ++ '.' :: (second ++ '.' :: third) ∧ token.toList.count '.' = 2 ∧
    first ≠ [] ∧ first = Base64.Alphabet.urlSafe.encode header ∧
    second = Base64.Alphabet.urlSafe.encode payload ∧ (Value.object ms).SpellsDocument header
  acceptable : Acceptable ms
  algorithm : LastText "alg" "RS256" ms

variable {token other : String}

/-- A piece is base64 of the bytes that it is decoded to, and of no others. -/
theorem decodeSegment_eq_some_iff {cs : List Char} {b : Bytes} :
    decodeSegment cs = some b ↔ cs = Base64.Alphabet.urlSafe.encode b := by
  constructor
  · exact Base64.Alphabet.eq_encode_of_decode
  · rintro rfl
    exact Base64.Alphabet.decode_encode Base64.Alphabet.urlSafe_lawful b

/-- The pieces between exactly two dots are those into which a token falls. -/
theorem segments?_eq_some_iff_count {s : Segments} :
    segments? token = some s ↔
      token.toList = s.header ++ '.' :: (s.payload ++ '.' :: s.signature) ∧
        token.toList.count '.' = 2 ∧ s.header ≠ [] := by
  have hassoc : s.message ++ '.' :: s.signature =
      s.header ++ '.' :: (s.payload ++ '.' :: s.signature) := by
    rw [Segments.message, List.append_assoc, List.cons_append]
  have hcount : (s.header ++ '.' :: (s.payload ++ '.' :: s.signature)).count '.' = 2 ↔
      '.' ∉ s.header ∧ '.' ∉ s.payload ∧ '.' ∉ s.signature := by
    rw [List.count_append, List.count_cons_self, List.count_append, List.count_cons_self,
      ← List.count_eq_zero, ← List.count_eq_zero, ← List.count_eq_zero]
    omega
  rw [segments?_eq_some_iff, hassoc]
  constructor
  · rintro ⟨htoken, hne, hdots⟩
    exact ⟨htoken, by rw [htoken]; exact hcount.mpr hdots, hne⟩
  · rintro ⟨htoken, hdots, hne⟩
    rw [htoken] at hdots
    exact ⟨htoken, hne, hcount.mp hdots⟩

/-- A token passes without a key if and only if it presents its header. -/
theorem peekHeader_eq_ok_iff_presents : peekHeader token = .ok ms ↔ Presents token ms := by
  simp only [peekHeader_eq_ok_iff, readObject_eq_ok_iff_spells, decodeSegment_eq_some_iff,
    segments?_eq_some_iff_count, lastMember?_bind_textOfValue?_iff]
  constructor
  · rintro ⟨⟨first, second, third⟩, header, payload, ⟨htoken, hdots, hne⟩, hheader,
      ⟨hspells, hlimits⟩, hpayload, halg⟩
    exact ⟨⟨first, second, third, header, payload, htoken, hdots, hne, hheader, hpayload, hspells⟩,
      hlimits, halg⟩
  · rintro ⟨⟨first, second, third, header, payload, htoken, hdots, hne, hheader, hpayload, hspells⟩,
      hlimits, halg⟩
    exact ⟨⟨first, second, third⟩, header, payload, ⟨htoken, hdots, hne⟩, hheader,
      ⟨hspells, hlimits⟩, hpayload, halg⟩

/-- A token that presents no header is at fault, and any other is answered as its header is. -/
theorem namedKid_cases (token : String) :
    (∃ fault, namedKid token = .error (.tokenParse fault)) ∨
      ∃ ms, Presents token ms ∧ namedKid token = headerKid ms := by
  cases hpeek : peekHeader token with
  | error fault => exact .inl ⟨fault, by rw [namedKid, hpeek]⟩
  | ok ms => exact .inr ⟨ms, peekHeader_eq_ok_iff_presents.mp hpeek, by rw [namedKid, hpeek]⟩

/-- An answer other than a fault of the token is the one that its header gives. -/
theorem namedKid_eq_iff {answer : Except AuthFailure String}
    (hanswer : ∀ fault, answer ≠ .error (.tokenParse fault)) :
    namedKid token = answer ↔ ∃ ms, Presents token ms ∧ headerKid ms = answer := by
  constructor
  · rintro rfl
    rcases namedKid_cases token with ⟨fault, hfault⟩ | ⟨ms, hpresents, hkid⟩
    · exact absurd hfault (hanswer fault)
    · exact ⟨ms, hpresents, hkid.symm⟩
  · rintro ⟨ms, hpresents, rfl⟩
    rw [namedKid, peekHeader_eq_ok_iff_presents.mpr hpresents]

/-- A token is at fault exactly if it names no key id, lacks none, and has none of the wrong
type. -/
theorem exists_tokenParse_iff :
    (∃ fault, namedKid token = .error (.tokenParse fault)) ↔
      ¬ ((∃ kid, namedKid token = .ok kid) ∨ namedKid token = .error .missingKid ∨
        namedKid token = .error .kidType) := by
  constructor
  · rintro ⟨fault, h⟩
    simp [h]
  · intro hnone
    rcases namedKid_cases token with hfault | ⟨ms, -, hkid⟩
    · exact hfault
    · rw [hkid] at hnone ⊢
      rcases headerKid_cases ms with hok | hmissing | htype | hfault
      · exact absurd (.inl hok) hnone
      · exact absurd (.inr (.inl hmissing)) hnone
      · exact absurd (.inr (.inr htype)) hnone
      · exact hfault

/-! ### Tokens that differ behind their header -/

/-- A text that does not fall into three pieces is refused for this. -/
theorem namedKid_of_segments?_eq_none (h : segments? token = none) :
    namedKid token = .error (.tokenParse .notThreeParts) := by
  rw [namedKid, peekHeader, h]

/-- Pieces with the same header and the same payload are answered alike. -/
theorem namedKid_eq_of_segments? {s : Segments} {signature : List Char}
    (h : segments? token = some s) (hother : segments? other = some { s with signature }) :
    namedKid token = namedKid other := by
  have hpeek : peekHeader token = peekHeader other := by
    rw [peekHeader, h, peekHeader, hother]
  rw [namedKid, namedKid, hpeek]

variable {front signature signature' : List Char}

/-- What falls into pieces does so with anything else behind its last dot. -/
theorem segments?_of_front (htoken : token.toList = front ++ '.' :: signature)
    (hother : other.toList = front ++ '.' :: signature') (hdot : '.' ∉ signature)
    (hdot' : '.' ∉ signature') {s : Segments} (h : segments? token = some s) :
    segments? other = some { s with signature := signature' } := by
  obtain ⟨hpieces, hne, hheader, hpayload, hsignature⟩ := segments?_eq_some_iff.mp h
  have hcut := Text.cutLast_eq_some_iff.mpr ⟨htoken, hdot⟩
  rw [Text.cutLast_eq_some_iff.mpr ⟨hpieces, hsignature⟩] at hcut
  obtain ⟨hmessage, -⟩ := Prod.mk.inj (Option.some.inj hcut)
  refine segments?_eq_some_iff.mpr ⟨?_, hne, hheader, hpayload, hdot'⟩
  rw [hother, ← hmessage]
  rfl

/-- What stands behind the last dot does not matter, whatever stands in front of it. -/
theorem namedKid_eq_of_front (htoken : token.toList = front ++ '.' :: signature)
    (hother : other.toList = front ++ '.' :: signature') (hdot : '.' ∉ signature)
    (hdot' : '.' ∉ signature') : namedKid token = namedKid other := by
  cases hs : segments? token with
  | some s => exact namedKid_eq_of_segments? hs (segments?_of_front htoken hother hdot hdot' hs)
  | none =>
    have hnone : segments? other = none := by
      by_contra hsome
      obtain ⟨s, hs'⟩ := Option.ne_none_iff_exists'.mp hsome
      rw [segments?_of_front hother htoken hdot' hdot hs'] at hs
      cases hs
    rw [namedKid_of_segments?_eq_none hs, namedKid_of_segments?_eq_none hnone]

theorem toList_pieces (header payload signature : String) :
    (header ++ "." ++ payload ++ "." ++ signature).toList =
      (header.toList ++ '.' :: payload.toList) ++ '.' :: signature.toList := by
  have hdot : ".".toList = ['.'] := rfl
  simp [hdot]

/-- A token names the same key with any other payload that is base64. -/
theorem namedKid_of_payload {header payload payload' signature kid : String} {b : Bytes}
    (h : namedKid (header ++ "." ++ payload ++ "." ++ signature) = .ok kid)
    (hpayload : decodeSegment payload'.toList = some b) :
    namedKid (header ++ "." ++ payload' ++ "." ++ signature) = .ok kid := by
  obtain ⟨s, headerBytes, ms, payloadBytes, hs, hheader, hread, -, halg, hkid, hvalid⟩ :=
    namedKid_eq_ok_iff.mp h
  obtain rfl : s = ⟨header.toList, payload.toList, signature.toList⟩ :=
    segments?_eq_of_toList hs (toList_pieces header payload signature)
  obtain ⟨-, hne, hdot, -, hdot'⟩ := segments?_eq_some_iff.mp hs
  have hother : segments? (header ++ "." ++ payload' ++ "." ++ signature) =
      some ⟨header.toList, payload'.toList, signature.toList⟩ :=
    segments?_eq_some_iff.mpr ⟨toList_pieces header payload' signature, hne, hdot,
      dot_notMem_of_decodeSegment hpayload, hdot'⟩
  exact namedKid_eq_ok_iff.mpr
    ⟨_, headerBytes, ms, b, hother, hheader, hread, hpayload, halg, hkid, hvalid⟩

/-! ### All texts -/

/-- Every text is answered in one of four ways.  It names a key id if it presents a header whose
last key id is a string that is one; the key id is missing if it presents a header without any; the
key id has the wrong type if it presents a header whose last key id is no string; and every other
text is refused as no token.  The answer, with everything that its message is put together from,
does not depend on what stands behind the second dot, and that a key id is named depends on the
payload only in so far as this is base64. -/
theorem namedKid_outcomes :
    (∀ token kid, namedKid token = .ok kid ↔
      ∃ ms, Presents token ms ∧ LastText "kid" kid ms ∧ KeyId.Valid kid) ∧
    (∀ token, namedKid token = .error .missingKid ↔
      ∃ ms, Presents token ms ∧ LacksMember "kid" ms) ∧
    (∀ token, namedKid token = .error .kidType ↔
      ∃ ms, Presents token ms ∧ ∃ v, LastMember "kid" v ms ∧ ¬ IsString v) ∧
    (∀ token, (∃ fault, namedKid token = .error (.tokenParse fault)) ↔
      ¬ ∃ ms, Presents token ms ∧ ((∃ kid, LastText "kid" kid ms ∧ KeyId.Valid kid) ∨
        LacksMember "kid" ms ∨ ∃ v, LastMember "kid" v ms ∧ ¬ IsString v)) ∧
    (∀ header payload signature signature' : String,
      '.' ∉ signature.toList → '.' ∉ signature'.toList →
        namedKid (header ++ "." ++ payload ++ "." ++ signature) =
            namedKid (header ++ "." ++ payload ++ "." ++ signature') ∧
          ∀ w, (namedKid (header ++ "." ++ payload ++ "." ++ signature)).mapError
              (AuthFailure.message w) =
            (namedKid (header ++ "." ++ payload ++ "." ++ signature')).mapError
              (AuthFailure.message w)) ∧
    ∀ header payload payload' signature kid : String,
      namedKid (header ++ "." ++ payload ++ "." ++ signature) = .ok kid →
        (∃ b, decodeSegment payload'.toList = some b) →
          namedKid (header ++ "." ++ payload' ++ "." ++ signature) = .ok kid := by
  have hok : ∀ token kid, namedKid token = .ok kid ↔
      ∃ ms, Presents token ms ∧ LastText "kid" kid ms ∧ KeyId.Valid kid := by
    intro token kid
    rw [namedKid_eq_iff fun fault => by simp]
    simp only [headerKid_eq_ok_iff_lastText]
  have hmissing : ∀ token, namedKid token = .error .missingKid ↔
      ∃ ms, Presents token ms ∧ LacksMember "kid" ms := by
    intro token
    rw [namedKid_eq_iff fun fault => by simp]
    simp only [headerKid_eq_missingKid_iff]
  have htype : ∀ token, namedKid token = .error .kidType ↔
      ∃ ms, Presents token ms ∧ ∃ v, LastMember "kid" v ms ∧ ¬ IsString v := by
    intro token
    rw [namedKid_eq_iff fun fault => by simp]
    constructor
    · rintro ⟨ms, hpresents, hkid⟩
      exact ⟨ms, hpresents, (headerKid_eq_kidType_iff hpresents.acceptable).mp hkid⟩
    · rintro ⟨ms, hpresents, hkid⟩
      exact ⟨ms, hpresents, (headerKid_eq_kidType_iff hpresents.acceptable).mpr hkid⟩
  refine ⟨hok, hmissing, htype, ?_, ?_, ?_⟩
  · intro token
    rw [exists_tokenParse_iff, hmissing, htype, not_iff_not]
    simp only [hok, and_or_left, exists_or, exists_and_left, @exists_comm String]
  · intro header payload signature signature' hdot hdot'
    have hsame := namedKid_eq_of_front (toList_pieces header payload signature)
      (toList_pieces header payload signature') hdot hdot'
    exact ⟨hsame, fun w => by rw [hsame]⟩
  · rintro header payload payload' signature kid h ⟨b, hb⟩
    exact namedKid_of_payload h hb

/-- A header in which the name of the second of two key ids is escaped. -/
def repeatedHeader : String := "eyJhbGciOiJSUzI1NiIsImtpZCI6NSwia1x1MDA2OWQiOiJrIn0"

/-- The second key id counts, whatever the payload is and whatever stands behind it. -/
theorem namedKid_outcomes_repeated :
    namedKid (repeatedHeader ++ "." ++ "" ++ "." ++ "AA") = .ok "k" ∧
      namedKid (repeatedHeader ++ "." ++ "e30" ++ "." ++ "not base64") = .ok "k" := by
  obtain ⟨-, -, -, -, hsignature, hpayload⟩ := namedKid_outcomes
  have hfirst : namedKid (repeatedHeader ++ "." ++ "" ++ "." ++ "AA") = .ok "k" := by
    decide +kernel
  refine ⟨hfirst, ?_⟩
  rw [(hsignature repeatedHeader "e30" "not base64" "AA" (by decide) (by decide)).1]
  exact hpayload repeatedHeader "" "e30" "AA" "k" hfirst ⟨utf8 "\x7b\x7d", by decide +kernel⟩

end BearerAuth.Token
