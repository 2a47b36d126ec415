import Mathlib
import BearerAuth.Proofs.Failable
import BearerAuth.Token

/-!
# The key that a token names

What a text has to be so that `namedKid` finds a key id in it, and what a failure to find one looks
like.

Main statements: `KeyId.valid_iff` spells out which texts are key ids, and `namedKid_eq_ok_iff` says
which tokens name one.
-/

namespace BearerAuth

/-! ### Key ids -/

namespace KeyId

/-- The search for two dots in a row finds them exactly where they are. -/
theorem hasDoubleDot_iff_infix {cs : List Char} : hasDoubleDot cs ↔ ['.', '.'] <:+: cs := by
  induction cs with
  | nil => simp [hasDoubleDot]
  | cons c rest ih =>
    rw [List.infix_cons_iff, ← ih]
    cases rest with
    | nil => simp [hasDoubleDot]
    | cons d rest =>
      by_cases hdots : c = '.' ∧ d = '.'
      · obtain ⟨rfl, rfl⟩ := hdots
        simp [hasDoubleDot]
      · have hskip : hasDoubleDot (c :: d :: rest) = hasDoubleDot (d :: rest) := by
          rw [hasDoubleDot]
          rintro rest' rfl heq
          exact hdots ⟨rfl, (List.cons.inj heq).1⟩
        rw [hskip]
        constructor
        · exact .inr
        · rintro (hstarts | h)
          · rw [List.cons_prefix_cons, List.cons_prefix_cons] at hstarts
            exact absurd ⟨hstarts.1.symm, hstarts.2.1.symm⟩ hdots
          · exact h

/-- The key ids are the texts of 1 to 256 visible ASCII characters in which no slash, no backslash
and no two dots in a row occur. -/
theorem valid_iff {kid : String} :
    Valid kid ↔ 1 ≤ kid.utf8ByteSize ∧ kid.utf8ByteSize ≤ 256 ∧
      (∀ c ∈ kid.toList, 0x21 ≤ c.toNat ∧ c.toNat ≤ 0x7E) ∧
      '/' ∉ kid.toList ∧ '\\' ∉ kid.toList ∧ ¬ ['.', '.'] <:+: kid.toList := by
  have hpath : leavesDirectory kid.toList = false ↔
      '/' ∉ kid.toList ∧ '\\' ∉ kid.toList ∧ ¬ ['.', '.'] <:+: kid.toList := by
    rw [← hasDoubleDot_iff_infix]
    simp only [leavesDirectory, Bool.or_eq_false_iff, List.any_eq_false, Bool.or_eq_true,
      decide_eq_true_eq, not_or, Bool.not_eq_true]
    constructor
    · rintro ⟨hchars, hdots⟩
      exact ⟨fun h => (hchars _ h).1 rfl, fun h => (hchars _ h).2 rfl, hdots⟩
    · rintro ⟨hslash, hbackslash, hdots⟩
      exact ⟨fun c hc => ⟨fun h => hslash (h ▸ hc), fun h => hbackslash (h ▸ hc)⟩, hdots⟩
  have hempty : kid ≠ "" ↔ 1 ≤ kid.utf8ByteSize := by
    rw [Nat.one_le_iff_ne_zero, ne_eq, ne_eq, String.utf8ByteSize_eq_zero_iff]
  unfold Valid
  rw [check_eq_ok_iff, hpath, hempty]
  simp [isGraphic, maxLength]

end KeyId

namespace Token

/-! ### Tokens that name a key -/

/-- What it takes for the header of a token to pass without a key. -/
theorem peekHeader_eq_ok_iff {token : String} {members : Json.Members} :
    peekHeader token = .ok members ↔
      ∃ s header payload, segments? token = some s ∧ decodeSegment s.header = some header ∧
        readObject header = .ok members ∧ decodeSegment s.payload = some payload ∧
        (lastMember? "alg" members).bind textOfValue? = some acceptedAlgorithm := by
  have halg : ∀ ms, checkHeaderAlgorithm ms = .ok () ↔
      (lastMember? "alg" ms).bind textOfValue? = some acceptedAlgorithm := by
    intro ms
    unfold checkHeaderAlgorithm
    cases (lastMember? "alg" ms).bind textOfValue? with
    | none => simp
    | some alg => simp [checkAlgorithm_eq_ok_iff, acceptedAlgorithm]
  constructor
  · intro h
    unfold peekHeader at h
    split at h
    · rename_i s hs
      split at h
      · rename_i header hheader
        obtain ⟨ms, hread, h⟩ := Except.bind_eq_ok_iff.mp h
        split at h
        · rename_i payload hpayload
          obtain ⟨_, hcheck, h⟩ := Except.bind_eq_ok_iff.mp h
          cases h
          exact ⟨s, header, payload, hs, hheader, Except.mapError_eq_ok_iff.mp hread, hpayload,
            (halg _).mp hcheck⟩
        · cases h
      · cases h
    · cases h
  · rintro ⟨s, header, payload, hs, hheader, hread, hpayload, hmember⟩
    have hcheck := (halg members).mpr hmember
    simp [peekHeader, hs, hheader, hread, hpayload, hcheck, Except.mapError]

/-- What it takes for a header to name a key. -/
theorem headerKid_eq_ok_iff {members : Json.Members} {kid : String} :
    headerKid members = .ok kid ↔
      (lastMember? "kid" members).bind textOfValue? = some kid ∧ KeyId.Valid kid := by
  unfold headerKid
  cases lastMember? "kid" members with
  | none => simp
  | some v =>
    cases htext : textOfValue? v with
    | none => simp [htext]
    | some text =>
      cases hcheck : KeyId.check text with
      | error fault =>
        simp only [htext, hcheck, reduceCtorEq, Option.bind_some, Option.some.injEq, false_iff]
        rintro ⟨rfl, hvalid⟩
        rw [KeyId.Valid, hcheck] at hvalid
        cases hvalid
      | ok u =>
        simp only [htext, hcheck, Except.ok.injEq, Option.bind_some, Option.some.injEq]
        constructor
        · rintro rfl
          exact ⟨rfl, hcheck⟩
        · exact fun h => h.1

/-- A header whose key id breaks a rule is refused for the rule that it breaks. -/
theorem headerKid_eq_error {members : Json.Members} {kid : String} {fault : KeyId.Fault}
    (hkid : (lastMember? "kid" members).bind textOfValue? = some kid)
    (hfault : KeyId.check kid = .error fault) :
    headerKid members = .error (.tokenParse (.keyId fault)) := by
  obtain ⟨v, hlast, htext⟩ := Option.bind_eq_some_iff.mp hkid
  simp only [headerKid, hlast, htext, hfault]

/-- What it takes for a token to name a key. -/
theorem namedKid_eq_ok_iff {token kid : String} :
    namedKid token = .ok kid ↔
      ∃ s header members payload, segments? token = some s ∧
        decodeSegment s.header = some header ∧ readObject header = .ok members ∧
        decodeSegment s.payload = some payload ∧
        (lastMember? "alg" members).bind textOfValue? = some acceptedAlgorithm ∧
        (lastMember? "kid" members).bind textOfValue? = some kid ∧ KeyId.Valid kid := by
  unfold namedKid
  constructor
  · intro h
    cases hpeek : peekHeader token with
    | error fault =>
      rw [hpeek] at h
      cases h
    | ok members =>
      rw [hpeek] at h
      obtain ⟨s, header, payload, hs, hheader, hread, hpayload, halg⟩ :=
        peekHeader_eq_ok_iff.mp hpeek
      exact ⟨s, header, members, payload, hs, hheader, hread, hpayload, halg,
        headerKid_eq_ok_iff.mp h⟩
  · rintro ⟨s, header, members, payload, hs, hheader, hread, hpayload, halg, hkid⟩
    rw [peekHeader_eq_ok_iff.mpr ⟨s, header, payload, hs, hheader, hread, hpayload, halg⟩]
    exact headerKid_eq_ok_iff.mpr hkid

/-- Whatever keeps a token from naming a key is the fault of the request. -/
theorem isMalformed_of_namedKid {token : String} {e : AuthFailure}
    (h : namedKid token = .error e) : e.isMalformed := by
  unfold namedKid at h
  split at h
  · cases h
    rfl
  · rename_i header _
    unfold headerKid at h
    split at h
    · cases h
      rfl
    · split at h
      · cases h
        rfl
      · split at h
        · cases h
          rfl
        · cases h

end Token

end BearerAuth
