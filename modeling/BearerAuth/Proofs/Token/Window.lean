import Mathlib
import BearerAuth.Proofs.Claims
import BearerAuth.Token.Validity

/-!
# The window of printed claims

The times of a token are picked out of its payload by a tolerant reading of their own.  This file
follows that reading through printed claims: it finds the end, takes no number for a beginning, and
does not lose its way in the other members.

Main statements: `Registered.ofBytes_toJson` says what is picked out of printed claims, and
`Registered.isValidAt_of_le` when they are valid.
-/

namespace BearerAuth.Token

open Json

/-! ### Single values -/

/-- The first byte of a number of the grammar decides how it is read. -/
theorem skipBlank_number {n : Number} {b : Bytes} (h : n.Spells b) (rest : Bytes) :
    ∃ c tail, b ++ rest = c :: tail ∧ skipBlank (b ++ rest) = c :: tail ∧
      (c = ascii '-' ∨ isDigit c) := by
  obtain ⟨c, tail, rfl, hc⟩ := h.head
  obtain ⟨d, _, heq, hd, -⟩ := (Value.Spells.number h).head
  obtain ⟨rfl, -⟩ := List.cons.inj heq
  exact ⟨c, tail ++ rest, rfl, skipBlank_cons hd _, hc⟩

/-- An integer from zero on that fits into a word is read as this number of seconds. -/
theorem readSeconds_ofInt {i : Int} (h : 0 ≤ i) (hlt : i < Number.wordLimit) {rest : Bytes}
    (hrest : Stops rest) : readSeconds (utf8 (Decimal.ofInt i) ++ rest) = (some i.toNat, rest) := by
  have hspells := ofInt_spells i
  have hscan : scanNumeral (utf8 (Decimal.ofInt i) ++ rest) = .ok (.natural i.toNat, rest) := by
    rw [scanNumeral, scanNumber_of_spells hspells hrest]
    simp only [Except.ok_bind, numeral_ofInt_natural h hlt]
  obtain ⟨c, tail, heq, hskip, hc⟩ := skipBlank_number hspells rest
  have hother : ∀ d, isDigit d = false → d ≠ ascii '-' → c ≠ d := by
    intro d hd hminus
    rcases hc with rfl | hc
    · exact hminus.symm
    · exact ne_of_isDigit hc hd
  rw [heq] at hscan
  rw [readSeconds, hskip]
  simp only [hother (ascii 'n') (by decide) (by decide), hother (ascii 't') (by decide) (by decide),
    hother (ascii 'f') (by decide) (by decide), hother (ascii '"') (by decide) (by decide),
    hother (ascii '[') (by decide) (by decide), hother (ascii '\x7b') (by decide) (by decide),
    hc, if_true, if_false, hscan]
  rfl

/-- A printed text is found to be one. -/
theorem readText_quote (s : String) (rest : Bytes) :
    readText (utf8 (quote s) ++ rest) = (true, rest) := by
  rw [utf8_quote, List.cons_append, List.append_assoc, readText, skipBlank_cons (by decide)]
  simp only [if_true, List.cons_append, List.nil_append, readString_escaped]

/-- A printed text is passed over. -/
theorem passAny_quote (s : String) (rest : Bytes) :
    passAny (utf8 (quote s) ++ rest) = rest := by
  have hn : ascii '"' ≠ ascii 'n' := by decide
  have ht : ascii '"' ≠ ascii 't' := by decide
  have hf : ascii '"' ≠ ascii 'f' := by decide
  rw [passAny, utf8_quote, List.cons_append, List.append_assoc, passValue,
    skipBlank_cons (by decide)]
  simp only [hn, ht, hf, if_true, if_false, List.cons_append, List.nil_append, readString_escaped]
  rfl

/-! ### Members one after the other -/

/-- Reading the values of members in turn leads from one state to another. -/
inductive Registered.Takes : Registered → List (String × Written) → Registered → Prop
  | nil (r : Registered) : Registered.Takes r [] r
  | cons {r r' r'' : Registered} {m : String × Written} {ms : List (String × Written)}
      (hstep : ∀ rest, Stops rest → r.step m.1 (utf8 m.2.text ++ rest) = some (r', rest))
      (hms : Registered.Takes r' ms r'') : Registered.Takes r (m :: ms) r''

/-- A member is read by a step on its value. -/
theorem readRegisteredMember_of_step {r r' : Registered} {m : String × Written} {rest : Bytes}
    (h : r.step m.1 (utf8 m.2.text ++ rest) = some (r', rest)) (fuel : Nat) :
    readRegisteredMember (fuel + 1) r (utf8 (Written.memberText m) ++ rest) =
      readRegistered fuel false r' rest := by
  rw [Written.utf8_memberText, List.cons_append, List.append_assoc, readRegisteredMember]
  simp only [if_true, List.cons_append, readString_escaped,
    skipBlank_cons (show isBlank (ascii ':') = false by decide), h]

/-- Printed members are read up to the brace behind them. -/
theorem readRegisteredMember_of_takes {r r' : Registered} {m : String × Written}
    {ms : List (String × Written)} (h : r.Takes (m :: ms) r') {fuel : Nat}
    (hfuel : 2 * (ms.length + 1) ≤ fuel) :
    readRegisteredMember fuel r
      (utf8 (",".intercalate ((m :: ms).map Written.memberText)) ++ [ascii '\x7d']) = some r' := by
  induction ms generalizing m r fuel with
  | nil =>
    obtain ⟨fuel, rfl⟩ : ∃ k, fuel = k + 2 := ⟨fuel - 2, by simp at hfuel; omega⟩
    cases h with
    | cons hstep hms =>
      cases hms with
      | nil =>
        have hclose : Stops [ascii '\x7d'] := stops_cons (by decide)
        simp only [List.map_cons, List.map_nil, String.intercalate_singleton]
        rw [readRegisteredMember_of_step (hstep _ hclose)]
        rfl
  | cons next ms ih =>
    obtain ⟨fuel, rfl⟩ : ∃ k, fuel = k + 2 := ⟨fuel - 2, by simp at hfuel; omega⟩
    cases h with
    | @cons _ r₁ _ _ _ hstep hms =>
      have hcomma : utf8 "," = [ascii ','] := rfl
      have hquote : isBlank (ascii '"') = false := by decide
      have hread : readRegisteredMember fuel r₁
          (utf8 (",".intercalate ((next :: ms).map Written.memberText)) ++ [ascii '\x7d']) =
            some r' :=
        ih hms (by simp at hfuel ⊢; omega)
      obtain ⟨tail, htail⟩ := Written.utf8_members_head next ms [ascii '\x7d']
      rw [htail] at hread
      have hstops : Stops (ascii ',' :: ascii '"' :: tail) := stops_cons (by decide)
      simp only [List.map_cons, String.intercalate_cons_cons, Bytes.utf8_append, hcomma,
        List.append_assoc, List.cons_append, List.nil_append] at htail ⊢
      rw [htail, readRegisteredMember_of_step (hstep _ hstops), readRegistered,
        skipBlank_cons (by decide)]
      simp only [show ascii ',' ≠ ascii '\x7d' by decide, if_false, if_true, Bool.false_eq_true,
        skipBlank_cons hquote, hread]

/-- Printed members of an object are all that is read of it. -/
theorem ofBytes_object {r : Registered} {m : String × Written} {ms : List (String × Written)}
    (h : Registered.empty.Takes (m :: ms) r) :
    Registered.ofBytes (utf8 (Written.object (m :: ms)).text) = some r := by
  have hlength := Written.length_le_members (m :: ms)
  have hread : readRegisteredMember
      (2 * (utf8 (",".intercalate ((m :: ms).map Written.memberText)) ++
        [ascii '\x7d']).length + 1) Registered.empty
      (utf8 (",".intercalate ((m :: ms).map Written.memberText)) ++ [ascii '\x7d']) = some r :=
    readRegisteredMember_of_takes h (by simp at hlength ⊢; omega)
  have htext : utf8 (Written.object (m :: ms)).text = ascii '\x7b' ::
      (utf8 (",".intercalate ((m :: ms).map Written.memberText)) ++ [ascii '\x7d']) := by
    rw [Written.object, Written.utf8_object, List.map_map]
    rfl
  obtain ⟨tail, htail⟩ := Written.utf8_members_head m ms [ascii '\x7d']
  rw [htail] at hread htext
  rw [htext, Registered.ofBytes, skipBlank_cons (by decide)]
  simp only [if_true]
  rw [readRegistered, skipBlank_cons (by decide)]
  simp only [show ascii '"' ≠ ascii '\x7d' by decide, if_true, if_false]
  exact hread

/-! ### Printed claims -/

/-- Members that are not registered are skipped. -/
theorem Registered.Takes.skip {r r' : Registered} {m : String × Written}
    {ms : List (String × Written)}
    (h : ∀ input, r.step m.1 input = ((readValue input).2).map fun rest => (r, rest))
    (hms : r.Takes ms r') : r.Takes (m :: ms) r' := by
  refine .cons (fun rest hrest => ?_) hms
  rw [h, Written.readValue_text m.2 hrest]
  rfl

/-- The members of printed claims are read in turn. -/
theorem Registered.takes_writtenMembers {c : Claims} (h : 0 ≤ c.expiresAt.toInt) :
    Registered.empty.Takes c.writtenMembers
      ⟨some (some c.expiresAt.toInt.toNat), none, some true, true, false⟩ := by
  have hlt : c.expiresAt.toInt < Number.wordLimit := lt_trans c.expiresAt.toInt_lt (by decide)
  have hsub : ∀ rest, Registered.empty.step "sub" (utf8 c.subject.written.text ++ rest) =
      some (⟨none, none, some true, false, false⟩, rest) := by
    intro rest
    have hread := readText_quote c.subject.toText rest
    simp only [Registered.step, Registered.empty, UserId.written, Written.ofText, hread]
    rfl
  have hiss : ∀ rest, (⟨none, none, some true, false, false⟩ : Registered).step "iss"
      (utf8 (Written.ofText c.issuer).text ++ rest) =
        some (⟨none, none, some true, true, false⟩, rest) := by
    intro rest
    have hpass := passAny_quote c.issuer rest
    simp only [Registered.step, Written.ofText, hpass]
    rfl
  have hexp : ∀ rest, Stops rest → (⟨none, none, some true, true, false⟩ : Registered).step "exp"
      (utf8 (Written.ofInt c.expiresAt.toInt).text ++ rest) =
        some (⟨some (some c.expiresAt.toInt.toNat), none, some true, true, false⟩, rest) := by
    intro rest hrest
    have hread := readSeconds_ofInt h hlt hrest
    simp only [Registered.step, Written.ofInt, hread]
    rfl
  exact .cons (fun rest _ => hsub rest) (.cons (fun rest _ => hiss rest) (.skip (fun _ => rfl)
    (.cons hexp (.skip (fun _ => rfl) (.skip (fun _ => rfl) (.nil _))))))

/-- Nothing but the end, the subject and the issuer is picked out of printed claims. -/
theorem Registered.ofBytes_toJson {c : Claims} (h : 0 ≤ c.expiresAt.toInt) :
    Registered.ofBytes (utf8 c.toJson) =
      some ⟨some (some c.expiresAt.toInt.toNat), none, some true, true, false⟩ := by
  rw [← Claims.written_text]
  exact ofBytes_object (Registered.takes_writtenMembers h)

/-! ### The window -/

/-- A token without a beginning is valid up to its end and the leeway behind it, unless the clock
has not yet reached the leeway. -/
theorem Registered.isValidAt_of_le {r : Registered} {exp : Nat} {leeway now : UInt64}
    (hexp : r.exp = some (some exp)) (hnbf : r.nbf = none) (hsub : r.sub = some true)
    (hlt : exp < 2 ^ 64) (hle : leeway ≤ now) (h : now.toNat ≤ exp + leeway.toNat) :
    r.isValidAt leeway now = .ok true := by
  have hend : ¬ UInt64.ofNat exp < now - leeway := by
    rw [UInt64.not_lt, UInt64.le_iff_toNat_le, UInt64.toNat_sub_of_le _ _ hle,
      UInt64.toNat_ofNat_of_lt' hlt]
    omega
  simp only [Registered.isValidAt, hexp, hsub, Word.sub_of_le hle]
  change (if UInt64.ofNat exp < now - leeway then _ else _) = _
  rw [if_neg hend, Registered.hasBegunAt, hnbf]

end BearerAuth.Token
