import Mathlib
import BearerAuth.Proofs.Json.Soundness

/-!
# Inside and outside of quotes

A reader that stopped at the wrong place of a document may go on inside of a string, and take the
end of the string for the start of one.  What it reads from there on is known all the same.  Only
few bytes occur outside of strings, so whatever it takes for a name consists of them; and whatever
it takes for a value has paired quotes, so it stays inside of strings as long as it goes on.

Main statements: `InQuotes.of_append` for the reader that stays inside of strings,
`InQuotes.readString_name` for the names that it finds there, and `readString_body` for the place
at which the reading of a string of the document itself ends.
-/

namespace BearerAuth.Json

/-! ### Bytes outside of strings -/

/-- The bytes that occur outside of strings, quotes apart. -/
def structuralBytes : Bytes :=
  utf8 " \t\n\r[]\x7b\x7d,:0123456789+-.eEtrufalsn"

/-- The byte may occur outside of strings. -/
def isStructural (b : UInt8) : Bool :=
  structuralBytes.contains b

theorem isStructural_of_isBlank {b : UInt8} (h : isBlank b) : isStructural b := by
  simp only [isBlank, Bool.or_eq_true, decide_eq_true_eq] at h
  rcases h with ((rfl | rfl) | rfl) | rfl <;> decide

theorem isStructural_digitByte {d : Nat} (h : d < 10) : isStructural (digitByte d) := by
  revert d
  decide

theorem ne_of_isStructural {b c : UInt8} (hb : isStructural b) (hc : isStructural c = false) :
    b ≠ c := by
  rintro rfl
  rw [hb] at hc
  cases hc

/-! ### Modes -/

/-- Where a place of a document is: outside of strings, inside of one, or behind a backslash. -/
inductive Mode where
  | plain
  | quoted
  | escaped
deriving DecidableEq

namespace Mode

/-- The mode behind a byte, if the byte may stand there. -/
def next : Mode → UInt8 → Option Mode
  | plain, b => if b = ascii '"' then some quoted else if isStructural b then some plain else none
  | quoted, b =>
      some (if b = ascii '"' then plain else if b = ascii '\\' then escaped else quoted)
  | escaped, _ => some quoted

/-- The mode behind some bytes. -/
def run (m : Mode) (bs : Bytes) : Option Mode :=
  bs.foldlM next m

theorem run_cons (m : Mode) (b : UInt8) (bs : Bytes) :
    m.run (b :: bs) = (m.next b).bind (·.run bs) := rfl

theorem run_append (m : Mode) (bs bs' : Bytes) :
    m.run (bs ++ bs') = (m.run bs).bind (·.run bs') := by
  simp only [run, List.foldlM_append]
  rfl

@[simp] theorem run_plain_quote (bs : Bytes) : plain.run (ascii '"' :: bs) = quoted.run bs := rfl

@[simp] theorem run_quoted_quote (bs : Bytes) : quoted.run (ascii '"' :: bs) = plain.run bs := rfl

theorem run_plain_structural {b : UInt8} (h : isStructural b) (bs : Bytes) :
    plain.run (b :: bs) = plain.run bs := by
  have hquote : b ≠ ascii '"' := ne_of_isStructural h (by decide)
  rw [run_cons, next, if_neg hquote, if_pos h]
  rfl

theorem run_quoted_structural {b : UInt8} (h : isStructural b) (bs : Bytes) :
    quoted.run (b :: bs) = quoted.run bs := by
  have hquote : b ≠ ascii '"' := ne_of_isStructural h (by decide)
  have hslash : b ≠ ascii '\\' := ne_of_isStructural h (by decide)
  rw [run_cons, next, if_neg hquote, if_neg hslash]
  rfl

/-- Outside of strings there are quotes and structural bytes. -/
theorem eq_quote_or_isStructural_of_run {b : UInt8} {bs : Bytes} {m : Mode}
    (h : plain.run (b :: bs) = some m) : b = ascii '"' ∨ isStructural b := by
  by_contra hne
  obtain ⟨hquote, hstructural⟩ := not_or.mp hne
  rw [run_cons, next, if_neg hquote, if_neg hstructural] at h
  cases h

/-- The same bytes, read once from outside and once from inside of a string, end on different
sides. -/
theorem run_quoted_ne {bs : Bytes} {a b : Mode} (ha : plain.run bs = some a)
    (hb : quoted.run bs = some b) : (a = plain ∧ b = quoted) ∨ (a = quoted ∧ b = plain) := by
  induction bs generalizing a b with
  | nil =>
    cases ha
    cases hb
    exact .inl ⟨rfl, rfl⟩
  | cons c bs ih =>
    rcases eq_quote_or_isStructural_of_run ha with rfl | hc
    · rw [run_plain_quote] at ha
      rw [run_quoted_quote] at hb
      exact (ih hb ha).symm.imp And.symm And.symm
    · rw [run_plain_structural hc] at ha
      rw [run_quoted_structural hc] at hb
      exact ih ha hb

end Mode

/-! ### Paired quotes -/

/-- The bytes lead from outside of strings to outside of strings. -/
def Paired (bs : Bytes) : Prop :=
  Mode.plain.run bs = some .plain

/-- The bytes lead from inside of a string to outside of strings. -/
def InQuotes (bs : Bytes) : Prop :=
  Mode.quoted.run bs = some .plain

theorem paired_nil : Paired [] := rfl

theorem Paired.append {bs bs' : Bytes} (h : Paired bs) (h' : Paired bs') : Paired (bs ++ bs') := by
  rw [Paired, Mode.run_append, h]
  exact h'

theorem Paired.cons {b : UInt8} {bs : Bytes} (hb : isStructural b) (h : Paired bs) :
    Paired (b :: bs) := by
  rw [Paired, Mode.run_plain_structural hb]
  exact h

theorem paired_of_structural {bs : Bytes} (h : ∀ b ∈ bs, isStructural b) : Paired bs := by
  induction bs with
  | nil => exact paired_nil
  | cons b bs ih =>
    exact (ih fun c hc => h c (List.mem_cons_of_mem b hc)).cons (h b List.mem_cons_self)

theorem Blank.paired {w : Bytes} (h : Blank w) : Paired w :=
  paired_of_structural fun b hb => isStructural_of_isBlank (h b hb)

/-- Behind the text of a string its quote is awaited. -/
theorem StringBody.run {raw : Bytes} (h : StringBody raw) :
    Mode.quoted.run raw = some .quoted := by
  have hplain : ∀ {b : UInt8}, b ≠ ascii '"' → b ≠ ascii '\\' → ∀ bs : Bytes,
      Mode.quoted.run (b :: bs) = Mode.quoted.run bs := by
    intro b hquote hslash bs
    rw [Mode.run_cons, Mode.next, if_neg hquote, if_neg hslash]
    rfl
  have hescape : ∀ (e : UInt8) (bs : Bytes),
      Mode.quoted.run (ascii '\\' :: e :: bs) = Mode.quoted.run bs := fun e bs => rfl
  induction h with
  | nil => rfl
  | plain hb _ ih => rwa [hplain hb.2.1 hb.2.2]
  | letter _ _ ih => rwa [hescape]
  | @unit h₁ h₂ h₃ h₄ raw hunit _ ih =>
    have hdigits : ∀ {x : UInt8}, (hexValue? x).isSome → x ≠ ascii '"' ∧ x ≠ ascii '\\' := by
      intro x hx
      constructor <;> rintro rfl <;> exact absurd hx (by decide)
    obtain ⟨n, hn⟩ := Option.isSome_iff_exists.mp hunit
    simp only [hexQuad?, Option.bind_eq_bind, Option.bind_eq_some_iff] at hn
    obtain ⟨n₁, hn₁, n₂, hn₂, n₃, hn₃, n₄, hn₄, -⟩ := hn
    obtain ⟨hq₁, hs₁⟩ := hdigits (by rw [hn₁]; rfl)
    obtain ⟨hq₂, hs₂⟩ := hdigits (by rw [hn₂]; rfl)
    obtain ⟨hq₃, hs₃⟩ := hdigits (by rw [hn₃]; rfl)
    obtain ⟨hq₄, hs₄⟩ := hdigits (by rw [hn₄]; rfl)
    rwa [hescape, hplain hq₁ hs₁, hplain hq₂ hs₂, hplain hq₃ hs₃, hplain hq₄ hs₄]

/-- A place inside of a string, its quote and paired bytes behind it. -/
theorem StringBody.inQuotes {raw after : Bytes} (h : StringBody raw) (hafter : Paired after) :
    InQuotes (raw ++ ascii '"' :: after) := by
  rw [InQuotes, Mode.run_append, h.run]
  exact hafter

/-- A string with its quotes. -/
theorem StringBody.paired {raw after : Bytes} (h : StringBody raw) (hafter : Paired after) :
    Paired (ascii '"' :: (raw ++ ascii '"' :: after)) :=
  h.inQuotes hafter

/-- A number has no quotes. -/
theorem Number.Spells.paired {n : Number} {b : Bytes} (h : n.Spells b) : Paired b := by
  obtain ⟨negative, whole, fraction, exponent⟩ := n
  obtain ⟨hwhole, hfraction, e, hexponent, rfl⟩ := h
  dsimp only at hwhole hfraction hexponent ⊢
  have hdigits : ∀ {ds : List Nat}, (∀ d ∈ ds, d < 10) → Paired (ds.map digitByte) := by
    intro ds hds
    apply paired_of_structural
    intro b hb
    obtain ⟨d, hd, rfl⟩ := List.mem_map.mp hb
    exact isStructural_digitByte (hds d hd)
  have hminus : ∀ negative : Bool, Paired (if negative then [ascii '-'] else []) := by
    intro negative
    cases negative <;> rfl
  have hfractionBytes : Paired (fractionBytes fraction) := by
    cases fraction with
    | nil => exact paired_nil
    | cons d ds => exact (hdigits hfraction).cons (by decide)
  have he : Paired e := by
    cases hexponent with
    | none => exact paired_nil
    | @some negative ds letter sign hds _ hletter hsign =>
      have hsignPaired : Paired sign := by
        rcases hsign with rfl | ⟨-, rfl⟩
        · exact hminus negative
        · rfl
      refine (hsignPaired.append (hdigits hds)).cons ?_
      rcases hletter with rfl | rfl <;> decide
  exact (((hminus _).append (hdigits hwhole.lt)).append hfractionBytes).append he

mutual

/-- The quotes of a value are paired. -/
theorem Value.Spells.paired : ∀ {v : Value} {b : Bytes}, v.Spells b → Paired b
  | _, _, .null => rfl
  | _, _, .bool b => by cases b <;> rfl
  | _, _, .number h => h.paired
  | _, _, .string h => h.paired paired_nil
  | _, _, .emptyArray hw => (hw.paired.append (paired_nil.cons (by decide))).cons (by decide)
  | _, _, .array h => h.paired.cons (by decide)
  | _, _, .emptyObject hw => (hw.paired.append (paired_nil.cons (by decide))).cons (by decide)
  | _, _, .object h => h.paired.cons (by decide)

/-- The quotes of elements are paired. -/
theorem Elements.Spells.paired : ∀ {es : Elements} {b : Bytes}, es.Spells b → Paired b
  | _, _, .last hw hv hw' =>
    hw.paired.append (hv.paired.append (hw'.paired.append (paired_nil.cons (by decide))))
  | _, _, .more hw hv hw' hrest =>
    hw.paired.append (hv.paired.append (hw'.paired.append (hrest.paired.cons (by decide))))

/-- The quotes of members are paired. -/
theorem Members.Spells.paired : ∀ {ms : Members} {b : Bytes}, ms.Spells b → Paired b
  | _, _, .last hw hname hw' hu hv hw'' =>
    hw.paired.append (hname.paired (hw'.paired.append ((hu.paired.append (hv.paired.append
      (hw''.paired.append (paired_nil.cons (by decide))))).cons (by decide))))
  | _, _, .more hw hname hw' hu hv hw'' hrest =>
    hw.paired.append (hname.paired (hw'.paired.append ((hu.paired.append (hv.paired.append
      (hw''.paired.append (hrest.paired.cons (by decide))))).cons (by decide))))

end

/-! ### A reader inside of strings -/

/-- Behind paired bytes the reader is still inside of a string. -/
theorem InQuotes.of_append {bs rest : Bytes} (hbs : Paired bs) (h : InQuotes (bs ++ rest)) :
    InQuotes rest := by
  rw [InQuotes, Mode.run_append] at h
  obtain ⟨m, hm, hrest⟩ := Option.bind_eq_some_iff.mp h
  rcases Mode.run_quoted_ne hbs hm with ⟨-, rfl⟩ | ⟨hplain, -⟩
  · exact hrest
  · cases hplain

theorem InQuotes.skipBlank {bs : Bytes} (h : InQuotes bs) : InQuotes (skipBlank bs) := by
  obtain ⟨w, hw, heq⟩ := exists_blank_skipBlank bs
  rw [heq] at h
  exact h.of_append hw.paired

/-- What stands outside of strings and looks like the text of one is without escapes and consists of
structural bytes. -/
theorem StringBody.structural_of_run {raw rest : Bytes} {m : Mode} (h : StringBody raw)
    (hrun : Mode.plain.run (raw ++ rest) = some m) :
    ∀ b ∈ raw, Unescaped b ∧ isStructural b := by
  have hslash : ¬ (ascii '\\' = ascii '"' ∨ isStructural (ascii '\\')) := by decide
  induction h with
  | nil =>
    intro b hb
    cases hb
  | @plain b raw hb _ ih =>
    have hstructural : isStructural b :=
      (Mode.eq_quote_or_isStructural_of_run hrun).resolve_left hb.2.1
    rw [List.cons_append, Mode.run_plain_structural hstructural] at hrun
    exact List.forall_mem_cons.mpr ⟨⟨hb, hstructural⟩, ih hrun⟩
  | letter => exact absurd (Mode.eq_quote_or_isStructural_of_run hrun) hslash
  | unit => exact absurd (Mode.eq_quote_or_isStructural_of_run hrun) hslash

/-! ### Where the reading of a string ends -/

/-- The place is behind the quote of a string, in front of `after`, or inside of the string. -/
def StopsAt (after rest : Bytes) : Prop :=
  rest = after ∨ ∃ raw, StringBody raw ∧ rest = raw ++ ascii '"' :: after

section Leading

variable {h₁ h₂ h₃ h₄ k₁ k₂ k₃ k₄ : UInt8} {n m : Nat}

/-- Two units that belong together stand for one character. -/
theorem resolveString_pair (hn : hexQuad? h₁ h₂ h₃ h₄ = some n) (hlead : isLeadingSurrogate n)
    (htrail : isTrailingSurrogate n = false) (hm : hexQuad? k₁ k₂ k₃ k₄ = some m)
    (htrail' : isTrailingSurrogate m) (rest acc : Bytes) :
    resolveString (ascii '\\' :: ascii 'u' :: h₁ :: h₂ :: h₃ :: h₄ ::
        ascii '\\' :: ascii 'u' :: k₁ :: k₂ :: k₃ :: k₄ :: rest) acc =
      resolveString rest ((String.utf8EncodeChar (joinSurrogates n m)).reverse ++ acc) := by
  rw [resolveString.eq_def]
  simp only [backslash_ne_quote, hn, htrail, hlead, hm, htrail', if_true, if_false,
    Bool.false_eq_true, ne_eq, not_true_eq_false]

/-- Behind the first half of a pair the reading stops, unless the second half follows. -/
theorem resolveString_leading {raw : Bytes} (hraw : StringBody raw)
    (hn : hexQuad? h₁ h₂ h₃ h₄ = some n) (hlead : isLeadingSurrogate n)
    (htrail : isTrailingSurrogate n = false) :
    (∃ k₁ k₂ k₃ k₄ m raw', raw = ascii '\\' :: ascii 'u' :: k₁ :: k₂ :: k₃ :: k₄ :: raw' ∧
      StringBody raw' ∧ hexQuad? k₁ k₂ k₃ k₄ = some m ∧ isTrailingSurrogate m) ∨
    ∀ after acc, ∃ rest, resolveString (ascii '\\' :: ascii 'u' :: h₁ :: h₂ :: h₃ :: h₄ ::
      (raw ++ ascii '"' :: after)) acc = .error rest ∧ StopsAt after rest := by
  cases hraw with
  | nil =>
    refine .inr fun after acc => ⟨after, ?_, .inl rfl⟩
    rw [resolveString.eq_def]
    simp only [backslash_ne_quote, hn, htrail, hlead, if_true, if_false, Bool.false_eq_true,
      List.nil_append]
    exact if_pos (by decide)
  | @plain b raw hb hraw =>
    refine .inr fun after acc => ⟨raw ++ ascii '"' :: after, ?_, .inr ⟨raw, hraw, rfl⟩⟩
    rw [resolveString.eq_def]
    simp only [backslash_ne_quote, hn, htrail, hlead, if_true, if_false, Bool.false_eq_true,
      List.cons_append]
    exact if_pos hb.2.2
  | @letter e raw he hraw =>
    refine .inr fun after acc => ⟨raw ++ ascii '"' :: after, ?_, .inr ⟨raw, hraw, rfl⟩⟩
    rw [resolveString.eq_def]
    simp only [backslash_ne_quote, hn, htrail, hlead, if_true, if_false, Bool.false_eq_true,
      List.cons_append, ne_eq, not_true_eq_false]
    exact if_pos (ne_u_of_escapedByte? he)
  | @unit k₁ k₂ k₃ k₄ raw hunit hraw =>
    obtain ⟨m, hm⟩ := Option.isSome_iff_exists.mp hunit
    by_cases htrail' : isTrailingSurrogate m
    · exact .inl ⟨k₁, k₂, k₃, k₄, m, raw, rfl, hraw, hm, htrail'⟩
    · refine .inr fun after acc => ⟨raw ++ ascii '"' :: after, ?_, .inr ⟨raw, hraw, rfl⟩⟩
      rw [resolveString.eq_def]
      simp only [backslash_ne_quote, hn, htrail, hlead, hm, htrail', if_true, if_false,
        Bool.false_eq_true, List.cons_append, ne_eq, not_true_eq_false]

end Leading

/-- The reading of a string of the grammar ends behind its quote or stops somewhere inside of it;
which of the two it is does not depend on what follows.  The induction is on the length, because two
units of UTF-16 may be read at once. -/
theorem resolveString_body {raw : Bytes} (h : StringBody raw) (acc : Bytes) :
    (∃ bs, ∀ after, resolveString (raw ++ ascii '"' :: after) acc = .ok (bs, after)) ∨
      ∀ after, ∃ rest, resolveString (raw ++ ascii '"' :: after) acc = .error rest ∧
        StopsAt after rest := by
  induction hlength : raw.length using Nat.strong_induction_on generalizing raw acc with
  | _ n ih =>
    subst hlength
    cases h with
    | nil => exact .inl ⟨acc.reverse, fun after => resolveString_quote after acc⟩
    | @plain b raw hb hraw =>
      have hstep := resolveString_plain (List.forall_mem_singleton.mpr hb)
      simp only [List.singleton_append] at hstep
      simp only [List.cons_append, hstep]
      exact ih _ (by simp) hraw _ rfl
    | @letter e raw he hraw =>
      obtain ⟨x, hx⟩ := Option.isSome_iff_exists.mp he
      simp only [List.cons_append, resolveString_letter hx]
      exact ih _ (by simp) hraw _ rfl
    | @unit h₁ h₂ h₃ h₄ raw hunit hraw =>
      obtain ⟨n, hn⟩ := Option.isSome_iff_exists.mp hunit
      simp only [List.cons_append]
      cases htrail : isTrailingSurrogate n with
      | true =>
        exact .inr fun after => ⟨_, resolveString_trailing hn htrail _ _, .inr ⟨raw, hraw, rfl⟩⟩
      | false =>
        cases hlead : isLeadingSurrogate n with
        | false =>
          simp only [resolveString_unit hn htrail hlead]
          exact ih _ (by simp; omega) hraw _ rfl
        | true =>
          rcases resolveString_leading hraw hn hlead htrail with
            ⟨k₁, k₂, k₃, k₄, m, raw, rfl, hraw, hm, htrail'⟩ | hstop
          · simp only [List.cons_append, resolveString_pair hn hlead htrail hm htrail']
            exact ih _ (by simp; omega) hraw _ rfl
          · exact .inr fun after => hstop after acc

/-- A string of the grammar is read to its end if it has a text; else the reading stops behind it or
somewhere inside of it. -/
theorem readString_body {raw : Bytes} (h : StringBody raw) :
    (∃ s, textOf? raw = some s ∧
      ∀ after, readString (raw ++ ascii '"' :: after) = .ok (s, after)) ∨
    (textOf? raw = none ∧
      ∀ after, ∃ rest, readString (raw ++ ascii '"' :: after) = .error rest ∧
        StopsAt after rest) := by
  rcases resolveString_body h [] with ⟨bs, hbs⟩ | hstop
  · cases htext : bs.text? with
    | some s =>
      have hread : ∀ after, readString (raw ++ ascii '"' :: after) = .ok (s, after) := by
        intro after
        rw [readString, hbs, Except.ok_bind]
        simp only [htext]
      exact .inl ⟨s, by rw [textOf?, hread], hread⟩
    | none =>
      have hread : ∀ after, readString (raw ++ ascii '"' :: after) = .error after := by
        intro after
        rw [readString, hbs, Except.ok_bind]
        simp only [htext]
      exact .inr ⟨by rw [textOf?, hread], fun after => ⟨after, hread after, .inl rfl⟩⟩
  · have hread : ∀ after, ∃ rest, readString (raw ++ ascii '"' :: after) = .error rest ∧
        StopsAt after rest := by
      intro after
      obtain ⟨rest, hrest, hplace⟩ := hstop after
      refine ⟨rest, ?_, hplace⟩
      rw [readString, hrest, Except.error_bind]
    refine .inr ⟨?_, hread⟩
    obtain ⟨rest, hrest, -⟩ := hread []
    rw [textOf?, hrest]

/-- Whatever is read as a string is one of the grammar. -/
theorem resolveString_sound {input acc bs rest : Bytes}
    (h : resolveString input acc = .ok (bs, rest)) :
    ∃ raw, StringBody raw ∧ input = raw ++ ascii '"' :: rest := by
  fun_induction resolveString input acc with
  | case2 =>
    cases h
    exact ⟨[], .nil, rfl⟩
  | case11 acc h₁ h₂ h₃ h₄ n hn _ _ c hc d hd k₁ k₂ k₃ k₄ rest m hm _ _ ih =>
    obtain ⟨raw, hraw, rfl⟩ := ih h
    obtain rfl := not_ne_iff.mp hc
    obtain rfl := not_ne_iff.mp hd
    exact ⟨_, .unit (by rw [hn]; rfl) (.unit (by rw [hm]; rfl) hraw), rfl⟩
  | case14 acc h₁ h₂ h₃ h₄ rest n hn _ _ _ ih =>
    obtain ⟨raw, hraw, rfl⟩ := ih h
    exact ⟨_, .unit (by rw [hn]; rfl) hraw, rfl⟩
  | case16 acc e rest _ x hx _ ih =>
    obtain ⟨raw, hraw, rfl⟩ := ih h
    exact ⟨_, .letter (by rw [hx]; rfl) hraw, rfl⟩
  | case19 b rest acc hquote hslash hcontrol ih =>
    obtain ⟨raw, hraw, rfl⟩ := ih h
    exact ⟨_, .plain ⟨UInt8.not_lt.mp hcontrol, hquote, hslash⟩ hraw, rfl⟩
  | _ => cases h

/-- Whatever is read as a string is one of the grammar. -/
theorem readString_sound {input rest : Bytes} {s : String}
    (h : readString input = .ok (s, rest)) :
    ∃ raw, StringBody raw ∧ textOf? raw = some s ∧ input = raw ++ ascii '"' :: rest := by
  have hread := h
  rw [readString] at h
  obtain ⟨⟨bs, after⟩, hresolve, h⟩ := Except.bind_eq_ok_iff.mp h
  obtain ⟨raw, hraw, rfl⟩ := resolveString_sound hresolve
  rcases readString_body hraw with ⟨s', htext, hs'⟩ | ⟨-, hstop⟩
  · rw [hs'] at hread
    obtain ⟨rfl, rfl⟩ := Prod.mk.inj (Except.ok.inj hread)
    exact ⟨raw, hraw, htext, rfl⟩
  · obtain ⟨_, hrest, -⟩ := hstop after
    rw [hrest] at hread
    cases hread

/-- Bytes without escapes are the text that they spell. -/
theorem eq_utf8_of_textOf? {raw : Bytes} (hraw : ∀ b ∈ raw, Unescaped b) {s : String}
    (h : textOf? raw = some s) : raw = utf8 s := by
  have hresolve : resolveString (raw ++ [ascii '"']) [] = .ok (raw, []) := by
    rw [resolveString_plain hraw, resolveString_quote]
    simp
  rw [textOf?, readString, hresolve, Except.ok_bind] at h
  cases htext : raw.text? with
  | none => simp [htext] at h
  | some t =>
    obtain rfl : t = s := by simpa [htext] using h
    exact Bytes.eq_utf8_of_text? htext

/-- A name that is found inside of a string consists of structural bytes, and the reader is inside
of a string behind it. -/
theorem InQuotes.readString_name {input rest : Bytes} {name : String}
    (h : InQuotes (ascii '"' :: input)) (hread : readString input = .ok (name, rest)) :
    (∀ b ∈ utf8 name, isStructural b) ∧ InQuotes rest := by
  obtain ⟨raw, hraw, htext, rfl⟩ := readString_sound hread
  have hbytes : ∀ b ∈ raw, Unescaped b ∧ isStructural b := by
    rw [InQuotes, Mode.run_quoted_quote] at h
    exact hraw.structural_of_run h
  have hrest : InQuotes rest := by
    have hname : Paired (ascii '"' :: (raw ++ [ascii '"'])) := hraw.paired paired_nil
    refine .of_append hname ?_
    rw [List.cons_append, List.append_assoc]
    exact h
  rw [← eq_utf8_of_textOf? (fun b hb => (hbytes b hb).1) htext]
  exact ⟨fun b hb => (hbytes b hb).2, hrest⟩

end BearerAuth.Json
