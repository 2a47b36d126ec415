import Mathlib
import BearerAuth.Json.Lexeme
import BearerAuth.Json.Printer
import BearerAuth.Proofs.Failable
import BearerAuth.Proofs.Utf8

/-!
# Strings of JSON

The bytes that may stand between the quotes of a string, and the round trip of a text: whatever is
quoted is read back, escapes and all.

Main statements: `scanString_of_body` says that the reader takes every string of the grammar, and
`readString_escaped` that quoting loses nothing.
-/

namespace BearerAuth.Json

/-! ### Grammar -/

/-- A byte that stands for itself between quotes. -/
def Unescaped (b : UInt8) : Prop :=
  32 ≤ b ∧ b ≠ ascii '"' ∧ b ≠ ascii '\\'

/-- The bytes between the quotes of a string. -/
inductive StringBody : Bytes → Prop
  | nil : StringBody []
  | plain {b : UInt8} {raw : Bytes} (hb : Unescaped b) (h : StringBody raw) :
      StringBody (b :: raw)
  | letter {e : UInt8} {raw : Bytes} (he : (escapedByte? e).isSome) (h : StringBody raw) :
      StringBody (ascii '\\' :: e :: raw)
  | unit {h₁ h₂ h₃ h₄ : UInt8} {raw : Bytes} (hunit : (hexQuad? h₁ h₂ h₃ h₄).isSome)
      (h : StringBody raw) :
      StringBody (ascii '\\' :: ascii 'u' :: h₁ :: h₂ :: h₃ :: h₄ :: raw)

/-- The letter of a unit of UTF-16 is no letter of an escape. -/
theorem ne_u_of_escapedByte? {e : UInt8} (h : (escapedByte? e).isSome) : e ≠ ascii 'u' := by
  rintro rfl
  revert h
  decide

theorem backslash_ne_quote : ascii '\\' ≠ ascii '"' := by decide

/-- The reader takes every string of the grammar, and stops behind its quote. -/
theorem scanString_of_body {raw : Bytes} (h : StringBody raw) (rest acc : Bytes) :
    scanString (raw ++ ascii '"' :: rest) acc = some (acc.reverse ++ raw, rest) := by
  induction h generalizing acc with
  | nil =>
    rw [List.nil_append, scanString.eq_def, List.append_nil]
    exact if_pos rfl
  | @plain b raw hb _ ih =>
    obtain ⟨hcontrol, hquote, hslash⟩ := hb
    have hlt : ¬ b < 32 := UInt8.not_lt.mpr hcontrol
    rw [List.cons_append, scanString.eq_def]
    simp only [hquote, hslash, hlt, if_false, ih]
    simp
  | @letter e raw he _ ih =>
    rw [List.cons_append, List.cons_append, scanString.eq_def]
    simp only [backslash_ne_quote, ne_u_of_escapedByte? he, he, if_true, if_false, ih]
    simp
  | @unit h₁ h₂ h₃ h₄ raw hunit _ ih =>
    simp only [List.cons_append]
    rw [scanString.eq_def]
    simp only [backslash_ne_quote, hunit, if_true, if_false, ih]
    simp

/-! ### Escapes -/

/-- The bytes that write one character of a string. -/
def escapedChar (c : Char) : Bytes :=
  (escapeChar c).flatMap String.utf8EncodeChar

/-- The bytes between the quotes of a quoted text. -/
def escaped (s : String) : Bytes :=
  s.toList.flatMap escapedChar

theorem utf8_quote (s : String) :
    utf8 (quote s) = ascii '"' :: (escaped s ++ [ascii '"']) := by
  have hquote : String.utf8EncodeChar '"' = [ascii '"'] := utf8EncodeChar_of_lt (by decide)
  rw [quote, utf8_ofList, List.flatMap_append, List.flatMap_cons, List.flatMap_assoc, hquote]
  simp only [List.flatMap_cons, List.flatMap_nil, hquote]
  rfl

/-- No byte of a character that needs no escape has a meaning of its own. -/
theorem unescaped_of_mem_utf8EncodeChar {c : Char} (hcontrol : ¬ c.toNat < 32) (hquote : c ≠ '"')
    (hslash : c ≠ '\\') {b : UInt8} (hb : b ∈ String.utf8EncodeChar c) : Unescaped b := by
  by_cases hascii : c.toNat < 128
  · rw [utf8EncodeChar_of_lt hascii, List.mem_singleton] at hb
    subst hb
    refine ⟨UInt8.le_iff_toNat_le.mpr ?_, ?_, ?_⟩
    · rw [toNat_ascii hascii]
      exact Nat.not_lt.mp hcontrol
    · intro heq
      exact hquote (ascii_injOn hascii (by decide) heq)
    · intro heq
      exact hslash (ascii_injOn hascii (by decide) heq)
  · have hle := le_of_mem_utf8EncodeChar (Nat.not_lt.mp hascii) hb
    refine ⟨UInt8.le_iff_toNat_le.mpr ?_, ?_, ?_⟩
    · exact le_trans (by decide) hle
    · rintro rfl
      exact absurd hle (by decide)
    · rintro rfl
      exact absurd hle (by decide)

/-- The number of a control character is written in four digits, and read back. -/
theorem hexQuad?_hexPair {n : Nat} (h : n < 32) :
    (['\\', 'u', '0', '0'] ++ hexPair n).flatMap String.utf8EncodeChar =
        [ascii '\\', ascii 'u', ascii '0', ascii '0', ascii (Nat.digitChar (n / 16)),
          ascii (Nat.digitChar (n % 16))] ∧
      hexQuad? (ascii '0') (ascii '0') (ascii (Nat.digitChar (n / 16)))
        (ascii (Nat.digitChar (n % 16))) = some n := by
  revert n
  decide

/-- The three ways to write a character: by the letter of an escape, by its number, or by itself. -/
theorem escapedChar_cases (c : Char) :
    (∃ e x, escapedChar c = [ascii '\\', e] ∧ escapedByte? e = some x ∧
      String.utf8EncodeChar c = [x]) ∨
    (∃ h₁ h₂ h₃ h₄ n, escapedChar c = [ascii '\\', ascii 'u', h₁, h₂, h₃, h₄] ∧
      hexQuad? h₁ h₂ h₃ h₄ = some n ∧ n < 32 ∧ Char.ofNat n = c) ∨
    (escapedChar c = String.utf8EncodeChar c ∧ ∀ b ∈ String.utf8EncodeChar c, Unescaped b) := by
  by_cases hquote : c = '"'
  · subst hquote
    exact .inl ⟨ascii '"', ascii '"', by decide, by decide, by decide⟩
  by_cases hslash : c = '\\'
  · subst hslash
    exact .inl ⟨ascii '\\', ascii '\\', by decide, by decide, by decide⟩
  by_cases hbackspace : c = Char.ofNat 8
  · subst hbackspace
    exact .inl ⟨ascii 'b', 8, by decide, by decide, by decide⟩
  by_cases hformFeed : c = Char.ofNat 12
  · subst hformFeed
    exact .inl ⟨ascii 'f', 12, by decide, by decide, by decide⟩
  by_cases hlineFeed : c = '\n'
  · subst hlineFeed
    exact .inl ⟨ascii 'n', 10, by decide, by decide, by decide⟩
  by_cases hreturn : c = '\r'
  · subst hreturn
    exact .inl ⟨ascii 'r', 13, by decide, by decide, by decide⟩
  by_cases htab : c = '\t'
  · subst htab
    exact .inl ⟨ascii 't', 9, by decide, by decide, by decide⟩
  right
  by_cases hcontrol : c.toNat < 32
  · left
    obtain ⟨htext, hread⟩ := hexQuad?_hexPair hcontrol
    refine ⟨_, _, _, _, c.toNat, ?_, hread, hcontrol, Char.ofNat_toNat c⟩
    rw [← htext, escapedChar, escapeChar, if_neg hquote, if_neg hslash, if_neg hbackspace,
      if_neg hformFeed, if_neg hlineFeed, if_neg hreturn, if_neg htab, if_pos hcontrol]
  · right
    have hescape : escapeChar c = [c] := by
      rw [escapeChar, if_neg hquote, if_neg hslash, if_neg hbackspace, if_neg hformFeed,
        if_neg hlineFeed, if_neg hreturn, if_neg htab, if_neg hcontrol]
    refine ⟨by simp [escapedChar, hescape], ?_⟩
    intro b hb
    exact unescaped_of_mem_utf8EncodeChar hcontrol hquote hslash hb

/-- A quoted text is a string of the grammar. -/
theorem stringBody_escaped (s : String) : StringBody (escaped s) := by
  have hplain : ∀ bs raw : Bytes, (∀ b ∈ bs, Unescaped b) → StringBody raw →
      StringBody (bs ++ raw) := by
    intro bs raw hbs hraw
    induction bs with
    | nil => exact hraw
    | cons b bs ih =>
      have htail := ih fun x hx => hbs x (List.mem_cons_of_mem b hx)
      exact .plain (hbs b List.mem_cons_self) htail
  unfold escaped
  induction s.toList with
  | nil => exact .nil
  | cons c cs ih =>
    rw [List.flatMap_cons]
    rcases escapedChar_cases c with ⟨e, x, hc, he, -⟩ | ⟨h₁, h₂, h₃, h₄, n, hc, hn, -, -⟩ |
      ⟨hc, hbytes⟩
    · rw [hc]
      exact .letter (by simp [he]) ih
    · rw [hc]
      exact .unit (by simp [hn]) ih
    · rw [hc]
      exact hplain _ _ hbytes ih

/-! ### Reading what is quoted -/

/-- A string ends with its quote. -/
theorem resolveString_quote (rest acc : Bytes) :
    resolveString (ascii '"' :: rest) acc = .ok (acc.reverse, rest) := by
  rw [resolveString.eq_def]
  exact if_pos rfl

/-- Bytes that need no escape stand for themselves. -/
theorem resolveString_plain {bs : Bytes} (h : ∀ b ∈ bs, Unescaped b) (rest acc : Bytes) :
    resolveString (bs ++ rest) acc = resolveString rest (bs.reverse ++ acc) := by
  induction bs generalizing acc with
  | nil => rfl
  | cons b bs ih =>
    obtain ⟨hb, hquote, hslash⟩ := h b List.mem_cons_self
    have hlt : ¬ b < 32 := UInt8.not_lt.mpr hb
    rw [List.cons_append, resolveString.eq_def]
    simp only [hquote, hslash, hlt, if_false]
    rw [ih fun x hx => h x (List.mem_cons_of_mem b hx), List.reverse_cons, List.append_assoc]
    rfl

/-- An escape of one letter stands for its byte. -/
theorem resolveString_letter {e x : UInt8} (h : escapedByte? e = some x) (rest acc : Bytes) :
    resolveString (ascii '\\' :: e :: rest) acc = resolveString rest (x :: acc) := by
  have hu : e ≠ ascii 'u' := ne_u_of_escapedByte? (by rw [h]; rfl)
  rw [resolveString.eq_def]
  simp only [backslash_ne_quote, hu, h, if_true, if_false]

section Units

variable {h₁ h₂ h₃ h₄ : UInt8} {n : Nat}

/-- A unit of UTF-16 that is no half of a pair stands for its character. -/
theorem resolveString_unit (h : hexQuad? h₁ h₂ h₃ h₄ = some n)
    (htrail : isTrailingSurrogate n = false) (hlead : isLeadingSurrogate n = false)
    (rest acc : Bytes) :
    resolveString (ascii '\\' :: ascii 'u' :: h₁ :: h₂ :: h₃ :: h₄ :: rest) acc =
      resolveString rest ((String.utf8EncodeChar (Char.ofNat n)).reverse ++ acc) := by
  rw [resolveString.eq_def]
  simp only [backslash_ne_quote, h, htrail, hlead, if_true, if_false, Bool.false_eq_true]

/-- The second half of a pair does not stand alone. -/
theorem resolveString_trailing (h : hexQuad? h₁ h₂ h₃ h₄ = some n)
    (htrail : isTrailingSurrogate n) (rest acc : Bytes) :
    resolveString (ascii '\\' :: ascii 'u' :: h₁ :: h₂ :: h₃ :: h₄ :: rest) acc = .error rest := by
  rw [resolveString.eq_def]
  simp only [backslash_ne_quote, h, htrail, if_true, if_false]

end Units

/-- Whatever way a character is written, it is read back. -/
theorem resolveString_escapedChar (c : Char) (rest acc : Bytes) :
    resolveString (escapedChar c ++ rest) acc =
      resolveString rest ((String.utf8EncodeChar c).reverse ++ acc) := by
  rcases escapedChar_cases c with ⟨e, x, hc, he, hx⟩ | ⟨h₁, h₂, h₃, h₄, n, hc, hn, hlt, rfl⟩ |
    ⟨hc, hbytes⟩
  · rw [hc, hx]
    exact resolveString_letter he rest acc
  · have htrail : isTrailingSurrogate n = false := by
      simp only [isTrailingSurrogate, Bool.and_eq_false_iff, decide_eq_false_iff_not]
      omega
    have hlead : isLeadingSurrogate n = false := by
      simp only [isLeadingSurrogate, Bool.and_eq_false_iff, decide_eq_false_iff_not]
      omega
    rw [hc]
    exact resolveString_unit hn htrail hlead rest acc
  · rw [hc, resolveString_plain hbytes]

/-- The reading of a quoted text ends behind its closing quote. -/
theorem resolveString_escaped (s : String) (rest acc : Bytes) :
    resolveString (escaped s ++ ascii '"' :: rest) acc = .ok (acc.reverse ++ utf8 s, rest) := by
  rw [utf8_eq_flatMap]
  unfold escaped
  induction s.toList generalizing acc with
  | nil =>
    rw [List.flatMap_nil, List.flatMap_nil, List.nil_append, List.append_nil, resolveString_quote]
  | cons c cs ih =>
    rw [List.flatMap_cons, List.append_assoc, resolveString_escapedChar, ih]
    simp

/-- Quoting loses nothing. -/
theorem readString_escaped (s : String) (rest : Bytes) :
    readString (escaped s ++ ascii '"' :: rest) = .ok (s, rest) := by
  rw [readString, resolveString_escaped, Except.ok_bind]
  simp [Bytes.text?_utf8]

@[simp] theorem textOf?_escaped (s : String) : textOf? (escaped s) = some s := by
  rw [textOf?, readString_escaped]

end BearerAuth.Json
