import Mathlib
import BearerAuth.Proofs.Json.Grammar

/-!
# What the reader of JSON accepts

Whatever is read to its end is spelled by the bytes that were consumed.  The lexemes come first:
white space, words, numbers in their parts, and strings.  The three readers that call each other
follow, by one induction on the number that bounds their recursion.

Main statement: `ofBytes_eq_whole_iff` says that the texts that are read without a cut are exactly
those that the grammar provides.
-/

namespace BearerAuth.Json

/-! ### White space and words -/

/-- The white space in front is what is dropped. -/
theorem exists_blank_skipBlank (input : Bytes) :
    ∃ w, Blank w ∧ input = w ++ skipBlank input := by
  refine ⟨input.takeWhile isBlank, ?_, ?_⟩
  · intro b hb
    exact List.mem_takeWhile_imp hb
  · exact List.takeWhile_append_dropWhile.symm

/-- A text that holds something behind its white space falls apart there. -/
theorem exists_blank_of_skipBlank {input rest : Bytes} {c : UInt8}
    (h : skipBlank input = c :: rest) : ∃ w, Blank w ∧ input = w ++ c :: rest := by
  obtain ⟨w, hw, hinput⟩ := exists_blank_skipBlank input
  rw [h] at hinput
  exact ⟨w, hw, hinput⟩

/-- White space is dropped to its end. -/
theorem isBlank_of_skipBlank {input rest : Bytes} {c : UInt8}
    (h : skipBlank input = c :: rest) : isBlank c = false := by
  have hhead := List.head?_dropWhile_not isBlank input
  rw [skipBlank] at h
  rw [h] at hhead
  exact hhead

/-- A word that is found stands in front. -/
theorem eq_append_of_scanWord {word input rest : Bytes} (h : scanWord word input = .ok rest) :
    input = word ++ rest := by
  induction word generalizing input with
  | nil =>
    rw [scanWord] at h
    exact Except.ok.inj h
  | cons w word ih =>
    cases input with
    | nil => cases h
    | cons b input =>
      rw [scanWord] at h
      split at h
      · rename_i hb
        rw [hb, ih h]
        rfl
      · cases h

/-! ### Numbers -/

/-- A digit is written by its value. -/
theorem digitByte_digitValue {b : UInt8} (h : isDigit b) :
    digitValue b < 10 ∧ digitByte (digitValue b) = b := by
  simp only [isDigit, Bool.and_eq_true, decide_eq_true_eq, UInt8.le_iff_toNat_le] at h
  have hzero : (ascii '0').toNat = 48 := by decide
  have hnine : (ascii '9').toNat = 57 := by decide
  rw [hzero, hnine] at h
  have hvalue : 48 + digitValue b = b.toNat := by
    rw [digitValue]
    omega
  refine ⟨by rw [digitValue]; omega, ?_⟩
  rw [digitByte, hvalue, UInt8.ofNat_toNat]

/-- The digits that are taken stand in front. -/
theorem takeDigits_sound {input rest : Bytes} {ds : List Nat}
    (h : takeDigits input = (ds, rest)) :
    (∀ d ∈ ds, d < 10) ∧ input = ds.map digitByte ++ rest := by
  obtain ⟨rfl, rfl⟩ := Prod.mk.inj h
  have hdigit : ∀ b ∈ input.takeWhile isDigit, isDigit b := by
    intro b hb
    exact List.mem_takeWhile_imp hb
  have hbytes : ((input.takeWhile isDigit).map digitValue).map digitByte =
      input.takeWhile isDigit := by
    rw [List.map_map]
    conv_rhs => rw [← List.map_id (input.takeWhile isDigit)]
    exact List.map_congr_left fun b hb => (digitByte_digitValue (hdigit b hb)).2
  constructor
  · intro d hd
    obtain ⟨b, hb, rfl⟩ := List.mem_map.mp hd
    exact (digitByte_digitValue (hdigit b hb)).1
  · rw [hbytes, List.takeWhile_append_dropWhile]

/-- A whole part that is read stands in front. -/
theorem scanWhole_sound {input rest : Bytes} {ds : List Nat}
    (h : scanWhole input = .ok (ds, rest)) :
    WholeDigits ds ∧ input = ds.map digitByte ++ rest := by
  cases input with
  | nil => cases h
  | cons b input =>
    rw [scanWhole] at h
    split at h
    · rename_i hzero
      split at h
      · cases h
      · cases h
        refine ⟨⟨by simp, by simp, fun _ => rfl⟩, ?_⟩
        rw [hzero]
        rfl
    · rename_i hzero
      split at h
      · rename_i hb
        rcases htake : takeDigits input with ⟨tail, behind⟩
        rw [htake] at h
        cases h
        obtain ⟨hlt, hbyte⟩ := digitByte_digitValue hb
        obtain ⟨hdigits, hinput⟩ := takeDigits_sound htake
        refine ⟨⟨?_, by simp, ?_⟩, ?_⟩
        · intro d hd
          rcases List.mem_cons.mp hd with rfl | hd
          · exact hlt
          · exact hdigits d hd
        · intro hhead
          have hvalue : digitValue b = 0 := Option.some.inj hhead
          rw [(digitByte_eq_zero_iff hlt).mpr hvalue] at hbyte
          exact absurd hbyte.symm hzero
        · rw [List.map_cons, hbyte, List.cons_append, ← hinput]
      · cases h

/-- A fraction that is read stands in front. -/
theorem scanFraction_sound {input rest : Bytes} {ds : List Nat}
    (h : scanFraction input = .ok (ds, rest)) :
    (∀ d ∈ ds, d < 10) ∧ input = fractionBytes ds ++ rest := by
  cases input with
  | nil =>
    cases h
    exact ⟨by simp, rfl⟩
  | cons b input =>
    rw [scanFraction] at h
    split at h
    · rename_i hdot
      rcases htake : takeDigits input with ⟨digits, behind⟩
      rw [htake] at h
      obtain ⟨hdigits, hinput⟩ := takeDigits_sound htake
      cases digits with
      | nil => cases h
      | cons d digits =>
        cases h
        exact ⟨hdigits, by rw [fractionBytes, hdot, List.cons_append, ← hinput]⟩
    · cases h
      exact ⟨by simp, rfl⟩

/-- The sign of an exponent stands in front of it. -/
theorem scanSign_sound {input rest : Bytes} {negative : Bool}
    (h : scanSign input = (negative, rest)) :
    ∃ sign,
      (sign = (if negative then [ascii '-'] else []) ∨ negative = false ∧ sign = [ascii '+']) ∧
      input = sign ++ rest := by
  cases input with
  | nil =>
    cases h
    exact ⟨[], .inl rfl, rfl⟩
  | cons b input =>
    rw [scanSign] at h
    split at h
    · rename_i hminus
      cases h
      exact ⟨[ascii '-'], .inl rfl, by rw [hminus]; rfl⟩
    · split at h
      · rename_i hplus
        cases h
        exact ⟨[ascii '+'], .inr ⟨rfl, rfl⟩, by rw [hplus]; rfl⟩
      · cases h
        exact ⟨[], .inl rfl, rfl⟩

/-- An exponent that is read stands in front. -/
theorem scanExponent_sound {input rest : Bytes} {x : Option (Bool × List Nat)}
    (h : scanExponent input = .ok (x, rest)) :
    ∃ e, ExponentSpells x e ∧ input = e ++ rest := by
  cases input with
  | nil =>
    cases h
    exact ⟨[], .none, rfl⟩
  | cons b input =>
    rw [scanExponent] at h
    split at h
    · rename_i hletter
      rcases hsign : scanSign input with ⟨negative, digits⟩
      rw [hsign] at h
      obtain ⟨sign, hspells, hinput⟩ := scanSign_sound hsign
      cases digits with
      | nil => cases h
      | cons d digits =>
        dsimp only at h
        split at h
        · rename_i hd
          rcases htake : takeDigits digits with ⟨tail, behind⟩
          rw [htake] at h
          cases h
          obtain ⟨hlt, hbyte⟩ := digitByte_digitValue hd
          obtain ⟨hdigits, hbehind⟩ := takeDigits_sound htake
          have hall : ∀ d' ∈ digitValue d :: tail, d' < 10 := by
            intro d' hd'
            rcases List.mem_cons.mp hd' with rfl | hd'
            · exact hlt
            · exact hdigits d' hd'
          refine ⟨_, .some hall (List.cons_ne_nil _ _) hletter hspells, ?_⟩
          rw [hinput, List.map_cons, hbyte, List.append_assoc, List.cons_append, List.cons_append,
            ← hbehind]
        · cases h
    · cases h
      exact ⟨[], .none, rfl⟩

/-- A number that is read is spelled by the bytes that were consumed. -/
theorem scanNumber_sound {input rest : Bytes} {n : Number}
    (h : scanNumber input = .ok (n, rest)) : ∃ b, n.Spells b ∧ input = b ++ rest := by
  unfold scanNumber at h
  obtain ⟨⟨whole, behindWhole⟩, hscanWhole, h⟩ := Except.bind_eq_ok_iff.mp h
  obtain ⟨⟨fraction, behindFraction⟩, hscanFraction, h⟩ := Except.bind_eq_ok_iff.mp h
  obtain ⟨⟨exponent, behindExponent⟩, hscanExponent, h⟩ := Except.bind_eq_ok_iff.mp h
  cases h
  obtain ⟨hwhole, heqWhole⟩ := scanWhole_sound hscanWhole
  obtain ⟨hfraction, heqFraction⟩ := scanFraction_sound hscanFraction
  obtain ⟨e, hexponent, heqExponent⟩ := scanExponent_sound hscanExponent
  refine ⟨_, ⟨hwhole, hfraction, e, hexponent, rfl⟩, ?_⟩
  dsimp only at heqWhole heqFraction heqExponent ⊢
  rw [heqFraction, heqExponent] at heqWhole
  by_cases hsign : input.head? = some (ascii '-')
  · obtain ⟨tail, rfl⟩ := List.head?_eq_some_iff.mp hsign
    simp only [hsign, decide_true, if_true, List.tail_cons] at heqWhole ⊢
    rw [heqWhole]
    simp
  · simp only [hsign, decide_false, Bool.false_eq_true, if_false] at heqWhole ⊢
    rw [heqWhole]
    simp

/-! ### Strings -/

/-- What is taken of a string up to its quote is a string of the grammar. -/
theorem scanString_sound {input acc raw behind : Bytes}
    (h : scanString input acc = some (raw, behind)) :
    ∃ body, StringBody body ∧ raw = acc.reverse ++ body ∧ input = body ++ ascii '"' :: behind := by
  fun_induction scanString input acc with
  | case1 => cases h
  | case2 =>
    cases h
    exact ⟨[], .nil, (List.append_nil _).symm, rfl⟩
  | case3 => cases h
  | case4 acc h₁ h₂ h₃ h₄ rest hunit _ ih =>
    obtain ⟨body, hbody, rfl, rfl⟩ := ih h
    exact ⟨_, .unit hunit hbody, by simp, rfl⟩
  | case5 => cases h
  | case6 => cases h
  | case7 acc e rest _ he _ ih =>
    obtain ⟨body, hbody, rfl, rfl⟩ := ih h
    exact ⟨_, .letter he hbody, by simp, rfl⟩
  | case8 => cases h
  | case9 => cases h
  | case10 b rest acc hquote hslash hcontrol ih =>
    obtain ⟨body, hbody, rfl, rfl⟩ := ih h
    have hb : Unescaped b := ⟨UInt8.not_lt.mp hcontrol, hquote, hslash⟩
    exact ⟨_, .plain hb hbody, by simp, rfl⟩

/-! ### Values -/

/-- What the three readers accept within a bound is spelled by the bytes that they consume. -/
structure SoundUpTo (fuel : Nat) : Prop where
  value {input rest : Bytes} {v : Value} : readValueAux fuel input = (v, some rest) →
    ∃ w b, Blank w ∧ v.Spells b ∧ input = w ++ (b ++ rest)
  elements {input rest : Bytes} {es : Elements} : readElements fuel input = (es, some rest) →
    ∃ b, es.Spells b ∧ input = b ++ rest
  members {input rest : Bytes} {ms : Members} : readMembers fuel input = (ms, some rest) →
    ∃ b, ms.Spells b ∧ input = b ++ rest

namespace SoundUpTo

/-- Within no bound nothing is accepted. -/
theorem zero : SoundUpTo 0 where
  value h := by cases h
  elements h := by cases h
  members h := by cases h

variable {fuel : Nat}

/-- The elements of an array, one call deeper. -/
theorem elements_succ (ih : SoundUpTo fuel) {input rest : Bytes} {es : Elements}
    (h : readElements (fuel + 1) input = (es, some rest)) :
    ∃ b, es.Spells b ∧ input = b ++ rest := by
  rw [readElements] at h
  split at h
  · cases h
  rename_i v behind hv
  obtain ⟨w, b, hw, hspells, hinput⟩ := ih.value hv
  split at h
  · cases h
  rename_i c after hskip
  obtain ⟨w', hw', hbehind⟩ := exists_blank_of_skipBlank hskip
  rw [hbehind] at hinput
  split at h
  · rename_i hcomma
    rcases hmore : readElements fuel after with ⟨es', rest'⟩
    rw [hmore] at h
    cases h
    obtain ⟨tail, hes, hafter⟩ := ih.elements hmore
    exact ⟨_, .more hw hspells hw' hes, by rw [hinput, hcomma, hafter]; simp⟩
  · split at h
    · rename_i hbracket
      cases h
      exact ⟨_, .last hw hspells hw', by rw [hinput, hbracket]; simp⟩
    · cases h

/-- The members of an object, one call deeper. -/
theorem members_succ (ih : SoundUpTo fuel) {input rest : Bytes} {ms : Members}
    (h : readMembers (fuel + 1) input = (ms, some rest)) :
    ∃ b, ms.Spells b ∧ input = b ++ rest := by
  rw [readMembers] at h
  -- A quote, the name with its own quote, a colon and a value, and then what ends the member.
  split at h
  · cases h
  rename_i q behindQuote hskipQuote
  obtain ⟨w, hw, hinput⟩ := exists_blank_of_skipBlank hskipQuote
  split at h
  on_goal 2 => cases h
  rename_i hquote
  split at h
  · cases h
  rename_i name behindName hname
  obtain ⟨body, hbody, rfl, hbehindQuote⟩ := scanString_sound hname
  split at h
  · cases h
  rename_i colon behindColon hskipColon
  obtain ⟨w', hw', hbehindName⟩ := exists_blank_of_skipBlank hskipColon
  split at h
  on_goal 2 => cases h
  rename_i hcolon
  split at h
  · cases h
  rename_i v behind hv
  obtain ⟨u, b, hu, hspells, hbehindColon⟩ := ih.value hv
  split at h
  · cases h
  rename_i c after hskip
  obtain ⟨w'', hw'', hbehind⟩ := exists_blank_of_skipBlank hskip
  rw [hquote, hbehindQuote, hbehindName, hcolon, hbehindColon, hbehind] at hinput
  split at h
  · rename_i hcomma
    rcases hmore : readMembers fuel after with ⟨ms', rest'⟩
    rw [hmore] at h
    cases h
    obtain ⟨tail, hms, hafter⟩ := ih.members hmore
    exact ⟨_, .more hw hbody hw' hu hspells hw'' hms, by rw [hinput, hcomma, hafter]; simp⟩
  · split at h
    · rename_i hbrace
      cases h
      exact ⟨_, .last hw hbody hw' hu hspells hw'', by rw [hinput, hbrace]; simp⟩
    · cases h

/-- A value that no white space precedes, one call deeper. -/
theorem front_succ (ih : SoundUpTo fuel) {c : UInt8} {tail rest : Bytes} {v : Value}
    (hc : isBlank c = false) (h : readValueAux (fuel + 1) (c :: tail) = (v, some rest)) :
    ∃ b, v.Spells b ∧ c :: tail = b ++ rest := by
  rw [readValueAux, skipBlank_cons hc] at h
  dsimp only at h
  split at h
  · rename_i hquote
    split at h
    · rename_i raw behind hraw
      cases h
      obtain ⟨body, hbody, rfl, rfl⟩ := scanString_sound hraw
      exact ⟨_, .string hbody, by rw [hquote]; simp⟩
    · cases h
  split at h
  · rename_i hbracket
    split at h
    · cases h
    rename_i d after hskip
    split at h
    · rename_i hclose
      cases h
      obtain ⟨w, hw, rfl⟩ := exists_blank_of_skipBlank hskip
      exact ⟨_, .emptyArray hw, by rw [hbracket, hclose]; simp⟩
    · rcases hmore : readElements fuel tail with ⟨es, rest'⟩
      rw [hmore] at h
      cases h
      obtain ⟨b, hes, rfl⟩ := ih.elements hmore
      exact ⟨_, .array hes, by rw [hbracket]; rfl⟩
  split at h
  · rename_i hbrace
    split at h
    · cases h
    rename_i d after hskip
    split at h
    · rename_i hclose
      cases h
      obtain ⟨w, hw, rfl⟩ := exists_blank_of_skipBlank hskip
      exact ⟨_, .emptyObject hw, by rw [hbrace, hclose]; simp⟩
    · rcases hmore : readMembers fuel tail with ⟨ms, rest'⟩
      rw [hmore] at h
      cases h
      obtain ⟨b, hms, rfl⟩ := ih.members hmore
      exact ⟨_, .object hms, by rw [hbrace]; rfl⟩
  -- The words, and what is left is a number.
  split at h
  · rename_i hn
    split at h
    · rename_i behind hword
      cases h
      exact ⟨_, .null, by rw [hn, eq_append_of_scanWord hword]; rfl⟩
    · cases h
  split at h
  · rename_i ht
    split at h
    · rename_i behind hword
      cases h
      exact ⟨_, .bool true, by rw [ht, eq_append_of_scanWord hword]; rfl⟩
    · cases h
  split at h
  · rename_i hf
    split at h
    · rename_i behind hword
      cases h
      exact ⟨_, .bool false, by rw [hf, eq_append_of_scanWord hword]; rfl⟩
    · cases h
  split at h
  · rename_i n behind hscan
    cases h
    obtain ⟨b, hspells, heq⟩ := scanNumber_sound hscan
    exact ⟨b, .number hspells, heq⟩
  · cases h

/-- A value, one call deeper. -/
theorem value_succ (ih : SoundUpTo fuel) {input rest : Bytes} {v : Value}
    (h : readValueAux (fuel + 1) input = (v, some rest)) :
    ∃ w b, Blank w ∧ v.Spells b ∧ input = w ++ (b ++ rest) := by
  cases hskip : skipBlank input with
  | nil =>
    rw [readValueAux, hskip] at h
    cases h
  | cons c tail =>
    have hc := isBlank_of_skipBlank hskip
    obtain ⟨w, hw, rfl⟩ := exists_blank_of_skipBlank hskip
    rw [readValueAux_blank hw] at h
    obtain ⟨b, hspells, heq⟩ := ih.front_succ hc h
    exact ⟨w, b, hw, hspells, by rw [heq]⟩

end SoundUpTo

/-- Whatever the bound, what is accepted is spelled by what was consumed. -/
theorem soundUpTo (fuel : Nat) : SoundUpTo fuel := by
  induction fuel with
  | zero => exact .zero
  | succ fuel ih => exact ⟨ih.value_succ, ih.elements_succ, ih.members_succ⟩

/-! ### Documents -/

mutual

/-- Nothing is cut off from a value that is spelled. -/
theorem Value.Spells.whole {v : Value} {b : Bytes} (h : v.Spells b) : v.whole := by
  cases h with
  | null | bool | number | string | emptyArray | emptyObject => rfl
  | array hes => exact hes.whole
  | object hms => exact hms.whole

theorem Elements.Spells.whole {es : Elements} {b : Bytes} (h : es.Spells b) : es.whole := by
  cases h with
  | last hw hv hw' => exact Bool.and_eq_true_iff.mpr ⟨hv.whole, rfl⟩
  | more hw hv hw' hrest => exact Bool.and_eq_true_iff.mpr ⟨hv.whole, hrest.whole⟩

theorem Members.Spells.whole {ms : Members} {b : Bytes} (h : ms.Spells b) : ms.whole := by
  cases h with
  | last hw hname hw' hu hv hw'' => exact Bool.and_eq_true_iff.mpr ⟨hv.whole, rfl⟩
  | more hw hname hw' hu hv hw'' hrest => exact Bool.and_eq_true_iff.mpr ⟨hv.whole, hrest.whole⟩

end

/-- The bytes spell a value, with nothing but white space around it. -/
def Value.SpellsDocument (v : Value) (input : Bytes) : Prop :=
  ∃ w b w', Blank w ∧ v.Spells b ∧ Blank w' ∧ input = w ++ (b ++ w')

/-- A document is read to its end exactly if the grammar provides it, and as the value that it
spells. -/
theorem ofBytes_eq_whole_iff {input : Bytes} {v : Value} :
    Document.ofBytes input = ⟨v, true⟩ ↔ v.SpellsDocument input := by
  constructor
  · intro h
    unfold Document.ofBytes at h
    split at h
    · cases h
    · rename_i found rest hread
      obtain ⟨rfl, hrest⟩ := Document.mk.inj h
      obtain ⟨w, b, hw, hspells, hinput⟩ := (soundUpTo _).value hread
      obtain ⟨w', hw', hbehind⟩ := exists_blank_skipBlank rest
      rw [List.isEmpty_iff.mp hrest, List.append_nil] at hbehind
      rw [hbehind] at hinput
      exact ⟨w, b, w', hw, hspells, hw', hinput⟩
  · rintro ⟨w, b, w', hw, hspells, hw', rfl⟩
    exact ofBytes_of_spells hw hspells hw'

end BearerAuth.Json
