import Mathlib
import BearerAuth.Json.Parser
import BearerAuth.Proofs.Json.Number
import BearerAuth.Proofs.Json.Text

/-!
# The grammar of JSON

Which texts spell which values, and that the reader finds the value that a text spells.  The reader
bounds its recursion by a number; the length of the text suffices, because every call that needs a
smaller bound has consumed a byte.

Main statements: `readValue_of_spells`, and for whole texts `ofBytes_of_spells`.
-/

namespace BearerAuth.Json

/-! ### White space -/

/-- Nothing but white space. -/
def Blank (w : Bytes) : Prop :=
  ∀ b ∈ w, isBlank b

theorem blank_nil : Blank [] := by
  intro b hb
  cases hb

/-- White space in front of anything is dropped. -/
theorem skipBlank_append {w : Bytes} (h : Blank w) (rest : Bytes) :
    skipBlank (w ++ rest) = skipBlank rest :=
  List.dropWhile_append_of_pos h

theorem skipBlank_cons {b : UInt8} (h : isBlank b = false) (rest : Bytes) :
    skipBlank (b :: rest) = b :: rest := by
  simp [skipBlank, h]

theorem skipBlank_of_blank {w : Bytes} (h : Blank w) : skipBlank w = [] := by
  have := skipBlank_append h []
  rwa [List.append_nil] at this

/-- No number goes on with white space. -/
theorem isNumberByte_of_isBlank {c : UInt8} (h : isBlank c) : isNumberByte c = false := by
  simp only [isBlank, Bool.or_eq_true, decide_eq_true_eq] at h
  rcases h with ((rfl | rfl) | rfl) | rfl <;> decide

theorem stops_of_blank {w : Bytes} (h : Blank w) : Stops w := by
  cases w with
  | nil => exact stops_nil
  | cons c w => exact stops_cons (isNumberByte_of_isBlank (h c List.mem_cons_self))

/-- A number ends in front of white space and the byte behind it. -/
theorem stops_blank_append {w : Bytes} (h : Blank w) {b : UInt8} {rest : Bytes}
    (hb : isNumberByte b = false) : Stops (w ++ b :: rest) := by
  cases w with
  | nil => exact stops_cons hb
  | cons c w => exact stops_cons (isNumberByte_of_isBlank (h c List.mem_cons_self))

/-! ### Grammar -/

mutual

/-- The bytes spell a value. -/
inductive Value.Spells : Value → Bytes → Prop
  | null : Value.Spells .null (utf8 "null")
  | bool (b : Bool) : Value.Spells (.bool b) (utf8 (if b then "true" else "false"))
  | number {n : Number} {b : Bytes} (h : n.Spells b) : Value.Spells (.number n) b
  | string {raw : Bytes} (h : StringBody raw) :
      Value.Spells (.string raw) (ascii '"' :: (raw ++ [ascii '"']))
  | emptyArray {w : Bytes} (hw : Blank w) :
      Value.Spells (.array .closed) (ascii '[' :: (w ++ [ascii ']']))
  | array {es : Elements} {b : Bytes} (h : Elements.Spells es b) :
      Value.Spells (.array es) (ascii '[' :: b)
  | emptyObject {w : Bytes} (hw : Blank w) :
      Value.Spells (.object .closed) (ascii '\x7b' :: (w ++ [ascii '\x7d']))
  | object {ms : Members} {b : Bytes} (h : Members.Spells ms b) :
      Value.Spells (.object ms) (ascii '\x7b' :: b)

/-- The bytes spell the elements of an array, of which there is one, and its closing bracket. -/
inductive Elements.Spells : Elements → Bytes → Prop
  | last {v : Value} {w b w' : Bytes} (hw : Blank w) (hv : Value.Spells v b) (hw' : Blank w') :
      Elements.Spells (.cons v .closed) (w ++ (b ++ (w' ++ [ascii ']'])))
  | more {v : Value} {es : Elements} {w b w' rest : Bytes} (hw : Blank w) (hv : Value.Spells v b)
      (hw' : Blank w') (hrest : Elements.Spells es rest) :
      Elements.Spells (.cons v es) (w ++ (b ++ (w' ++ ascii ',' :: rest)))

/-- The bytes spell the members of an object, of which there is one, and its closing brace. -/
inductive Members.Spells : Members → Bytes → Prop
  | last {name : Bytes} {v : Value} {w w' b w'' : Bytes} (hw : Blank w) (hname : StringBody name)
      (hw' : Blank w') {u : Bytes} (hu : Blank u) (hv : Value.Spells v b) (hw'' : Blank w'') :
      Members.Spells (.cons name v .closed) (w ++ ascii '"' :: (name ++ ascii '"' ::
        (w' ++ ascii ':' :: (u ++ (b ++ (w'' ++ [ascii '\x7d']))))))
  | more {name : Bytes} {v : Value} {ms : Members} {w w' b w'' rest : Bytes} (hw : Blank w)
      (hname : StringBody name) (hw' : Blank w') {u : Bytes} (hu : Blank u)
      (hv : Value.Spells v b) (hw'' : Blank w'') (hrest : Members.Spells ms rest) :
      Members.Spells (.cons name v ms) (w ++ ascii '"' :: (name ++ ascii '"' ::
        (w' ++ ascii ':' :: (u ++ (b ++ (w'' ++ ascii ',' :: rest))))))

end

/-- A number starts with its sign or a digit. -/
theorem Number.Spells.head {n : Number} {b : Bytes} (h : n.Spells b) :
    ∃ c rest, b = c :: rest ∧ (c = ascii '-' ∨ isDigit c) := by
  obtain ⟨hwhole, -, e, -, rfl⟩ := h
  cases hsign : n.negative with
  | true => exact ⟨ascii '-', _, rfl, .inl rfl⟩
  | false =>
    cases hdigits : n.whole with
    | nil => exact absurd hdigits hwhole.ne_nil
    | cons d ds =>
      have hd : d < 10 := hwhole.lt d (by simp [hdigits])
      exact ⟨digitByte d, _, rfl, .inr (isDigit_digitByte hd)⟩

/-- A value starts with a byte that neither is white space nor closes an array. -/
theorem Value.Spells.head {v : Value} {b : Bytes} (h : v.Spells b) :
    ∃ c rest, b = c :: rest ∧ isBlank c = false ∧ c ≠ ascii ']' := by
  have hdigit : ∀ c, isDigit c → isBlank c = false ∧ c ≠ ascii ']' := by
    intro c hc
    refine ⟨?_, ne_of_isDigit hc rfl⟩
    simp only [isBlank, Bool.or_eq_false_iff, decide_eq_false_iff_not]
    exact ⟨⟨⟨ne_of_isDigit hc rfl, ne_of_isDigit hc rfl⟩, ne_of_isDigit hc rfl⟩,
      ne_of_isDigit hc rfl⟩
  cases h with
  | null => exact ⟨ascii 'n', _, rfl, by decide, by decide⟩
  | bool b =>
    cases b
    · exact ⟨ascii 'f', _, rfl, by decide, by decide⟩
    · exact ⟨ascii 't', _, rfl, by decide, by decide⟩
  | number hn =>
    obtain ⟨c, rest, heq, rfl | hc⟩ := hn.head
    · exact ⟨ascii '-', rest, heq, by decide, by decide⟩
    · exact ⟨c, rest, heq, hdigit c hc⟩
  | string => exact ⟨ascii '"', _, rfl, by decide, by decide⟩
  | emptyArray => exact ⟨ascii '[', _, rfl, by decide, by decide⟩
  | array => exact ⟨ascii '[', _, rfl, by decide, by decide⟩
  | emptyObject => exact ⟨ascii '\x7b', _, rfl, by decide, by decide⟩
  | object => exact ⟨ascii '\x7b', _, rfl, by decide, by decide⟩

/-! ### Reading -/

/-- White space in front of a value does not matter. -/
theorem readValueAux_blank {w : Bytes} (h : Blank w) (fuel : Nat) (input : Bytes) :
    readValueAux fuel (w ++ input) = readValueAux fuel input := by
  cases fuel with
  | zero => rfl
  | succ fuel => rw [readValueAux, readValueAux, skipBlank_append h]

/-- The words of JSON are read. -/
theorem readValueAux_word (fuel : Nat) (rest : Bytes) :
    readValueAux (fuel + 1) (utf8 "null" ++ rest) = (.null, some rest) ∧
      ∀ b : Bool, readValueAux (fuel + 1) (utf8 (if b then "true" else "false") ++ rest) =
        (.bool b, some rest) := by
  refine ⟨rfl, fun b => ?_⟩
  cases b <;> rfl

/-- Strings of the grammar are read. -/
theorem readValueAux_string {raw : Bytes} (h : StringBody raw) (fuel : Nat) (rest : Bytes) :
    readValueAux (fuel + 1) (ascii '"' :: (raw ++ ascii '"' :: rest)) =
      (.string raw, some rest) := by
  rw [readValueAux, skipBlank_cons (by decide)]
  simp only [if_true, scanString_of_body h, List.reverse_nil, List.nil_append]

/-- Numbers of the grammar are read. -/
theorem readValueAux_number {n : Number} {b : Bytes} (h : n.Spells b) (fuel : Nat)
    {rest : Bytes} (hrest : Stops rest) :
    readValueAux (fuel + 1) (b ++ rest) = (.number n, some rest) := by
  have hscan := scanNumber_of_spells h hrest
  obtain ⟨c, tail, rfl, hc⟩ := h.head
  have hblank : isBlank c = false := by
    obtain ⟨d, _, heq, hd, -⟩ := (Value.Spells.number h).head
    rw [(List.cons.inj heq).1]
    exact hd
  -- no other value starts like a number
  have hother : ∀ d, isDigit d = false → d ≠ ascii '-' → c ≠ d := by
    intro d hd hminus
    rcases hc with rfl | hc
    · exact hminus.symm
    · exact ne_of_isDigit hc hd
  rw [List.cons_append] at hscan ⊢
  rw [readValueAux, skipBlank_cons hblank]
  simp only [hother (ascii '"') (by decide) (by decide), hother (ascii '[') (by decide) (by decide),
    hother (ascii '\x7b') (by decide) (by decide), hother (ascii 'n') (by decide) (by decide),
    hother (ascii 't') (by decide) (by decide), hother (ascii 'f') (by decide) (by decide),
    if_false, hscan]

/-- An array that is closed at once has no elements. -/
theorem readValueAux_emptyArray {w : Bytes} (hw : Blank w) (fuel : Nat) (rest : Bytes) :
    readValueAux (fuel + 1) (ascii '[' :: (w ++ ascii ']' :: rest)) =
      (.array .closed, some rest) := by
  rw [readValueAux, skipBlank_cons (by decide)]
  simp only [skipBlank_append hw, skipBlank_cons (show isBlank (ascii ']') = false by decide)]
  rfl

/-- Any other array is read by reading its elements. -/
theorem readValueAux_array {w : Bytes} (hw : Blank w) {c : UInt8} (hblank : isBlank c = false)
    (hc : c ≠ ascii ']') (fuel : Nat) (input : Bytes) :
    readValueAux (fuel + 1) (ascii '[' :: (w ++ c :: input)) =
      (.array (readElements fuel (w ++ c :: input)).1,
        (readElements fuel (w ++ c :: input)).2) := by
  rw [readValueAux, skipBlank_cons (by decide)]
  simp only [skipBlank_append hw, skipBlank_cons hblank, hc, if_false]
  rfl

/-- An object that is closed at once has no members. -/
theorem readValueAux_emptyObject {w : Bytes} (hw : Blank w) (fuel : Nat) (rest : Bytes) :
    readValueAux (fuel + 1) (ascii '\x7b' :: (w ++ ascii '\x7d' :: rest)) =
      (.object .closed, some rest) := by
  rw [readValueAux, skipBlank_cons (by decide)]
  simp only [skipBlank_append hw, skipBlank_cons (show isBlank (ascii '\x7d') = false by decide)]
  rfl

/-- Any other object is read by reading its members. -/
theorem readValueAux_object {w : Bytes} (hw : Blank w) {c : UInt8} (hblank : isBlank c = false)
    (hc : c ≠ ascii '\x7d') (fuel : Nat) (input : Bytes) :
    readValueAux (fuel + 1) (ascii '\x7b' :: (w ++ c :: input)) =
      (.object (readMembers fuel (w ++ c :: input)).1, (readMembers fuel (w ++ c :: input)).2) := by
  rw [readValueAux, skipBlank_cons (by decide)]
  simp only [skipBlank_append hw, skipBlank_cons hblank, hc, if_false]
  rfl

/-- Elements are read one after the other. -/
theorem readElements_of_value {fuel : Nat} {v : Value} {input w rest : Bytes} (hw : Blank w)
    {c : UInt8} (hc : isBlank c = false)
    (hv : readValueAux fuel input = (v, some (w ++ c :: rest))) :
    readElements (fuel + 1) input =
      if c = ascii ',' then (.cons v (readElements fuel rest).1, (readElements fuel rest).2)
      else if c = ascii ']' then (.cons v .closed, some rest)
      else (.cons v .cut, none) := by
  rw [readElements]
  simp only [hv, skipBlank_append hw, skipBlank_cons hc]

/-- Members are read one after the other. -/
theorem readMembers_of_value {fuel : Nat} {name : Bytes} {v : Value} {w w' input w'' rest : Bytes}
    (hw : Blank w) (hname : StringBody name) (hw' : Blank w') (hw'' : Blank w'') {c : UInt8}
    (hc : isBlank c = false) (hv : readValueAux fuel input = (v, some (w'' ++ c :: rest))) :
    readMembers (fuel + 1) (w ++ ascii '"' :: (name ++ ascii '"' ::
        (w' ++ ascii ':' :: input))) =
      if c = ascii ',' then
        (.cons name v (readMembers fuel rest).1, (readMembers fuel rest).2)
      else if c = ascii '\x7d' then (.cons name v .closed, some rest)
      else (.cons name v .cut, none) := by
  rw [readMembers]
  simp only [skipBlank_append hw, skipBlank_cons (show isBlank (ascii '"') = false by decide),
    if_true, scanString_of_body hname, List.reverse_nil, List.nil_append, skipBlank_append hw',
    skipBlank_cons (show isBlank (ascii ':') = false by decide), hv, skipBlank_append hw'',
    skipBlank_cons hc]

/-- The reader finds what a text spells, as long as its bound is no less than the length of the
text.  The induction is on the bound, over values, elements and members at once. -/
theorem readValueAux_and_readElements_and_readMembers (fuel : Nat) :
    (∀ {v : Value} {b : Bytes}, v.Spells b → b.length ≤ fuel → ∀ {rest : Bytes}, Stops rest →
      readValueAux fuel (b ++ rest) = (v, some rest)) ∧
    (∀ {es : Elements} {b : Bytes}, es.Spells b → b.length ≤ fuel → ∀ rest : Bytes,
      readElements fuel (b ++ rest) = (es, some rest)) ∧
    (∀ {ms : Members} {b : Bytes}, ms.Spells b → b.length ≤ fuel → ∀ rest : Bytes,
      readMembers fuel (b ++ rest) = (ms, some rest)) := by
  induction fuel with
  | zero =>
    refine ⟨fun {v b} h hlength => ?_, fun {es b} h hlength => ?_, fun {ms b} h hlength => ?_⟩
    · obtain ⟨c, rest, rfl, -⟩ := h.head
      cases hlength
    · cases h <;> simp at hlength
    · cases h <;> simp at hlength
  | succ fuel ih =>
    obtain ⟨ihValue, ihElements, ihMembers⟩ := ih
    refine ⟨fun {v b} h hlength {rest} hrest => ?_, fun {es b} h hlength rest => ?_,
      fun {ms b} h hlength rest => ?_⟩
    · cases h with
      | null => exact (readValueAux_word fuel rest).1
      | bool b => exact (readValueAux_word fuel rest).2 b
      | number hn => exact readValueAux_number hn fuel hrest
      | string hraw =>
        rw [List.cons_append, List.append_assoc]
        exact readValueAux_string hraw fuel rest
      | emptyArray hw =>
        rw [List.cons_append, List.append_assoc]
        exact readValueAux_emptyArray hw fuel rest
      | emptyObject hw =>
        rw [List.cons_append, List.append_assoc]
        exact readValueAux_emptyObject hw fuel rest
      | @array es b hes =>
        have hread := ihElements hes (Nat.le_of_succ_le_succ hlength) rest
        obtain ⟨w, c, tail, rfl, hw, hblank, hc⟩ :
            ∃ w c tail, b = w ++ c :: tail ∧ Blank w ∧ isBlank c = false ∧ c ≠ ascii ']' := by
          cases hes with
          | last hw hv hw' =>
            obtain ⟨c, tail, rfl, hblank, hc⟩ := hv.head
            exact ⟨_, c, _, rfl, hw, hblank, hc⟩
          | more hw hv hw' hes =>
            obtain ⟨c, tail, rfl, hblank, hc⟩ := hv.head
            exact ⟨_, c, _, rfl, hw, hblank, hc⟩
        rw [List.append_assoc, List.cons_append] at hread
        rw [List.cons_append, List.append_assoc, List.cons_append,
          readValueAux_array hw hblank hc, hread]
      | @object ms b hms =>
        have hread := ihMembers hms (Nat.le_of_succ_le_succ hlength) rest
        obtain ⟨w, tail, rfl, hw⟩ : ∃ w tail, b = w ++ ascii '"' :: tail ∧ Blank w := by
          cases hms with
          | last hw => exact ⟨_, _, rfl, hw⟩
          | more hw => exact ⟨_, _, rfl, hw⟩
        rw [List.append_assoc, List.cons_append] at hread
        rw [List.cons_append, List.append_assoc, List.cons_append,
          readValueAux_object hw (by decide) (by decide), hread]
    · cases h with
      | @last v w b w' hw hv hw' =>
        have hstops : Stops (w' ++ ascii ']' :: rest) := stops_blank_append hw' (by decide)
        have hread := ihValue hv (by simp at hlength; omega) hstops
        rw [← readValueAux_blank hw] at hread
        simp only [List.append_assoc, List.cons_append, List.nil_append]
        rw [readElements_of_value hw' (by decide) hread, if_neg (by decide), if_pos rfl]
      | @more v es w b w' tail hw hv hw' hes =>
        have hstops : Stops (w' ++ ascii ',' :: (tail ++ rest)) :=
          stops_blank_append hw' (by decide)
        have hread := ihValue hv (by simp at hlength; omega) hstops
        rw [← readValueAux_blank hw] at hread
        simp only [List.append_assoc, List.cons_append]
        rw [readElements_of_value hw' (by decide) hread, if_pos rfl,
          ihElements hes (by simp at hlength; omega)]
    · cases h with
      | @last name v w w' b w'' hw hname hw' u hu hv hw'' =>
        have hstops : Stops (w'' ++ ascii '\x7d' :: rest) := stops_blank_append hw'' (by decide)
        have hread := ihValue hv (by simp at hlength; omega) hstops
        rw [← readValueAux_blank hu] at hread
        simp only [List.append_assoc, List.cons_append, List.nil_append]
        rw [readMembers_of_value hw hname hw' hw'' (by decide) hread, if_neg (by decide),
          if_pos rfl]
      | @more name v ms w w' b w'' tail hw hname hw' u hu hv hw'' hms =>
        have hstops : Stops (w'' ++ ascii ',' :: (tail ++ rest)) :=
          stops_blank_append hw'' (by decide)
        have hread := ihValue hv (by simp at hlength; omega) hstops
        rw [← readValueAux_blank hu] at hread
        simp only [List.append_assoc, List.cons_append]
        rw [readMembers_of_value hw hname hw' hw'' (by decide) hread, if_pos rfl,
          ihMembers hms (by simp at hlength; omega)]

/-- A value is found in front of everything that does not go on with it. -/
theorem readValue_of_spells {v : Value} {b rest : Bytes} (h : v.Spells b) (hrest : Stops rest) :
    readValue (b ++ rest) = (v, some rest) := by
  refine (readValueAux_and_readElements_and_readMembers _).1 h ?_ hrest
  rw [List.length_append]
  omega

/-- A text that spells a value is read as this value and nothing else. -/
theorem ofBytes_of_spells {v : Value} {w b w' : Bytes} (hw : Blank w) (h : v.Spells b)
    (hw' : Blank w') : Document.ofBytes (w ++ (b ++ w')) = ⟨v, true⟩ := by
  have hstops : Stops w' := stops_of_blank hw'
  have hread : readValue (w ++ (b ++ w')) = (v, some w') := by
    rw [readValue, readValueAux_blank hw]
    refine (readValueAux_and_readElements_and_readMembers _).1 h ?_ hstops
    simp only [List.length_append]
    omega
  simp [Document.ofBytes, hread, skipBlank_of_blank hw']

end BearerAuth.Json
