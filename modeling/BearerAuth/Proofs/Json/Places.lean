import Mathlib
import BearerAuth.Proofs.Json.Quotes

/-!
# Places of a document

What stands in a document behind one of its values is known from the brackets around the value:
each of them still has to be closed, possibly after further elements or members.  `Within` says so
for a place, given the brackets from the innermost one on and what stands behind the outermost one.

A reader that gives up on a value stops somewhere.  `Lost` collects where that may be: in front of
a byte with which no reader goes on, inside of a string, or inside of brackets that it did not
close.

Main statements: `Within.append`, which puts the brackets around a place together, and the forms
`Elements.Spells.front` and `Members.Spells.front` of what is inside of a bracket.
-/

namespace BearerAuth.Json

/-! ### White space in front of a place -/

@[simp] theorem skipBlank_skipBlank (s : Bytes) : skipBlank (skipBlank s) = skipBlank s := by
  obtain ⟨w, hw, heq⟩ := exists_blank_skipBlank s
  conv_rhs => rw [heq, skipBlank_append hw]

theorem paired_skipBlank {s : Bytes} : Paired (skipBlank s) ↔ Paired s := by
  obtain ⟨w, hw, heq⟩ := exists_blank_skipBlank s
  conv_rhs => rw [heq, Paired, Mode.run_append, hw.paired]
  rfl

theorem inQuotes_skipBlank {s : Bytes} : InQuotes (skipBlank s) ↔ InQuotes s := by
  have hrun : ∀ {w : Bytes}, Blank w → Mode.quoted.run w = some .quoted := by
    intro w hw
    induction w with
    | nil => rfl
    | cons b w ih =>
      rw [Mode.run_quoted_structural (isStructural_of_isBlank (hw b List.mem_cons_self))]
      exact ih fun c hc => hw c (List.mem_cons_of_mem b hc)
  obtain ⟨w, hw, heq⟩ := exists_blank_skipBlank s
  conv_rhs => rw [heq, InQuotes, Mode.run_append, hrun hw]
  rfl

/-! ### Brackets -/

/-- The two kinds of brackets around a place. -/
inductive Bracket where
  | square
  | curly
deriving DecidableEq

namespace Bracket

/-- The byte that closes a bracket. -/
def closer : Bracket → UInt8
  | square => ascii ']'
  | curly => ascii '\x7d'

/-- The bytes spell what is inside of a bracket, which is not empty, and its end. -/
def Spells : Bracket → Bytes → Prop
  | square, b => ∃ es : Elements, es.Spells b
  | curly, b => ∃ ms : Members, ms.Spells b

theorem closer_ne_comma (k : Bracket) : k.closer ≠ ascii ',' := by
  cases k <;> decide

theorem isBlank_closer (k : Bracket) : isBlank k.closer = false := by
  cases k <;> decide

theorem isStructural_closer (k : Bracket) : isStructural k.closer := by
  cases k <;> decide

theorem Spells.paired {k : Bracket} {b : Bytes} (h : k.Spells b) : Paired b := by
  cases k with
  | square =>
    obtain ⟨es, hes⟩ := h
    exact hes.paired
  | curly =>
    obtain ⟨ms, hms⟩ := h
    exact hms.paired

end Bracket

/-- The place is behind an element or a member of a bracket, and `behind` follows the bracket. -/
def Behind (k : Bracket) (behind s : Bytes) : Prop :=
  skipBlank s = k.closer :: behind ∨ ∃ b, k.Spells b ∧ skipBlank s = ascii ',' :: (b ++ behind)

theorem Behind.close {k : Bracket} {w : Bytes} (hw : Blank w) (behind : Bytes) :
    Behind k behind (w ++ k.closer :: behind) :=
  .inl (by rw [skipBlank_append hw, skipBlank_cons k.isBlank_closer])

theorem Behind.more {k : Bracket} {w b : Bytes} (hw : Blank w) (hb : k.Spells b) (behind : Bytes) :
    Behind k behind (w ++ ascii ',' :: (b ++ behind)) :=
  .inr ⟨b, hb, by rw [skipBlank_append hw, skipBlank_cons (by decide)]⟩

/-- Elements are a value and what stands behind it inside of the bracket. -/
theorem Elements.Spells.front {es : Elements} {b : Bytes} (h : es.Spells b) :
    ∃ w v front tail, Blank w ∧ Value.Spells v front ∧ b = w ++ (front ++ tail) ∧
      ∀ behind, Behind .square behind (tail ++ behind) := by
  cases h with
  | @last v w front w' hw hv hw' =>
    refine ⟨w, v, front, _, hw, hv, rfl, fun behind => ?_⟩
    rw [List.append_assoc]
    exact .close hw' behind
  | @more v es w front w' rest hw hv hw' hes =>
    have hrest : Bracket.square.Spells rest := ⟨es, hes⟩
    refine ⟨w, v, front, _, hw, hv, rfl, fun behind => ?_⟩
    rw [List.append_assoc]
    exact .more hw' hrest behind

/-- Members are a name, its value and what stands behind it inside of the bracket. -/
theorem Members.Spells.front {ms : Members} {b : Bytes} (h : ms.Spells b) :
    ∃ w name w' u v front tail, Blank w ∧ StringBody name ∧ Blank w' ∧ Blank u ∧
      Value.Spells v front ∧
      b = w ++ ascii '"' :: (name ++ ascii '"' :: (w' ++ ascii ':' :: (u ++ (front ++ tail)))) ∧
      ∀ behind, Behind .curly behind (tail ++ behind) := by
  cases h with
  | @last name v w w' front w'' hw hname hw' u hu hv hw'' =>
    refine ⟨w, name, w', u, v, front, _, hw, hname, hw', hu, hv, rfl, fun behind => ?_⟩
    rw [List.append_assoc]
    exact .close hw'' behind
  | @more name v ms w w' front w'' rest hw hname hw' u hu hv hw'' hms =>
    have hrest : Bracket.curly.Spells rest := ⟨ms, hms⟩
    refine ⟨w, name, w', u, v, front, _, hw, hname, hw', hu, hv, rfl, fun behind => ?_⟩
    rw [List.append_assoc]
    exact .more hw'' hrest behind

/-- The first byte of a value tells strings and objects from other values. -/
theorem Value.Spells.front_cases {v : Value} {c : UInt8} {rest : Bytes} (h : v.Spells (c :: rest)) :
    (c = ascii '"' ∧ ∃ raw, StringBody raw ∧ rest = raw ++ [ascii '"']) ∨
      (c = ascii '\x7b' ∧ ∃ ms, v = .object ms ∧
        (ms = .closed ∧ (∃ w, Blank w ∧ rest = w ++ [ascii '\x7d']) ∨ ms.Spells rest)) ∨
      (c ≠ ascii '"' ∧ c ≠ ascii '\x7b') := by
  generalize hb : c :: rest = b at h
  have hother : ∀ {d : UInt8} {tail : Bytes}, c :: rest = d :: tail → d ≠ ascii '"' →
      d ≠ ascii '\x7b' → c ≠ ascii '"' ∧ c ≠ ascii '\x7b' := by
    intro d tail heq hquote hcurly
    obtain ⟨rfl, -⟩ := List.cons.inj heq
    exact ⟨hquote, hcurly⟩
  cases h with
  | null => exact .inr (.inr (hother hb (by decide) (by decide)))
  | bool b => cases b <;> exact .inr (.inr (hother hb (by decide) (by decide)))
  | number hn =>
    obtain ⟨d, tail, rfl, rfl | hd⟩ := hn.head
    · exact .inr (.inr (hother hb (by decide) (by decide)))
    · exact .inr (.inr (hother hb (ne_of_isDigit hd rfl) (ne_of_isDigit hd rfl)))
  | @string raw hraw =>
    obtain ⟨rfl, rfl⟩ := List.cons.inj hb
    exact .inl ⟨rfl, raw, hraw, rfl⟩
  | emptyArray => exact .inr (.inr (hother hb (by decide) (by decide)))
  | array => exact .inr (.inr (hother hb (by decide) (by decide)))
  | @emptyObject w hw =>
    obtain ⟨rfl, rfl⟩ := List.cons.inj hb
    exact .inr (.inl ⟨rfl, .closed, rfl, .inl ⟨rfl, w, hw, rfl⟩⟩)
  | @object ms b hms =>
    obtain ⟨rfl, rfl⟩ := List.cons.inj hb
    exact .inr (.inl ⟨rfl, ms, rfl, .inr hms⟩)

/-! ### Places inside of brackets -/

/-- The place is behind a value inside of the brackets, of which the first is the innermost one, and
`behind` follows the outermost one. -/
def Within : List Bracket → Bytes → Bytes → Prop
  | [], behind, s => skipBlank s = skipBlank behind
  | k :: ks, behind, s => ∃ next, Within ks behind next ∧ Behind k next s

theorem within_single {k : Bracket} {behind s : Bytes} (h : Behind k behind s) :
    Within [k] behind s :=
  ⟨behind, rfl, h⟩

variable {k : Bracket} {ks : List Bracket} {behind s s' : Bytes}

theorem within_nil : Within [] behind s ↔ skipBlank s = skipBlank behind := Iff.rfl

/-- White space in front of a place does not matter. -/
theorem Within.congr (h : Within ks behind s) (heq : skipBlank s' = skipBlank s) :
    Within ks behind s' := by
  cases ks with
  | nil => exact heq.trans h
  | cons k ks =>
    obtain ⟨next, hnext, hs⟩ := h
    refine ⟨next, hnext, ?_⟩
    rwa [Behind, heq]

/-- What stands behind some brackets may itself be inside of others. -/
theorem Within.append {ks' : List Bracket} {behind' : Bytes} (h : Within ks behind s)
    (h' : Within ks' behind' behind) : Within (ks ++ ks') behind' s := by
  induction ks generalizing s with
  | nil => exact h'.congr h
  | cons k ks ih =>
    obtain ⟨next, hnext, hs⟩ := h
    exact ⟨next, ih hnext, hs⟩

/-- Behind a value its quotes are paired. -/
theorem Within.paired (h : Within ks behind s) (hbehind : Paired behind) : Paired s := by
  induction ks generalizing s with
  | nil =>
    rw [← paired_skipBlank, within_nil.mp h, paired_skipBlank]
    exact hbehind
  | cons k ks ih =>
    obtain ⟨next, hnext, hs⟩ := h
    rw [← paired_skipBlank]
    rcases hs with hclose | ⟨b, hb, hmore⟩
    · rw [hclose]
      exact (ih hnext).cons k.isStructural_closer
    · rw [hmore]
      exact (hb.paired.append (ih hnext)).cons (by decide)

/-- A value ends in front of a place inside of brackets. -/
theorem Within.stops (h : Within (k :: ks) behind s) : Stops s := by
  obtain ⟨next, -, hs⟩ := h
  rcases hs with hclose | ⟨b, -, hmore⟩
  · obtain ⟨w, hw, rfl⟩ := exists_blank_of_skipBlank hclose
    exact stops_blank_append hw (by cases k <;> decide)
  · obtain ⟨w, hw, rfl⟩ := exists_blank_of_skipBlank hmore
    exact stops_blank_append hw (by decide)

/-! ### Places at which a reader may end up -/

/-- The bytes follow a value: it ends in front of them, and their quotes are paired. -/
structure Follows (behind : Bytes) : Prop where
  stops : Stops behind
  paired : Paired behind

theorem Within.follows (h : Within (k :: ks) behind s) (hbehind : Paired behind) : Follows s :=
  ⟨h.stops, h.paired hbehind⟩

/-- Nothing in front of which a reader stands goes on with an object or an array. -/
def Stuck (s : Bytes) : Prop :=
  ∃ c rest, skipBlank s = c :: rest ∧ c ≠ ascii ',' ∧ c ≠ ascii ']' ∧ c ≠ ascii '\x7d'

theorem Stuck.congr (h : Stuck s) (heq : skipBlank s' = skipBlank s) : Stuck s' := by
  obtain ⟨c, rest, hs, hc⟩ := h
  exact ⟨c, rest, heq.trans hs, hc⟩

theorem stuck_cons {c : UInt8} {rest : Bytes} (hblank : isBlank c = false) (hcomma : c ≠ ascii ',')
    (hsquare : c ≠ ascii ']') (hcurly : c ≠ ascii '\x7d') : Stuck (c :: rest) :=
  ⟨c, rest, skipBlank_cons hblank rest, hcomma, hsquare, hcurly⟩

/-- A reader that stops within the digits of a number does not go on. -/
theorem stuck_of_isDigit {c : UInt8} {rest : Bytes} (h : isDigit c) : Stuck (c :: rest) := by
  refine stuck_cons ?_ (ne_of_isDigit h rfl) (ne_of_isDigit h rfl) (ne_of_isDigit h rfl)
  simp only [isBlank, Bool.or_eq_false_iff, decide_eq_false_iff_not]
  exact ⟨⟨⟨ne_of_isDigit h rfl, ne_of_isDigit h rfl⟩, ne_of_isDigit h rfl⟩, ne_of_isDigit h rfl⟩

/-- A reader that stops in front of a value does not go on. -/
theorem Value.Spells.stuck {v : Value} {b : Bytes} (h : v.Spells b) (rest : Bytes) :
    Stuck (b ++ rest) := by
  cases h with
  | null => exact stuck_cons (by decide) (by decide) (by decide) (by decide)
  | bool b => cases b <;> exact stuck_cons (by decide) (by decide) (by decide) (by decide)
  | number hn =>
    obtain ⟨c, tail, rfl, rfl | hc⟩ := hn.head
    · exact stuck_cons (by decide) (by decide) (by decide) (by decide)
    · exact stuck_of_isDigit hc
  | string => exact stuck_cons (by decide) (by decide) (by decide) (by decide)
  | emptyArray => exact stuck_cons (by decide) (by decide) (by decide) (by decide)
  | array => exact stuck_cons (by decide) (by decide) (by decide) (by decide)
  | emptyObject => exact stuck_cons (by decide) (by decide) (by decide) (by decide)
  | object => exact stuck_cons (by decide) (by decide) (by decide) (by decide)

theorem Stuck.append_left {w : Bytes} (hw : Blank w) (h : Stuck s) : Stuck (w ++ s) :=
  h.congr (skipBlank_append hw s)

/-- A reader that stops in front of an element does not go on. -/
theorem Elements.Spells.stuck {es : Elements} {b : Bytes} (h : es.Spells b) (rest : Bytes) :
    Stuck (b ++ rest) := by
  obtain ⟨w, v, front, tail, hw, hv, rfl, -⟩ := h.front
  simp only [List.append_assoc]
  exact (hv.stuck _).append_left hw

/-- A reader that stops in front of a member does not go on. -/
theorem Members.Spells.stuck {ms : Members} {b : Bytes} (h : ms.Spells b) (rest : Bytes) :
    Stuck (b ++ rest) := by
  obtain ⟨w, name, w', u, v, front, tail, hw, -, -, -, -, rfl, -⟩ := h.front
  rw [List.append_assoc]
  exact (stuck_cons (by decide) (by decide) (by decide) (by decide)).append_left hw

theorem Bracket.Spells.stuck {b : Bytes} (h : k.Spells b) (rest : Bytes) : Stuck (b ++ rest) := by
  cases k with
  | square =>
    obtain ⟨es, hes⟩ := h
    exact hes.stuck rest
  | curly =>
    obtain ⟨ms, hms⟩ := h
    exact hms.stuck rest

/-- The reader has not arrived behind the value that `behind` follows, and will not by itself. -/
inductive Lost (behind s : Bytes) : Prop
  | stuck (h : Stuck s)
  | inQuotes (h : InQuotes s)
  | within {k : Bracket} {ks : List Bracket} (h : Within (k :: ks) behind s)

theorem Lost.congr (h : Lost behind s) (heq : skipBlank s' = skipBlank s) : Lost behind s' := by
  cases h with
  | stuck h => exact .stuck (h.congr heq)
  | inQuotes h => exact .inQuotes (by rwa [← inQuotes_skipBlank, heq, inQuotes_skipBlank])
  | within h => exact .within (h.congr heq)

/-- Whoever is lost inside of a value is lost inside of the brackets around it. -/
theorem Lost.mono (h : Lost s s') (hs : Within ks behind s) : Lost behind s' := by
  cases h with
  | stuck h => exact .stuck h
  | inQuotes h => exact .inQuotes h
  | within h => exact .within (h.append hs)

/-- The reader has arrived behind the value, or it is lost. -/
def Landed (behind s : Bytes) : Prop :=
  skipBlank s = skipBlank behind ∨ Lost behind s

theorem landed_self (behind : Bytes) : Landed behind behind := .inl rfl

theorem Landed.congr (h : Landed behind s) (heq : skipBlank s' = skipBlank s) :
    Landed behind s' :=
  h.imp heq.trans fun h => h.congr heq

/-- Whoever leaves a value inside of brackets, in whatever way, is lost inside of them. -/
theorem Landed.lost_of_within (h : Landed s s') (hs : Within (k :: ks) behind s) :
    Lost behind s' := by
  rcases h with heq | hlost
  · exact .within (hs.congr heq)
  · exact hlost.mono hs

end BearerAuth.Json
