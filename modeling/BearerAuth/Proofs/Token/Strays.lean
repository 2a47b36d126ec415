import Mathlib
import BearerAuth.Proofs.Json.Places
import BearerAuth.Proofs.Token.Window
import BearerAuth.Token.Header

/-!
# Where tolerant readings end

The readings that pick times out of a payload give up on a value that they cannot use, and the
reading of the payload goes on wherever they stopped.  In a document that is JSON this is either the
place behind the value or one from which nothing good follows: in front of a byte with which no
object goes on, inside of a string, or inside of brackets that are still open.

Main statements: `passAny_landed`, `readSeconds_spells` and `readText_spells`, one for each of the
tolerant readings.
-/

namespace BearerAuth.Token

open Json

/-! ### Strings and numbers -/

/-- The reading of a string yields its text and ends behind it, or it yields nothing and ends behind
it or inside of it. -/
theorem readString_place {raw after : Bytes} (h : StringBody raw) (hafter : Paired after) :
    (∃ s, textOf? raw = some s ∧ readString (raw ++ ascii '"' :: after) = .ok (s, after)) ∨
      ∃ rest, readString (raw ++ ascii '"' :: after) = .error rest ∧ textOf? raw = none ∧
        (rest = after ∨ InQuotes rest) := by
  rcases readString_body h with ⟨s, htext, hread⟩ | ⟨htext, hread⟩
  · exact .inl ⟨s, htext, hread after⟩
  · obtain ⟨rest, hrest, hplace⟩ := hread after
    refine .inr ⟨rest, hrest, htext, hplace.imp_right ?_⟩
    rintro ⟨raw', hraw', rfl⟩
    exact hraw'.inQuotes hafter

/-- A number whose exponent is too large is left behind it or within its digits. -/
theorem landed_drop_digits {front behind : Bytes} {ds : List Nat} (hds : ∀ d ∈ ds, d < 10)
    {k : Nat} (hk : k ≤ ds.length) :
    Landed behind ((front ++ ds.map digitByte ++ behind).drop
      ((front ++ ds.map digitByte ++ behind).length - behind.length - k)) := by
  have hlength : (front ++ ds.map digitByte ++ behind).length - behind.length - k =
      front.length + (ds.length - k) := by
    simp only [List.length_append, List.length_map]
    omega
  have hdrop : (front ++ ds.map digitByte ++ behind).drop (front.length + (ds.length - k)) =
      (ds.drop (ds.length - k)).map digitByte ++ behind := by
    rw [List.append_assoc, ← List.drop_drop, List.drop_left, List.drop_append_of_le_length
      (by simp), List.map_drop]
  rw [hlength, hdrop]
  cases htail : ds.drop (ds.length - k) with
  | nil => exact landed_self behind
  | cons d tail =>
    have hd : d ∈ ds := List.mem_of_mem_drop (htail ▸ List.mem_cons_self)
    exact .inr (.stuck (stuck_of_isDigit (isDigit_digitByte (hds d hd))))

/-- A number is read to its end, or it is out of range and left behind it or within its digits. -/
theorem scanNumeral_spells {n : Number} {b behind : Bytes} (h : n.Spells b)
    (hstops : Stops behind) :
    scanNumeral (b ++ behind) = .ok (n.numeral, behind) ∨
      ∃ rest, scanNumeral (b ++ behind) = .error rest ∧ n.numeral = .outOfRange ∧
        Landed behind rest := by
  rw [scanNumeral, scanNumber_of_spells h hstops, Except.ok_bind]
  dsimp only
  cases hnumeral : n.numeral with
  | outOfRange =>
    cases hexponent : n.exponent with
    | none => exact .inr ⟨behind, rfl, rfl, landed_self behind⟩
    | some x =>
      obtain ⟨negative, ds⟩ := x
      refine .inr ⟨_, rfl, rfl, ?_⟩
      obtain ⟨-, -, e, he, rfl⟩ := h
      rw [hexponent] at he
      cases he with
      | @some _ _ letter sign hds _ _ _ =>
        rw [← List.append_assoc]
        exact landed_drop_digits hds (Nat.sub_le _ _)
  | natural | negative | float => exact .inl rfl

/-- The first byte of a number is the first byte of no other value. -/
theorem skipBlank_number_ne {n : Number} {b : Bytes} (h : n.Spells b) (rest : Bytes) :
    ∃ c tail, b ++ rest = c :: tail ∧ skipBlank (b ++ rest) = c :: tail ∧
      (c = ascii '-' ∨ isDigit c) ∧ c ≠ ascii 'n' ∧ c ≠ ascii 't' ∧ c ≠ ascii 'f' ∧
      c ≠ ascii '"' ∧ c ≠ ascii '[' ∧ c ≠ ascii '\x7b' := by
  obtain ⟨c, tail, heq, hskip, hc⟩ := skipBlank_number h rest
  have hother : ∀ d, isDigit d = false → d ≠ ascii '-' → c ≠ d := by
    intro d hd hminus
    rcases hc with rfl | hc
    · exact hminus.symm
    · exact ne_of_isDigit hc hd
  exact ⟨c, tail, heq, hskip, hc, hother _ (by decide) (by decide),
    hother _ (by decide) (by decide), hother _ (by decide) (by decide),
    hother _ (by decide) (by decide), hother _ (by decide) (by decide),
    hother _ (by decide) (by decide)⟩

/-! ### Leaving brackets -/

/-- Goes on behind a bracket, given a place inside of it. -/
def close : Bracket → Bytes → Except Bytes Bytes
  | .square => endArray
  | .curly => endObject

/-- The end of a bracket is found where it is, an array gives up behind a comma, and anything
else is left where it is. -/
theorem restOfWord_close {s rest : Bytes} {c : UInt8} (k : Bracket) (h : skipBlank s = c :: rest) :
    restOfWord (close k s) = rest ∧ c = k.closer ∨
      restOfWord (close k s) = skipBlank rest ∧ c = ascii ',' ∨
      restOfWord (close k s) = c :: rest ∧ c ≠ k.closer := by
  cases k with
  | square =>
    simp only [close, endArray, h]
    split
    · exact .inl ⟨rfl, ‹_›⟩
    split
    · exact .inr (.inl ⟨rfl, ‹_›⟩)
    · exact .inr (.inr ⟨rfl, ‹_›⟩)
  | curly =>
    simp only [close, endObject, h]
    split
    · exact .inl ⟨rfl, ‹_›⟩
    · exact .inr (.inr ⟨rfl, ‹_›⟩)

theorem close_closer (k : Bracket) (behind : Bytes) :
    close k (k.closer :: behind) = .ok behind := by
  cases k with
  | square =>
    rw [Bracket.closer, close, endArray, skipBlank_cons (by decide)]
    rfl
  | curly =>
    rw [Bracket.closer, close, endObject, skipBlank_cons (by decide)]
    rfl

/-- Whoever is lost does not find its way by looking for the end of a bracket, unless this is the
last bracket that is open. -/
theorem landed_close {behind s : Bytes} (h : Lost behind s) (k : Bracket) :
    Landed behind (restOfWord (close k s)) := by
  cases h with
  | stuck h =>
    have hstuck := h
    obtain ⟨c, rest, hs, hcomma, hsquare, hcurly⟩ := h
    rcases restOfWord_close k hs with ⟨-, hc⟩ | ⟨-, hc⟩ | ⟨hrest, -⟩
    · cases k with
      | square => exact absurd hc hsquare
      | curly => exact absurd hc hcurly
    · exact absurd hc hcomma
    · rw [hrest, ← hs]
      exact .inr (.stuck (hstuck.congr (skipBlank_skipBlank s)))
  | inQuotes h =>
    rw [← inQuotes_skipBlank] at h
    cases hs : skipBlank s with
    | nil =>
      rw [hs] at h
      cases h
    | cons c rest =>
      rw [hs] at h
      have hrest : ∀ {c : UInt8}, isStructural c → InQuotes (c :: rest) → InQuotes rest :=
        fun hc => InQuotes.of_append (paired_nil.cons hc)
      rcases restOfWord_close k hs with ⟨heq, rfl⟩ | ⟨heq, rfl⟩ | ⟨heq, -⟩
      · rw [heq]
        exact .inr (.inQuotes (hrest k.isStructural_closer h))
      · rw [heq]
        exact .inr (.inQuotes (hrest (by decide) h).skipBlank)
      · rw [heq]
        exact .inr (.inQuotes h)
  | @within k' ks h =>
    obtain ⟨next, hnext, hs⟩ := h
    have hskip : ∀ {c : UInt8} {rest : Bytes}, skipBlank s = c :: rest →
        Within (k' :: ks) behind (c :: rest) := by
      intro c rest hc
      rw [← hc]
      exact Within.congr ⟨next, hnext, hs⟩ (skipBlank_skipBlank s)
    rcases hs with hclose | ⟨b, hb, hmore⟩
    · rcases restOfWord_close k hclose with ⟨heq, -⟩ | ⟨-, hc⟩ | ⟨heq, -⟩
      · rw [heq]
        cases ks with
        | nil => exact .inl hnext
        | cons k ks => exact .inr (.within hnext)
      · exact absurd hc k'.closer_ne_comma
      · rw [heq]
        exact .inr (.within (hskip hclose))
    · rcases restOfWord_close k hmore with ⟨-, hc⟩ | ⟨heq, -⟩ | ⟨heq, -⟩
      · exact absurd hc.symm k.closer_ne_comma
      · rw [heq]
        exact .inr (.stuck ((hb.stuck next).congr (skipBlank_skipBlank _)))
      · rw [heq]
        exact .inr (.within (hskip hmore))

/-! ### Passing over values -/

/-- A value was passed over: the reading succeeded and is behind it, or it failed and has landed. -/
inductive Passed (behind : Bytes) : Except Bytes Bytes → Prop
  | ok : Passed behind (.ok behind)
  | error {rest : Bytes} (h : Landed behind rest) : Passed behind (.error rest)

/-- The inside of a bracket was passed over: the reading succeeded and is in front of the end, or it
failed and is lost. -/
inductive Emptied (k : Bracket) (behind : Bytes) : Except Bytes Bytes → Prop
  | ok : Emptied k behind (.ok (k.closer :: behind))
  | error {rest : Bytes} (h : Lost behind rest) : Emptied k behind (.error rest)

theorem Passed.landed {behind : Bytes} {x : Except Bytes Bytes} (h : Passed behind x) :
    Landed behind (restOfWord x) := by
  cases h with
  | ok => exact landed_self behind
  | error h => exact h

/-- A bracket whose inside was passed over is left. -/
theorem Emptied.passed {k : Bracket} {behind : Bytes} {x : Except Bytes Bytes}
    (h : Emptied k behind x) : Passed behind (leave (close k) x) := by
  cases h with
  | ok =>
    rw [leave, close_closer]
    exact .ok
  | error h => exact .error (landed_close h k)

section Passing

variable {fuel depth : Nat} {first : Bool} {v : Value} {es : Elements} {ms : Members}
  {w b behind s : Bytes}

/-- The end of an array is found wherever it is looked for. -/
theorem emptied_passElements_close (h : skipBlank s = Bracket.square.closer :: behind) :
    Emptied .square behind (passElements fuel depth first s) := by
  cases fuel with
  | zero =>
    rw [passElements]
    exact .error (.within (within_single (.inl h)))
  | succ fuel =>
    rw [passElements, h]
    exact .ok

/-- The end of an object is found wherever it is looked for. -/
theorem emptied_passMembers_close (h : skipBlank s = Bracket.curly.closer :: behind) :
    Emptied .curly behind (passMembers fuel depth first s) := by
  cases fuel with
  | zero =>
    rw [passMembers]
    exact .error (.within (within_single (.inl h)))
  | succ fuel =>
    rw [passMembers, h]
    exact .ok

/-- What the readers do with values and with the insides of brackets, within a bound.  An element is
read at its first byte, a member from its name on. -/
structure PassesUpTo (fuel : Nat) : Prop where
  value {depth : Nat} {v : Value} {w b behind : Bytes} (hw : Blank w) (hv : v.Spells b)
    (hbehind : Follows behind) : Passed behind (passValue fuel depth (w ++ (b ++ behind)))
  elements {depth : Nat} {es : Elements} {b behind : Bytes} (hes : es.Spells b)
    (hbehind : Paired behind) : Emptied .square behind (passElements fuel depth true (b ++ behind))
  moreElements {depth : Nat} {s behind : Bytes} (hs : Behind .square behind s)
    (hbehind : Paired behind) : Emptied .square behind (passElements fuel depth false s)
  members {depth : Nat} {ms : Members} {b behind : Bytes} (hms : ms.Spells b)
    (hbehind : Paired behind) : Emptied .curly behind (passMembers fuel depth true (b ++ behind))
  moreMembers {depth : Nat} {s behind : Bytes} (hs : Behind .curly behind s)
    (hbehind : Paired behind) : Emptied .curly behind (passMembers fuel depth false s)
  member {depth : Nat} {ms : Members} {b behind : Bytes} (hms : ms.Spells b)
    (hbehind : Paired behind) :
    Emptied .curly behind (passMember fuel depth (skipBlank (b ++ behind)))

namespace PassesUpTo

/-- Within no bound every reading stops where it starts. -/
theorem zero : PassesUpTo 0 where
  value hw hv _ := by
    rw [passValue]
    exact .error (.inr (.stuck ((hv.stuck _).append_left hw)))
  elements hes _ := by
    rw [passElements]
    exact .error (.stuck (hes.stuck _))
  moreElements hs _ := by
    rw [passElements]
    exact .error (.within (within_single hs))
  members hms _ := by
    rw [passMembers]
    exact .error (.stuck (hms.stuck _))
  moreMembers hs _ := by
    rw [passMembers]
    exact .error (.within (within_single hs))
  member hms _ := by
    rw [passMember]
    exact .error (.stuck ((hms.stuck _).congr (skipBlank_skipBlank _)))

/-- What follows an element or a member is read in turn, unless the reading of its value failed. -/
theorem emptied_bind {k : Bracket} {next : Bytes} {x : Except Bytes Bytes}
    {f : Bytes → Except Bytes Bytes} (hx : Passed next x) (hnext : Behind k behind next)
    (hf : Emptied k behind (f next)) : Emptied k behind (x >>= f) := by
  cases hx with
  | ok => exact hf
  | error h => exact .error (h.lost_of_within (within_single hnext))

/-- An element and what follows it inside of the bracket. -/
theorem element (ih : PassesUpTo fuel) (depth : Nat) (hes : es.Spells b) (hbehind : Paired behind) :
    ∃ c rest, skipBlank (b ++ behind) = c :: rest ∧ c ≠ ascii ']' ∧
      Emptied .square behind
        (passValue fuel depth (c :: rest) >>= passElements fuel depth false) := by
  obtain ⟨w, v, front, tail, hw, hv, rfl, htail⟩ := hes.front
  have hnext := htail behind
  have hvalue : Passed _ (passValue fuel depth ([] ++ (front ++ (tail ++ behind)))) :=
    ih.value blank_nil hv ((within_single hnext).follows hbehind)
  have hrest : Emptied .square behind (passElements fuel depth false (tail ++ behind)) :=
    ih.moreElements hnext hbehind
  obtain ⟨c, rest, rfl, hblank, hc⟩ := hv.head
  refine ⟨c, rest ++ (tail ++ behind), ?_, hc, emptied_bind hvalue hnext hrest⟩
  simp only [List.append_assoc, List.cons_append]
  rw [skipBlank_append hw, skipBlank_cons hblank]

/-- The elements of an array, one call deeper. -/
theorem elements_succ (ih : PassesUpTo fuel) (hes : es.Spells b) (hbehind : Paired behind) :
    Emptied .square behind (passElements (fuel + 1) depth true (b ++ behind)) := by
  obtain ⟨c, rest, hskip, hc, h⟩ := ih.element depth hes hbehind
  rw [passElements, hskip]
  simp only [hc, if_false, if_true]
  exact h

/-- The elements behind another one, one call deeper. -/
theorem moreElements_succ (ih : PassesUpTo fuel) (hs : Behind .square behind s)
    (hbehind : Paired behind) :
    Emptied .square behind (passElements (fuel + 1) depth false s) := by
  rcases hs with hclose | ⟨b, ⟨es, hes⟩, hmore⟩
  · exact emptied_passElements_close hclose
  · obtain ⟨c, rest, hskip, hc, h⟩ := ih.element depth hes hbehind
    have hcomma : ascii ',' ≠ ascii ']' := by decide
    rw [passElements, hmore]
    simp only [hcomma, hskip, hc, if_false, if_true, Bool.false_eq_true]
    exact h

/-- The members of an object, one call deeper. -/
theorem members_succ (ih : PassesUpTo fuel) (hms : ms.Spells b) (hbehind : Paired behind) :
    Emptied .curly behind (passMembers (fuel + 1) depth true (b ++ behind)) := by
  have h : Emptied .curly behind (passMember fuel depth (skipBlank (b ++ behind))) :=
    ih.member hms hbehind
  obtain ⟨w, name, w', u, v, front, tail, hw, hname, hw', hu, hv, rfl, htail⟩ := hms.front
  have hquote : ascii '"' ≠ ascii '\x7d' := by decide
  rw [List.append_assoc, List.cons_append, skipBlank_append hw, skipBlank_cons (by decide)] at h
  rw [List.append_assoc, List.cons_append, passMembers, skipBlank_append hw,
    skipBlank_cons (by decide)]
  simp only [hquote, if_false, if_true]
  exact h

/-- The members behind another one, one call deeper. -/
theorem moreMembers_succ (ih : PassesUpTo fuel) (hs : Behind .curly behind s)
    (hbehind : Paired behind) :
    Emptied .curly behind (passMembers (fuel + 1) depth false s) := by
  rcases hs with hclose | ⟨b, ⟨ms, hms⟩, hmore⟩
  · exact emptied_passMembers_close hclose
  · have hcomma : ascii ',' ≠ ascii '\x7d' := by decide
    rw [passMembers, hmore]
    simp only [hcomma, if_false, if_true, Bool.false_eq_true]
    exact ih.member hms hbehind

/-- A member and what follows it inside of the bracket, one call deeper. -/
theorem member_succ (ih : PassesUpTo fuel) (hms : ms.Spells b) (hbehind : Paired behind) :
    Emptied .curly behind (passMember (fuel + 1) depth (skipBlank (b ++ behind))) := by
  obtain ⟨w, name, w', u, v, front, tail, hw, hname, hw', hu, hv, rfl, htail⟩ := hms.front
  have hnext := htail behind
  have hfollows := (within_single hnext).follows hbehind
  have hvalue : Passed _ (passValue fuel depth (u ++ (front ++ (tail ++ behind)))) :=
    ih.value hu hv hfollows
  have hrest : Emptied .curly behind (passMembers fuel depth false (tail ++ behind)) :=
    ih.moreMembers hnext hbehind
  have hcolon : isBlank (ascii ':') = false := by decide
  have hafter : Paired (w' ++ ascii ':' :: (u ++ (front ++ (tail ++ behind)))) :=
    hw'.paired.append ((hu.paired.append (hv.paired.append hfollows.paired)).cons (by decide))
  simp only [List.append_assoc, List.cons_append]
  rw [skipBlank_append hw, skipBlank_cons (by decide), passMember, if_pos rfl]
  rcases readString_place hname hafter with ⟨_, -, hread⟩ | ⟨rest, hread, -, rfl | hrest⟩
  · simp only [hread, skipBlank_append hw', skipBlank_cons hcolon, if_true]
    exact emptied_bind hvalue hnext hrest
  · rw [hread]
    refine .error (.stuck (.append_left hw' ?_))
    exact stuck_cons hcolon (by decide) (by decide) (by decide)
  · rw [hread]
    exact .error (.inQuotes hrest)

/-- An array is passed over by passing over its inside, if its depth is allowed. -/
theorem passed_array {s : Bytes}
    (h : ∀ depth, Emptied .square behind (passElements fuel depth true s)) :
    Passed behind (passValue (fuel + 1) depth (ascii '[' :: s)) := by
  rw [passValue, skipBlank_cons (by decide)]
  cases depth with
  | zero =>
    exact .error (.inr (.stuck (stuck_cons (by decide) (by decide) (by decide) (by decide))))
  | succ depth => exact (h depth).passed

/-- An object is passed over by passing over its inside, if its depth is allowed. -/
theorem passed_object {s : Bytes}
    (h : ∀ depth, Emptied .curly behind (passMembers fuel depth true s)) :
    Passed behind (passValue (fuel + 1) depth (ascii '\x7b' :: s)) := by
  rw [passValue, skipBlank_cons (by decide)]
  cases depth with
  | zero =>
    exact .error (.inr (.stuck (stuck_cons (by decide) (by decide) (by decide) (by decide))))
  | succ depth => exact (h depth).passed

/-- A value in front of which no white space stands, one call deeper. -/
theorem front_succ (ih : PassesUpTo fuel) (hv : v.Spells b) (hbehind : Follows behind) :
    Passed behind (passValue (fuel + 1) depth (b ++ behind)) := by
  cases hv with
  | null =>
    rw [passValue]
    exact .ok
  | bool b =>
    rw [passValue]
    cases b <;> exact .ok
  | @number n b hn =>
    obtain ⟨c, tail, heq, hskip, hc, hnull, htrue, hfalse, hquote, hsquare, hcurly⟩ :=
      skipBlank_number_ne hn behind
    rw [passValue, hskip]
    simp only [hnull, htrue, hfalse, hquote, hsquare, hcurly, hc, if_true, if_false]
    rw [← heq]
    rcases scanNumeral_spells hn hbehind.stops with hscan | ⟨rest, hscan, -, hrest⟩
    · rw [hscan]
      exact .ok
    · rw [hscan]
      exact .error hrest
  | @string raw hraw =>
    rw [List.cons_append, List.append_assoc, passValue, skipBlank_cons (by decide)]
    simp only [show ascii '"' ≠ ascii 'n' by decide, show ascii '"' ≠ ascii 't' by decide,
      show ascii '"' ≠ ascii 'f' by decide, if_true, if_false, List.cons_append, List.nil_append]
    rcases readString_place hraw hbehind.paired with ⟨s, -, hread⟩ | ⟨rest, hread, -, rfl | hrest⟩
    · rw [hread]
      exact .ok
    · rw [hread]
      exact .error (landed_self rest)
    · rw [hread]
      exact .error (.inr (.inQuotes hrest))
  | @emptyArray w hw =>
    rw [List.cons_append, List.append_assoc]
    refine passed_array fun depth => emptied_passElements_close ?_
    rw [skipBlank_append hw]
    rfl
  | @array es b hes => exact passed_array fun depth => ih.elements hes hbehind.paired
  | @emptyObject w hw =>
    rw [List.cons_append, List.append_assoc]
    refine passed_object fun depth => emptied_passMembers_close ?_
    rw [skipBlank_append hw]
    rfl
  | @object ms b hms => exact passed_object fun depth => ih.members hms hbehind.paired

/-- A value, one call deeper. -/
theorem value_succ (ih : PassesUpTo fuel) (hw : Blank w) (hv : v.Spells b)
    (hbehind : Follows behind) :
    Passed behind (passValue (fuel + 1) depth (w ++ (b ++ behind))) := by
  have hfront : Passed behind (passValue (fuel + 1) depth (b ++ behind)) :=
    ih.front_succ hv hbehind
  rw [passValue] at hfront ⊢
  rwa [skipBlank_append hw]

end PassesUpTo

/-- Whatever the bound, the readers pass over values as described. -/
theorem passesUpTo (fuel : Nat) : PassesUpTo fuel := by
  induction fuel with
  | zero => exact .zero
  | succ fuel ih =>
    exact ⟨ih.value_succ, ih.elements_succ, ih.moreElements_succ, ih.members_succ,
      ih.moreMembers_succ, ih.member_succ⟩

/-- Whatever the value, passing over it leads behind it or astray. -/
theorem passAny_landed (hw : Blank w) (hv : v.Spells b) (hbehind : Follows behind) :
    Landed behind (passAny (w ++ (b ++ behind))) :=
  ((passesUpTo _).value hw hv hbehind).landed

/-! ### Values that are looked at -/

/-- The number of seconds that a value denotes. -/
def secondsOf? : Value → Option Nat
  | .number n => seconds? n.numeral
  | _ => none

/-- The number of seconds is the one that the value denotes, and the reading has landed. -/
theorem readSeconds_spells (hw : Blank w) (hv : v.Spells b) (hbehind : Follows behind) :
    ∃ rest, readSeconds (w ++ (b ++ behind)) = (secondsOf? v, rest) ∧ Landed behind rest := by
  rw [readSeconds, skipBlank_append hw]
  cases hv with
  | null => exact ⟨behind, rfl, landed_self behind⟩
  | bool b => cases b <;> exact ⟨behind, rfl, landed_self behind⟩
  | @number n b hn =>
    obtain ⟨c, tail, heq, hskip, hc, hnull, htrue, hfalse, hquote, hsquare, hcurly⟩ :=
      skipBlank_number_ne hn behind
    rw [hskip]
    simp only [hnull, htrue, hfalse, hquote, hsquare, hcurly, hc, if_true, if_false]
    rw [← heq]
    rcases scanNumeral_spells hn hbehind.stops with hscan | ⟨rest, hscan, hrange, hrest⟩
    · rw [hscan]
      exact ⟨behind, rfl, landed_self behind⟩
    · rw [hscan, secondsOf?, hrange]
      exact ⟨rest, rfl, hrest⟩
  | @string raw hraw =>
    rw [List.cons_append, List.append_assoc, skipBlank_cons (by decide)]
    refine ⟨_, rfl, ?_⟩
    rcases readString_place hraw hbehind.paired with ⟨s, -, hread⟩ | ⟨rest, hread, -, hrest⟩
    · rw [List.singleton_append, hread]
      exact landed_self behind
    · rw [List.singleton_append, hread]
      exact hrest.elim (fun heq => heq ▸ landed_self behind) fun h => .inr (.inQuotes h)
  | @emptyArray w hw =>
    rw [List.cons_append, List.append_assoc, skipBlank_cons (by decide)]
    have hclose : Behind .square behind (w ++ ascii ']' :: behind) := .close hw behind
    exact ⟨_, rfl, landed_close (.within (within_single hclose)) .square⟩
  | @array es b hes =>
    rw [List.cons_append, skipBlank_cons (by decide)]
    exact ⟨_, rfl, landed_close (.stuck (hes.stuck behind)) .square⟩
  | @emptyObject w hw =>
    rw [List.cons_append, List.append_assoc, skipBlank_cons (by decide)]
    have hclose : Behind .curly behind (w ++ ascii '\x7d' :: behind) := .close hw behind
    exact ⟨_, rfl, landed_close (.within (within_single hclose)) .curly⟩
  | @object ms b hms =>
    rw [List.cons_append, skipBlank_cons (by decide)]
    exact ⟨_, rfl, landed_close (.stuck (hms.stuck behind)) .curly⟩

/-- A text is found if the value is one, and the reading has landed. -/
theorem readText_spells (hw : Blank w) (hv : v.Spells b) (hbehind : Follows behind) :
    ∃ rest, readText (w ++ (b ++ behind)) = (isText v, rest) ∧ Landed behind rest := by
  rw [readText, skipBlank_append hw]
  have hopened : ∀ {c : UInt8} {rest : Bytes}, c = ascii '[' ∨ c = ascii '\x7b' →
      Landed behind (c :: rest) := by
    rintro c rest (rfl | rfl) <;>
      exact .inr (.stuck (stuck_cons (by decide) (by decide) (by decide) (by decide)))
  cases hv with
  | null => exact ⟨behind, rfl, landed_self behind⟩
  | bool b => cases b <;> exact ⟨behind, rfl, landed_self behind⟩
  | @number n b hn =>
    obtain ⟨c, tail, heq, hskip, hc, hnull, htrue, hfalse, hquote, -, -⟩ :=
      skipBlank_number_ne hn behind
    rw [hskip]
    simp only [hnull, htrue, hfalse, hquote, hc, if_true, if_false]
    rw [← heq]
    refine ⟨_, rfl, ?_⟩
    rcases scanNumeral_spells hn hbehind.stops with hscan | ⟨rest, hscan, -, hrest⟩
    · rw [hscan]
      exact landed_self behind
    · rw [hscan]
      exact hrest
  | @string raw hraw =>
    rw [List.cons_append, List.append_assoc, skipBlank_cons (by decide)]
    simp only [if_true, List.singleton_append, isText, textOfValue?]
    rcases readString_place hraw hbehind.paired with ⟨s, htext, hread⟩ | ⟨rest, hread, htext, hrest⟩
    · rw [hread, htext]
      exact ⟨behind, rfl, landed_self behind⟩
    · rw [hread, htext]
      exact ⟨rest, rfl,
        hrest.elim (fun heq => heq ▸ landed_self behind) fun h => .inr (.inQuotes h)⟩
  | emptyArray =>
    rw [List.cons_append, skipBlank_cons (by decide)]
    exact ⟨_, rfl, hopened (.inl rfl)⟩
  | array =>
    rw [List.cons_append, skipBlank_cons (by decide)]
    exact ⟨_, rfl, hopened (.inl rfl)⟩
  | emptyObject =>
    rw [List.cons_append, skipBlank_cons (by decide)]
    exact ⟨_, rfl, hopened (.inr rfl)⟩
  | object =>
    rw [List.cons_append, skipBlank_cons (by decide)]
    exact ⟨_, rfl, hopened (.inr rfl)⟩

end Passing

end BearerAuth.Token
