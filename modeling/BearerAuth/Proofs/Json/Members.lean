import Mathlib
import BearerAuth.Proofs.Claims
import BearerAuth.Proofs.Failable
import BearerAuth.Proofs.Json.Soundness
import BearerAuth.Token.Header

/-!
# Members and the places that they fill

Objects are read member by member into a draft, which has a place for each known member.  A place is
filled once.  Which values a draft has found in the end is told here by the list of the values that
the object gives under each name, so that the order of the members no longer matters.

Main statements: `readMembers_cons_eq_ok_iff`, `fills_append` and `membersNamed_perm`.
-/

namespace BearerAuth

open Json (Value Members Elements Fault Written escaped textOf? textOf?_escaped)

/-! ### Single values -/

/-- The value is a string with the text. -/
def Json.Value.IsText (v : Value) (s : String) : Prop :=
  ∃ raw, v = .string raw ∧ textOf? raw = some s

theorem Json.asText_eq_ok_iff {v : Value} {expected s : String} :
    v.asText expected = .ok s ↔ v.IsText s := by
  constructor
  · intro h
    unfold Value.asText at h
    split at h
    · rename_i raw
      split at h
      · rename_i found hfound
        obtain rfl : found = s := Except.ok.inj h
        exact ⟨raw, rfl, hfound⟩
      · cases h
    · cases h
  · rintro ⟨raw, rfl, hraw⟩
    rw [Value.asText, hraw]

/-! ### Reading on -/

/-- Elements that are read to their end are the elements of a closed array. -/
theorem Json.eq_ofList_of_read {β : Type} {step : β → Value → Except Fault β} {b b' : β} :
    ∀ {es : Elements}, es.read step b = .ok b' → ∃ vs, es = .ofList vs
  | .cut, h => by cases h
  | .closed, _ => ⟨[], rfl⟩
  | .cons v es, h => by
    rw [Elements.read] at h
    split at h
    · cases h
    · obtain ⟨vs, rfl⟩ := Json.eq_ofList_of_read h
      exact ⟨v :: vs, rfl⟩

/-- Every element that was passed was read. -/
theorem Json.exists_step_of_read {β : Type} {step : β → Value → Except Fault β} {v : Value} :
    ∀ {es : Elements} {b b' : β}, es.read step b = .ok b' → v ∈ es.toList →
      ∃ a a', step a v = .ok a'
  | .cons w es, b, b', h, hmem => by
    rw [Elements.read] at h
    split at h
    · cases h
    · rename_i a ha
      rcases List.mem_cons.mp hmem with rfl | hmem
      · exact ⟨b, a, ha⟩
      · exact Json.exists_step_of_read h hmem

/-- Members that are read to their end are the members of a closed object. -/
theorem Json.eq_ofList_of_readMembers {β : Type} {step : β → String → Value → Except Fault β}
    {b b' : β} : ∀ {ms : Members}, ms.read step b = .ok b' → ∃ l, ms = .ofList l
  | .cut, h => by cases h
  | .closed, _ => ⟨[], rfl⟩
  | .cons name v ms, h => by
    rw [Members.read] at h
    split at h
    · cases h
    · split at h
      · cases h
      · obtain ⟨l, rfl⟩ := Json.eq_ofList_of_readMembers h
        exact ⟨(name, v) :: l, rfl⟩

/-- Members are read one by one. -/
theorem Json.readMembers_cons_eq_ok_iff {β : Type} {step : β → String → Value → Except Fault β}
    {b b' : β} {m : Bytes × Value} {l : List (Bytes × Value)} :
    (Members.ofList (m :: l)).read step b = .ok b' ↔
      ∃ name, textOf? m.1 = some name ∧
        ∃ middle, step b name m.2 = .ok middle ∧ (Members.ofList l).read step middle = .ok b' := by
  rw [Members.ofList_cons, Members.read]
  cases textOf? m.1 with
  | none => simp
  | some name =>
    dsimp only
    cases hstep : step b name m.2 <;> simp [hstep]

/-! ### Places -/

section Places

variable {α : Type} {Is : Value → α → Prop}

/-- At most one value is given, and it means what is found; if none is given, the default is
found. -/
def GivenOr (Is : Value → α → Prop) (default : α) (vs : List Value) (a : α) : Prop :=
  vs = [] ∧ a = default ∨ ∃ v, vs = [v] ∧ Is v a

/-- A place is filled with what the only value means, or stays as it is where no value is given. -/
def Fills (Is : Value → α → Prop) (place : Option α) (vs : List Value) (place' : Option α) : Prop :=
  vs = [] ∧ place' = place ∨ place = none ∧ ∃ v a, vs = [v] ∧ Is v a ∧ place' = some a

theorem fills_nil {place place' : Option α} : Fills Is place [] place' ↔ place' = place := by
  simp [Fills]

/-- A value in front is the only one, and finds the place free. -/
theorem fills_cons {v : Value} {vs : List Value} {place place' : Option α} :
    Fills Is place (v :: vs) place' ↔
      place = none ∧ ∃ a, Is v a ∧ Fills Is (some a) vs place' := by
  constructor
  · rintro (⟨hnil, -⟩ | ⟨rfl, w, a, hw, ha, rfl⟩)
    · cases hnil
    · obtain ⟨rfl, rfl⟩ := List.cons.inj hw
      exact ⟨rfl, a, ha, .inl ⟨rfl, rfl⟩⟩
  · rintro ⟨rfl, a, ha, ⟨rfl, rfl⟩ | ⟨hnone, -⟩⟩
    · exact .inr ⟨rfl, v, a, rfl, ha, rfl⟩
    · cases hnone

/-- A place is filled if it is free and the value is read. -/
theorem fill_eq_ok_iff {name : String} {place place' : Option α} {value : Except Fault α} :
    fill name place value = .ok place' ↔ place = none ∧ ∃ a, value = .ok a ∧ place' = some a := by
  cases place with
  | some a =>
    constructor
    · intro h
      cases h
    · rintro ⟨hnone, -⟩
      cases hnone
  | none =>
    cases value with
    | error fault =>
      constructor
      · intro h
        cases h
      · rintro ⟨-, a, ha, -⟩
        cases ha
    | ok a =>
      constructor
      · intro h
        exact ⟨rfl, a, rfl, (Except.ok.inj h).symm⟩
      · rintro ⟨-, b, hb, rfl⟩
        obtain rfl := Except.ok.inj hb
        rfl

/-- A place is filled and stored away. -/
theorem fill_bind_eq_ok_iff {β : Type} {name : String} {place : Option α} {v : Value}
    {value : Except Fault α} (hvalue : ∀ a, value = .ok a ↔ Is v a) {store : Option α → β} {b : β} :
    (fill name place value >>= fun place => .ok (store place)) = .ok b ↔
      place = none ∧ ∃ a, Is v a ∧ b = store (some a) := by
  rw [Except.bind_eq_ok_iff]
  constructor
  · rintro ⟨place', hfill, h⟩
    obtain ⟨hfree, a, ha, rfl⟩ := fill_eq_ok_iff.mp hfill
    exact ⟨hfree, a, (hvalue a).mp ha, (Except.ok.inj h).symm⟩
  · rintro ⟨hfree, a, ha, rfl⟩
    exact ⟨some a, fill_eq_ok_iff.mpr ⟨hfree, a, (hvalue a).mpr ha, rfl⟩, rfl⟩

/-- A single value fills a place that is free. -/
theorem fills_singleton {v : Value} {place place' : Option α} :
    Fills Is place [v] place' ↔ place = none ∧ ∃ a, Is v a ∧ place' = some a := by
  simp only [fills_cons, fills_nil]

/-- Values are given in two parts, one after the other. -/
theorem fills_append {vs ws : List Value} {place place' : Option α} :
    Fills Is place (vs ++ ws) place' ↔
      ∃ middle, Fills Is place vs middle ∧ Fills Is middle ws place' := by
  induction vs generalizing place with
  | nil => simp only [List.nil_append, fills_nil, exists_eq_left]
  | cons v vs ih =>
    simp only [List.cons_append, fills_cons, ih]
    constructor
    · rintro ⟨hfree, a, ha, middle, hvs, hws⟩
      exact ⟨middle, ⟨hfree, a, ha, hvs⟩, hws⟩
    · rintro ⟨middle, ⟨hfree, a, ha, hvs⟩, hws⟩
      exact ⟨hfree, a, ha, middle, hvs, hws⟩

/-- A place that was free holds something if one value is given. -/
theorem fills_none_some_iff {vs : List Value} {a : α} :
    Fills Is none vs (some a) ↔ ∃ v, vs = [v] ∧ Is v a := by
  constructor
  · rintro (⟨-, hnone⟩ | ⟨-, v, b, hv, hb, hsome⟩)
    · cases hnone
    · obtain rfl := Option.some.inj hsome
      exact ⟨v, hv, hb⟩
  · rintro ⟨v, hv, ha⟩
    exact .inr ⟨rfl, v, a, hv, ha, rfl⟩

/-- The order of the values does not matter, because there is one of them at most. -/
theorem GivenOr.perm {default a : α} {vs ws : List Value} (h : GivenOr Is default vs a)
    (hperm : vs.Perm ws) : GivenOr Is default ws a := by
  rcases h with ⟨rfl, rfl⟩ | ⟨v, rfl, ha⟩
  · exact .inl ⟨List.nil_perm.mp hperm, rfl⟩
  · exact .inr ⟨v, (List.singleton_perm.mp hperm).symm, ha⟩

/-- What is in a place that was free, or the default. -/
theorem exists_fills_iff {default a : α} {vs : List Value} :
    (∃ place, Fills Is none vs place ∧ place.getD default = a) ↔ GivenOr Is default vs a := by
  constructor
  · rintro ⟨place, ⟨rfl, rfl⟩ | ⟨-, v, b, rfl, hb, rfl⟩, rfl⟩
    · exact .inl ⟨rfl, rfl⟩
    · exact .inr ⟨v, rfl, hb⟩
  · rintro (⟨rfl, rfl⟩ | ⟨v, rfl, ha⟩)
    · exact ⟨none, .inl ⟨rfl, rfl⟩, rfl⟩
    · exact ⟨some a, .inr ⟨rfl, v, a, rfl, ha, rfl⟩, rfl⟩

end Places

/-! ### The values under a name -/

namespace Token

/-- The members of a closed object are those that were listed. -/
theorem toList_ofList (members : List (Bytes × Value)) :
    (Members.ofList members).toList = members := by
  induction members with
  | nil => rfl
  | cons m members ih => rw [Members.ofList_cons, Members.toList, ih]

/-- A member stands in front of the others with its name. -/
theorem membersNamed_cons (name : String) (m : Bytes × Value) (members : List (Bytes × Value)) :
    membersNamed name (.ofList (m :: members)) =
      if textOf? m.1 = some name then m.2 :: membersNamed name (.ofList members)
      else membersNamed name (.ofList members) := by
  rw [membersNamed, Members.ofList_cons, Members.toList, List.filter_cons]
  split
  · rename_i h
    rw [if_pos (by simpa using h)]
    rfl
  · rename_i h
    rw [if_neg (by simpa using h)]
    rfl

/-- The value of a member, if it has the name. -/
def given (name other : String) (v : Value) : List Value :=
  if other = name then [v] else []

@[simp] theorem given_self (name : String) (v : Value) : given name name v = [v] := if_pos rfl

theorem given_of_ne {name other : String} (h : other ≠ name) (v : Value) :
    given name other v = [] := if_neg h

/-- A member gives its value to its own name. -/
theorem membersNamed_cons_of_text {m : Bytes × Value} {other : String}
    (h : textOf? m.1 = some other) (name : String) (members : List (Bytes × Value)) :
    membersNamed name (.ofList (m :: members)) =
      given name other m.2 ++ membersNamed name (.ofList members) := by
  rw [membersNamed_cons, h]
  by_cases hname : other = name
  · rw [if_pos (by rw [hname]), hname, given_self]
    rfl
  · rw [if_neg fun heq => hname (Option.some.inj heq), given_of_ne hname]
    rfl

/-- Members in another order give the same values in another order. -/
theorem membersNamed_perm {members members' : List (Bytes × Value)} (h : members.Perm members')
    (name : String) :
    (membersNamed name (.ofList members)).Perm (membersNamed name (.ofList members')) := by
  rw [membersNamed, membersNamed, toList_ofList, toList_ofList]
  exact (h.filter _).map _

/-- Members in two parts give their values one part after the other. -/
theorem membersNamed_append (name : String) (front back : List (Bytes × Value)) :
    membersNamed name (.ofList (front ++ back)) =
      membersNamed name (.ofList front) ++ membersNamed name (.ofList back) := by
  simp only [membersNamed, toList_ofList, List.filter_append, List.map_append]

end Token

/-! ### Printed values and members -/

/-- A printed text is a document of the value that it spells. -/
theorem Json.Written.spellsDocument (w : Written) : w.value.SpellsDocument (utf8 w.text) :=
  ⟨[], utf8 w.text, [], Json.blank_nil, w.spells, Json.blank_nil, by simp⟩

/-- A printed string is a string with its text. -/
theorem Json.Written.isText_ofText (s : String) : (Written.ofText s).value.IsText s :=
  ⟨escaped s, rfl, textOf?_escaped s⟩

theorem Json.Written.membersNamed_nil (name : String) :
    Token.membersNamed name (.ofList ([].map Written.memberValue)) = [] := rfl

/-- A printed member is among those with its name, and not among others. -/
theorem Json.Written.membersNamed_object (name : String) (m : String × Written)
    (ms : List (String × Written)) :
    Token.membersNamed name (.ofList ((m :: ms).map Written.memberValue)) =
      if m.1 = name then m.2.value :: Token.membersNamed name (.ofList (ms.map Written.memberValue))
      else Token.membersNamed name (.ofList (ms.map Written.memberValue)) := by
  rw [List.map_cons, Token.membersNamed_cons, Written.memberValue, textOf?_escaped]
  simp only [Option.some.injEq]

end BearerAuth
