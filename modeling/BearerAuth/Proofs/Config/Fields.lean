import Mathlib
import BearerAuth.Config.Reader
import BearerAuth.Proofs.Json.Members

/-!
# The fields of a configuration

What a document has to hold so that the fields of a configuration are read from it, said without the
reader: an object whose members are the fields, none of them twice and in any order, or an array of
the fields in their order; all but the first may be missing.

Main statement: `AuthConfig.partsOfValue_eq_ok_iff`.
-/

namespace BearerAuth

open Json (Value Members Elements Fault textOf?)

/-! ### Single values -/

/-- The value is a string with the notation of the duration. -/
def Json.Value.IsDuration (v : Value) (d : Duration) : Prop :=
  ∃ s, v.IsText s ∧ Duration.ofNotation? s = some d

/-- The value is an array of strings with the names of the rules, or null if there are none. -/
def Json.Value.HasNames (v : Value) (rules : Option NameSet) : Prop :=
  v = .null ∧ rules = none ∨
    ∃ vs names, v = .array (.ofList vs) ∧ vs.Forall₂ Value.IsText names ∧
      rules = some (NameSet.ofNames names)

theorem Duration.ofValue_eq_ok_iff {v : Value} {d : Duration} :
    Duration.ofValue v = .ok d ↔ v.IsDuration d := by
  rw [Duration.ofValue, Except.bind_eq_ok_iff]
  constructor
  · rintro ⟨s, hs, h⟩
    split at h
    · rename_i found hfound
      obtain rfl : found = d := Except.ok.inj h
      exact ⟨s, Json.asText_eq_ok_iff.mp hs, hfound⟩
    · cases h
  · rintro ⟨s, hs, hd⟩
    refine ⟨s, Json.asText_eq_ok_iff.mpr hs, ?_⟩
    rw [hd]

/-- Names that are read are registered one after the other. -/
theorem NameSet.read_eq_ok_iff {vs : List Value} {s s' : NameSet} :
    (Elements.ofList vs).read (fun s v => return s.insert (← v.asText "a string") ()) s = .ok s' ↔
      ∃ names, vs.Forall₂ Value.IsText names ∧
        s' = names.foldl (fun s name => s.insert name ()) s := by
  induction vs generalizing s with
  | nil =>
    constructor
    · intro h
      exact ⟨[], .nil, (Except.ok.inj h).symm⟩
    · rintro ⟨names, hnames, rfl⟩
      cases hnames
      rfl
  | cons v vs ih =>
    rw [Elements.ofList_cons, Elements.read]
    cases hv : v.asText "a string" with
    | error fault =>
      constructor
      · intro h
        cases h
      · rintro ⟨names, hnames, -⟩
        cases hnames with
        | cons hname _ =>
          rw [Json.asText_eq_ok_iff.mpr hname] at hv
          cases hv
    | ok name =>
      have hname := Json.asText_eq_ok_iff.mp hv
      refine ih.trans ?_
      constructor
      · rintro ⟨names, hnames, rfl⟩
        exact ⟨name :: names, .cons hname hnames, rfl⟩
      · rintro ⟨names, hnames, rfl⟩
        cases hnames with
        | cons hother hnames =>
          rw [Json.asText_eq_ok_iff.mpr hother] at hv
          obtain rfl := Except.ok.inj hv
          exact ⟨_, hnames, rfl⟩

theorem NameSet.ofNames_eq_foldl (names : List String) :
    NameSet.ofNames names = names.foldl (fun s name => s.insert name ()) Registry.empty := by
  rw [NameSet.ofNames, Registry.ofList, List.foldl_map]

theorem NameSet.ofValue_eq_ok_iff {v : Value} {rules : Option NameSet} :
    NameSet.ofValue v = .ok rules ↔ v.HasNames rules := by
  constructor
  · intro h
    unfold NameSet.ofValue at h
    split at h
    · exact .inl ⟨rfl, (Except.ok.inj h).symm⟩
    · obtain ⟨s, hs, h⟩ := Except.bind_eq_ok_iff.mp h
      obtain ⟨vs, rfl⟩ := Json.eq_ofList_of_read hs
      obtain ⟨names, hnames, rfl⟩ := NameSet.read_eq_ok_iff.mp hs
      refine .inr ⟨vs, names, rfl, hnames, ?_⟩
      rw [NameSet.ofNames_eq_foldl]
      exact (Except.ok.inj h).symm
    · cases h
  · rintro (⟨rfl, rfl⟩ | ⟨vs, names, rfl, hnames, rfl⟩)
    · rfl
    · rw [NameSet.ofValue, NameSet.read_eq_ok_iff.mpr ⟨names, hnames, rfl⟩,
        NameSet.ofNames_eq_foldl]
      rfl

namespace AuthConfig

open Token (membersNamed membersNamed_cons)

/-! ### Members -/

/-- The names of the fields of a configuration. -/
def fieldNames : List String := ["active_kid", "leeway", "rules"]

variable {d d' : Draft} {v : Value}

theorem step_activeKid_eq_ok_iff :
    d.step "active_kid" v = .ok d' ↔
      d.activeKid = none ∧ ∃ kid, v.IsText kid ∧ d' = { d with activeKid := some kid } :=
  fill_bind_eq_ok_iff fun _ => Json.asText_eq_ok_iff

theorem step_leeway_eq_ok_iff :
    d.step "leeway" v = .ok d' ↔
      d.leeway = none ∧ ∃ leeway, v.IsDuration leeway ∧ d' = { d with leeway := some leeway } :=
  fill_bind_eq_ok_iff fun _ => Duration.ofValue_eq_ok_iff

theorem step_rules_eq_ok_iff :
    d.step "rules" v = .ok d' ↔
      d.rules = none ∧ ∃ rules, v.HasNames rules ∧ d' = { d with rules := some rules } :=
  fill_bind_eq_ok_iff fun _ => NameSet.ofValue_eq_ok_iff

/-- A member with another name is refused. -/
theorem step_of_notMem {name : String} (h : name ∉ fieldNames) :
    d.step name v = .error (.unknownField name) := by
  simp only [fieldNames, List.mem_cons, List.not_mem_nil, or_false, not_or] at h
  unfold Draft.step
  split
  · exact absurd rfl h.1
  · exact absurd rfl h.2.1
  · exact absurd rfl h.2.2
  · rfl

/-- Members are read if they are fields, and the values of each field fill its place. -/
theorem read_eq_ok_iff {members : List (Bytes × Value)} :
    (Members.ofList members).read Draft.step d = .ok d' ↔
      (∀ m ∈ members, ∃ name ∈ fieldNames, textOf? m.1 = some name) ∧
      Fills Value.IsText d.activeKid (membersNamed "active_kid" (.ofList members)) d'.activeKid ∧
      Fills Value.IsDuration d.leeway (membersNamed "leeway" (.ofList members)) d'.leeway ∧
      Fills Value.HasNames d.rules (membersNamed "rules" (.ofList members)) d'.rules := by
  induction members generalizing d with
  | nil =>
    have hnone : ∀ name, membersNamed name (.ofList []) = [] := fun name => rfl
    simp only [hnone, fills_nil]
    cases d
    cases d'
    simp [Members.read, eq_comm]
  | cons m members ih =>
    rw [Json.readMembers_cons_eq_ok_iff, List.forall_mem_cons]
    simp only [membersNamed_cons, ih]
    cases hname : textOf? m.1 with
    | none => simp
    | some name =>
      simp only [Option.some.injEq, exists_eq_left', exists_eq_right']
      by_cases hfield : name ∈ fieldNames
      · simp only [hfield, true_and]
        simp only [fieldNames, List.mem_cons, List.not_mem_nil, or_false] at hfield
        -- Only the place of the field itself is filled.
        rcases hfield with rfl | rfl | rfl
        · simp only [step_activeKid_eq_ok_iff, String.reduceEq, if_true, if_false, fills_cons]
          constructor
          · rintro ⟨_, ⟨hfree, kid, hvalue, rfl⟩, hknown, hkid, hleeway, hrules⟩
            exact ⟨hknown, ⟨hfree, kid, hvalue, hkid⟩, hleeway, hrules⟩
          · rintro ⟨hknown, ⟨hfree, kid, hvalue, hkid⟩, hleeway, hrules⟩
            exact ⟨_, ⟨hfree, kid, hvalue, rfl⟩, hknown, hkid, hleeway, hrules⟩
        · simp only [step_leeway_eq_ok_iff, String.reduceEq, if_true, if_false, fills_cons]
          constructor
          · rintro ⟨_, ⟨hfree, leeway, hvalue, rfl⟩, hknown, hkid, hleeway, hrules⟩
            exact ⟨hknown, hkid, ⟨hfree, leeway, hvalue, hleeway⟩, hrules⟩
          · rintro ⟨hknown, hkid, ⟨hfree, leeway, hvalue, hleeway⟩, hrules⟩
            exact ⟨_, ⟨hfree, leeway, hvalue, rfl⟩, hknown, hkid, hleeway, hrules⟩
        · simp only [step_rules_eq_ok_iff, String.reduceEq, if_true, if_false, fills_cons]
          constructor
          · rintro ⟨_, ⟨hfree, rules, hvalue, rfl⟩, hknown, hkid, hleeway, hrules⟩
            exact ⟨hknown, hkid, hleeway, hfree, rules, hvalue, hrules⟩
          · rintro ⟨hknown, hkid, hleeway, hfree, rules, hvalue, hrules⟩
            exact ⟨_, ⟨hfree, rules, hvalue, rfl⟩, hknown, hkid, hleeway, hrules⟩
      · simp [step_of_notMem hfield, hfield]

/-! ### Documents -/

/-- The fields of a configuration are in a value: in an object whose members are the fields, or in
an array of the fields in their order.  A leeway may be missing, and so may the rules. -/
inductive ReadsAs : Value → Parts → Prop
  | object {members : List (Bytes × Value)} {kid : String} {leeway : Duration}
      {rules : Option NameSet}
      (hknown : ∀ m ∈ members, ∃ name ∈ fieldNames, textOf? m.1 = some name)
      (hkid : ∃ v, membersNamed "active_kid" (.ofList members) = [v] ∧ v.IsText kid)
      (hleeway : GivenOr Value.IsDuration Duration.zero
        (membersNamed "leeway" (.ofList members)) leeway)
      (hrules : GivenOr Value.HasNames none (membersNamed "rules" (.ofList members)) rules) :
      ReadsAs (.object (.ofList members)) (kid, leeway, rules)
  | array {v : Value} {vs : List Value} {kid : String} {leeway : Duration}
      {rules : Option NameSet} (hkid : v.IsText kid)
      (hleeway : GivenOr Value.IsDuration Duration.zero vs.head?.toList leeway)
      (hrules : GivenOr Value.HasNames none vs.tail rules) :
      ReadsAs (.array (.ofList (v :: vs))) (kid, leeway, rules)

theorem finish_eq_ok_iff {kid : String} {leeway : Duration} {rules : Option NameSet} :
    d.finish = .ok (kid, leeway, rules) ↔
      d.activeKid = some kid ∧ d.leeway.getD Duration.zero = leeway ∧
        d.rules.getD none = rules := by
  rw [Draft.finish]
  cases d.activeKid with
  | none => simp [require]
  | some found => simp

/-- The fields are read from an object if its members are the fields, none of them twice. -/
theorem partsOfValue_object_eq_ok_iff {ms : Members} {parts : Parts} :
    partsOfValue (.object ms) = .ok parts ↔ ReadsAs (.object ms) parts := by
  obtain ⟨kid, leeway, rules⟩ := parts
  rw [partsOfValue, Except.bind_eq_ok_iff]
  constructor
  · rintro ⟨d, hread, hfinish⟩
    obtain ⟨members, rfl⟩ := Json.eq_ofList_of_readMembers hread
    obtain ⟨hknown, hkid, hleeway, hrules⟩ := read_eq_ok_iff.mp hread
    obtain ⟨hkid', hleeway', hrules'⟩ := finish_eq_ok_iff.mp hfinish
    refine .object hknown ?_ (exists_fills_iff.mp ⟨_, hleeway, hleeway'⟩)
      (exists_fills_iff.mp ⟨_, hrules, hrules'⟩)
    rw [hkid'] at hkid
    rcases hkid with ⟨-, hnone⟩ | ⟨-, v, a, hv, ha, hsome⟩
    · cases hnone
    · obtain rfl := Option.some.inj hsome
      exact ⟨v, hv, ha⟩
  · rintro (⟨hknown, ⟨v, hv, hkid⟩, hleeway, hrules⟩ | _)
    obtain ⟨leewayPlace, hleeway, hleeway'⟩ := exists_fills_iff.mpr hleeway
    obtain ⟨rulesPlace, hrules, hrules'⟩ := exists_fills_iff.mpr hrules
    refine ⟨⟨some kid, leewayPlace, rulesPlace⟩, ?_, finish_eq_ok_iff.mpr ⟨rfl, hleeway', hrules'⟩⟩
    exact read_eq_ok_iff.mpr ⟨hknown, .inr ⟨rfl, v, kid, hv, hkid, rfl⟩, hleeway, hrules⟩

/-- An element is read if there is one and it means something. -/
theorem element_eq_ok_iff {α : Type} {index : Nat} {expected : String}
    {read : Value → Except Fault α} {es rest : Elements} {a : α} :
    element index expected read es = .ok (a, rest) ↔ ∃ v, es = .cons v rest ∧ read v = .ok a := by
  cases es with
  | cut => simp [element, Elements.next]
  | closed => simp [element, Elements.next]
  | cons v es => cases hread : read v <;> simp [element, Elements.next, hread, and_comm]

/-- An array from which the fields are read holds them in order. -/
theorem readsAs_of_partsOfElements {es : Elements} {parts : Parts}
    (h : partsOfElements es = .ok parts) : ReadsAs (.array es) parts := by
  obtain ⟨kid, leeway, rules⟩ := parts
  rw [partsOfElements, Except.bind_eq_ok_iff] at h
  obtain ⟨⟨kid', rest⟩, helement, h⟩ := h
  obtain ⟨v, rfl, hkid⟩ := element_eq_ok_iff.mp helement
  rw [Json.asText_eq_ok_iff] at hkid
  cases rest with
  | cut => cases h
  | closed =>
    cases h
    change ReadsAs (.array (.ofList [v])) _
    exact .array hkid (.inl ⟨rfl, rfl⟩) (.inl ⟨rfl, rfl⟩)
  | cons l rest =>
    simp only [Elements.next, Except.ok_bind] at h
    rw [Except.bind_eq_ok_iff] at h
    obtain ⟨leeway', hleeway, h⟩ := h
    rw [Duration.ofValue_eq_ok_iff] at hleeway
    cases rest with
    | cut => cases h
    | closed =>
      cases h
      change ReadsAs (.array (.ofList [v, l])) _
      exact .array hkid (.inr ⟨l, rfl, hleeway⟩) (.inl ⟨rfl, rfl⟩)
    | cons r rest =>
      simp only [Except.ok_bind] at h
      rw [Except.bind_eq_ok_iff] at h
      obtain ⟨rules', hrules, h⟩ := h
      rw [NameSet.ofValue_eq_ok_iff] at hrules
      cases rest with
      | closed =>
        cases h
        change ReadsAs (.array (.ofList [v, l, r])) _
        exact .array hkid (.inr ⟨l, rfl, hleeway⟩) (.inr ⟨r, rfl, hrules⟩)
      | _ => cases h

/-- The fields are read from an array that holds them in order. -/
theorem partsOfElements_of_readsAs {es : Elements} {parts : Parts}
    (h : ReadsAs (.array es) parts) : partsOfElements es = .ok parts := by
  cases h with
  | array hkid hleeway hrules =>
    rename_i v vs kid leeway rules
    rw [partsOfElements, Elements.ofList_cons,
      element_eq_ok_iff.mpr ⟨v, rfl, Json.asText_eq_ok_iff.mpr hkid⟩, Except.ok_bind]
    dsimp only
    cases vs with
    | nil =>
      obtain ⟨-, rfl⟩ | ⟨l, hl, -⟩ := hleeway
      · obtain ⟨-, rfl⟩ | ⟨r, hr, -⟩ := hrules
        · rfl
        · cases hr
      · cases hl
    | cons l vs =>
      obtain ⟨hl, -⟩ | ⟨_, hl, hleeway⟩ := hleeway
      · cases hl
      · cases hl
        simp only [Elements.ofList_cons, Elements.next, Except.ok_bind,
          Duration.ofValue_eq_ok_iff.mpr hleeway]
        obtain ⟨rfl, rfl⟩ | ⟨r, rfl, hrules⟩ := hrules
        · rfl
        · simp only [Elements.ofList_cons, Except.ok_bind, NameSet.ofValue_eq_ok_iff.mpr hrules]
          rfl

/-- The fields are read from a value exactly if it holds them. -/
theorem partsOfValue_eq_ok_iff {parts : Parts} :
    partsOfValue v = .ok parts ↔ ReadsAs v parts := by
  cases v with
  | object ms => exact partsOfValue_object_eq_ok_iff
  | array es => exact ⟨readsAs_of_partsOfElements, partsOfElements_of_readsAs⟩
  | _ =>
    constructor
    · intro h
      cases h
    · intro h
      cases h

end AuthConfig

end BearerAuth
