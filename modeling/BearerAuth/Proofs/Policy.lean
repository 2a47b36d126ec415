import Mathlib
import BearerAuth.Policy

/-!
# Histories of registrations

A table of rules is built by registrations, one after the other, on the table without rules or on
the rules that the library knows.  The table keeps no record of them: a registration replaces what
an earlier one put under the same name of the same module.  What the table answers is therefore told
here by the whole history, and the history by the last registration for a name of a module.

Main statements: `RuleTable.find?_registerAll_eq_some_iff` says which rule a history
leaves under a name, and `RuleTable.AgreesWithin.evaluate` that no rule is asked what is
meant for the other module.
-/

namespace BearerAuth

/-- A rule put under a name of a module. -/
structure Registration where
  module : RuleModule
  name : String
  rule : Rule

namespace Registration

/-- The registration is for the name in the module. -/
def IsFor (module : RuleModule) (name : String) (reg : Registration) : Prop :=
  reg.module = module ∧ reg.name = name

instance (module : RuleModule) (name : String) : DecidablePred (IsFor module name) :=
  fun reg => inferInstanceAs (Decidable (reg.module = module ∧ reg.name = name))

/-- The last registration for a name in a module is the one of this rule. -/
def IsLast (history : List Registration) (module : RuleModule) (name : String) (rule : Rule) :
    Prop :=
  ∃ front back, history = front ++ ⟨module, name, rule⟩ :: back ∧
    ∀ reg ∈ back, ¬ reg.IsFor module name

/-- Two registrations for the same name, of rules that answer alike what is asked of their
module. -/
structure AgreesWithin (a b : Registration) : Prop where
  module : a.module = b.module
  name : a.name = b.name
  rule : ∀ question now, question.module = a.module → a.rule question now = b.rule question now

variable {history : List Registration} {reg : Registration} {m : RuleModule} {n : String}
  {rule : Rule}

/-- A registration for the name is the last one for it. -/
theorem isLast_append_of_isFor (h : reg.IsFor m n) :
    IsLast (history ++ [reg]) m n rule ↔ reg.rule = rule := by
  obtain ⟨rfl, rfl⟩ := h
  constructor
  · rintro ⟨front, back, heq, hback⟩
    rcases List.eq_nil_or_concat' back with rfl | ⟨back, last, rfl⟩
    · obtain ⟨-, hreg⟩ := List.append_inj' heq rfl
      rw [List.singleton_inj.mp hreg]
    · -- the last registration of the history would not be for the name
      rw [← List.cons_append, ← List.append_assoc] at heq
      obtain ⟨-, hreg⟩ := List.append_inj' heq rfl
      obtain rfl := List.singleton_inj.mp hreg
      exact absurd ⟨rfl, rfl⟩ (hback reg (by simp))
  · rintro rfl
    exact ⟨history, [], rfl, by simp⟩

/-- A registration for something else leaves the last one for the name. -/
theorem isLast_append_of_not_isFor (h : ¬ reg.IsFor m n) :
    IsLast (history ++ [reg]) m n rule ↔ IsLast history m n rule := by
  constructor
  · rintro ⟨front, back, heq, hback⟩
    rcases List.eq_nil_or_concat' back with rfl | ⟨back, last, rfl⟩
    · obtain ⟨-, hreg⟩ := List.append_inj' heq rfl
      rw [List.singleton_inj.mp hreg] at h
      exact absurd ⟨rfl, rfl⟩ h
    · rw [← List.cons_append, ← List.append_assoc] at heq
      obtain ⟨hhistory, -⟩ := List.append_inj' heq rfl
      exact ⟨front, back, hhistory, fun other hother => hback other (by simp [hother])⟩
  · rintro ⟨front, back, rfl, hback⟩
    refine ⟨front, back ++ [reg], by simp, fun other hother => ?_⟩
    rcases List.mem_append.mp hother with hother | hother
    · exact hback other hother
    · rwa [List.mem_singleton.mp hother]

end Registration

namespace RuleTable

open Registration

/-- Registers rules one after the other. -/
def registerAll (t : RuleTable) (regs : List Registration) : RuleTable :=
  regs.foldl (fun t reg => t.register reg.module reg.name reg.rule) t

theorem registerAll_append (t : RuleTable) (first second : List Registration) :
    t.registerAll (first ++ second) = (t.registerAll first).registerAll second :=
  List.foldl_append

/-! ### Where histories start -/

/-- The tables on which a history may start. -/
inductive Start where
  | empty
  | builtin
  | standard (leeway : Duration)

/-- The table of a start. -/
def Start.table : Start → RuleTable
  | empty => RuleTable.empty
  | builtin => RuleTable.builtin
  | standard leeway => RuleTable.standard leeway

/-- The registrations of the rules that the library knows. -/
def standardRegistrations (leeway : Duration) : List Registration :=
  [⟨.authentication, RuleName.authenticate, verifies leeway⟩,
    ⟨.authorization, RuleName.anyAuthenticated, ofProperty Question.holdsAny⟩,
    ⟨.authorization, RuleName.adminOnly, ofProperty (·.holds .admin)⟩,
    ⟨.authorization, RuleName.userOnly, ofProperty (·.holds .user)⟩,
    ⟨.authorization, RuleName.selfOrAdmin,
      ofProperty fun question => question.holds .admin || question.isSelf⟩]

/-- Everything registered since there was no rule, if a table starts there. -/
def Start.history : Start → List Registration → List Registration
  | empty, regs => regs
  | builtin, regs => standardRegistrations Duration.zero ++ regs
  | standard leeway, regs => standardRegistrations leeway ++ regs

/-- The table after registrations. -/
def Start.after (start : Start) (regs : List Registration) : RuleTable :=
  start.table.registerAll regs

/-- A start is itself the result of registrations. -/
theorem Start.after_eq (start : Start) (regs : List Registration) :
    start.after regs = RuleTable.empty.registerAll (start.history regs) := by
  cases start with
  | empty => rfl
  | builtin => exact (registerAll_append _ (standardRegistrations Duration.zero) regs).symm
  | standard leeway => exact (registerAll_append _ (standardRegistrations leeway) regs).symm

/-! ### What is found -/

variable {history : List Registration} {m : RuleModule} {n : String} {rule : Rule}
  {question : Question} {now : Clock}

/-- What one more registration changes. -/
theorem find?_registerAll_append (history : List Registration) (reg : Registration)
    (m : RuleModule) (n : String) :
    (empty.registerAll (history ++ [reg])).find? m n =
      if reg.IsFor m n then some reg.rule else (empty.registerAll history).find? m n := by
  rw [registerAll_append]
  change ((empty.registerAll history).register reg.module reg.name reg.rule).find? m n = _
  rw [find?_register]
  exact if_congr (and_congr eq_comm eq_comm) rfl rfl

/-- The rule found under a name is the one registered last. -/
theorem find?_registerAll_eq_some_iff :
    (empty.registerAll history).find? m n = some rule ↔ IsLast history m n rule := by
  induction history using List.reverseRecOn with
  | nil =>
    constructor
    · intro h
      cases m <;> cases h
    · rintro ⟨front, back, heq, -⟩
      exact absurd heq (by simp)
  | append_singleton history reg ih =>
    rw [find?_registerAll_append]
    by_cases h : reg.IsFor m n
    · rw [if_pos h, isLast_append_of_isFor h, Option.some.injEq]
    · rw [if_neg h, isLast_append_of_not_isFor h, ih]

/-- Nothing is found under a name for which nothing was registered. -/
theorem find?_registerAll_eq_none_iff :
    (empty.registerAll history).find? m n = none ↔ ∀ reg ∈ history, ¬ reg.IsFor m n := by
  induction history using List.reverseRecOn with
  | nil => cases m <;> simp [registerAll, find?, rules, empty]
  | append_singleton history reg ih =>
    rw [find?_registerAll_append]
    by_cases h : reg.IsFor m n
    · rw [if_pos h]
      simp [h]
    · rw [if_neg h, ih]
      simp only [List.mem_append, List.mem_singleton, or_imp, forall_and, forall_eq]
      exact ⟨fun hhistory => ⟨hhistory, h⟩, fun hhistory => hhistory.1⟩

/-- A name is registered if some registration is for it. -/
theorem contains_registerAll_iff :
    (empty.registerAll history).contains m n ↔ ∃ reg ∈ history, reg.IsFor m n := by
  change ((empty.registerAll history).find? m n).isSome = true ↔ _
  rw [Option.isSome_iff_ne_none, ne_eq, find?_registerAll_eq_none_iff]
  push Not
  rfl

/-- The names of a module are those registered in it. -/
theorem mem_names_iff (t : RuleTable) (m : RuleModule) (n : String) :
    n ∈ t.names m ↔ t.contains m n :=
  Registry.mem_names_iff _ n

theorem names_sorted (t : RuleTable) (m : RuleModule) : (t.names m).Pairwise (· < ·) :=
  Registry.names_sorted _

/-! ### What is asked -/

/-- A table answers by what it finds. -/
theorem evaluate_of_find? {t : RuleTable} (h : t.find? m n = some rule) :
    t.evaluate m n question now =
      if question.module = m then rule question now
      else Ruling.silent (.error (.wrongModule m n)) := by
  rw [evaluate, h]

/-- Nothing registered answers nothing. -/
theorem evaluate_of_find?_eq_none {t : RuleTable} (h : t.find? m n = none) :
    t.evaluate m n question now = Ruling.silent (.error (.unknownRule m n)) := by
  rw [evaluate, h]

/-- A table says yes by a rule that says yes to a question of its module. -/
theorem answer_evaluate_eq_ok_true_iff {t : RuleTable} :
    (t.evaluate m n question now).answer = .ok true ↔
      question.module = m ∧
        ∃ rule, t.find? m n = some rule ∧ (rule question now).answer = .ok true := by
  cases h : t.find? m n with
  | none =>
    rw [evaluate_of_find?_eq_none h]
    simp [Ruling.silent]
  | some rule =>
    rw [evaluate_of_find? h]
    by_cases hmodule : question.module = m
    · simp [hmodule]
    · simp [hmodule, Ruling.silent]

/-- Only the registrations for a name count under it. -/
theorem find?_registerAll_filter (history : List Registration) (m : RuleModule) (n : String) :
    (empty.registerAll (history.filter (·.IsFor m n))).find? m n =
      (empty.registerAll history).find? m n := by
  induction history using List.reverseRecOn with
  | nil => rfl
  | append_singleton history reg ih =>
    rw [List.filter_append, find?_registerAll_append]
    by_cases h : reg.IsFor m n
    · rw [List.filter_cons_of_pos (by simpa using h), List.filter_nil, find?_registerAll_append,
        if_pos h, if_pos h]
    · rw [List.filter_cons_of_neg (by simpa using h), List.filter_nil, List.append_nil, ih,
        if_neg h]

/-! ### What no rule sees -/

/-- Under every name the tables find rules that answer alike what is asked of the module, or both
find none. -/
def AgreesWithin (t t' : RuleTable) : Prop :=
  ∀ m n, Option.Rel (fun rule rule' : Rule =>
    ∀ question now, question.module = m → rule question now = rule' question now)
    (t.find? m n) (t'.find? m n)

/-- The table without rules agrees with itself. -/
theorem agreesWithin_empty : empty.AgreesWithin empty := by
  intro m n
  cases m <;> exact .none

/-- Tables that agree still do so when rules that agree are registered under the same name. -/
theorem AgreesWithin.register {t t' : RuleTable} {reg reg' : Registration} (h : t.AgreesWithin t')
    (hreg : reg.AgreesWithin reg') :
    (t.register reg.module reg.name reg.rule).AgreesWithin
      (t'.register reg'.module reg'.name reg'.rule) := by
  intro m n
  rw [find?_register, find?_register, ← hreg.module, ← hreg.name]
  by_cases hfor : m = reg.module ∧ n = reg.name
  · rw [if_pos hfor, if_pos hfor, hfor.1]
    exact .some hreg.rule
  · rw [if_neg hfor, if_neg hfor]
    exact h m n

/-- Histories that agree lead to tables that agree. -/
theorem AgreesWithin.registerAll {t t' : RuleTable} {history history' : List Registration}
    (h : t.AgreesWithin t')
    (hhistory : List.Forall₂ Registration.AgreesWithin history history') :
    (t.registerAll history).AgreesWithin (t'.registerAll history') := by
  induction hhistory generalizing t t' with
  | nil => exact h
  | cons hreg _ ih => exact ih (h.register hreg)

/-- A question is only put to rules of its own module: what a rule would say to any other is never
seen. -/
theorem AgreesWithin.evaluate {t t' : RuleTable} (h : t.AgreesWithin t') (m : RuleModule)
    (n : String) (question : Question) (now : Clock) :
    t.evaluate m n question now = t'.evaluate m n question now := by
  have hfound := h m n
  generalize hrule : t.find? m n = found at hfound
  generalize hrule' : t'.find? m n = found' at hfound
  cases hfound with
  | none => rw [evaluate_of_find?_eq_none hrule, evaluate_of_find?_eq_none hrule']
  | some hagree =>
    rw [evaluate_of_find? hrule, evaluate_of_find? hrule']
    split
    · rename_i hmodule
      exact hagree question now hmodule
    · rfl

end RuleTable

end BearerAuth
