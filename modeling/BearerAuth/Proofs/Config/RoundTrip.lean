import Mathlib
import BearerAuth.Proofs.Config.Fields
import BearerAuth.Proofs.Duration.Notation
import BearerAuth.Proofs.Json.Soundness
import BearerAuth.Proofs.Registry

/-!
# Configurations undone

Settings are read back as they were written: any leeway, and rules with any names that rules can
have.  Whatever else holds the fields of settings is read as what `AuthConfig.build` makes of them.

Main statements: `AuthConfig.build_eq_ok_iff`, `AuthConfig.ofJson_toJson` and
`AuthConfig.usable_and_read_back`.
-/

namespace BearerAuth

open Json (Value Written escaped textOf? textOf?_escaped)

/-! ### Sets of names -/

namespace NameSet

theorem find?_ofNames (names : List String) (name : String) :
    (ofNames names).find? name = if name ∈ names then some () else none := by
  rw [ofNames_eq_foldl]
  induction names using List.reverseRecOn with
  | nil => rfl
  | append_singleton names last ih =>
    rw [List.foldl_concat, Registry.find?_insert, ih]
    by_cases hlast : name = last
    · simp [hlast]
    · simp [hlast]

/-- A set is put together again from its names. -/
theorem ofNames_names (s : NameSet) : ofNames s.names = s := by
  refine Registry.ext_find? fun name => ?_
  rw [find?_ofNames]
  split
  · rename_i hmem
    obtain ⟨value, hfind⟩ := Registry.mem_names_iff_exists.mp hmem
    exact hfind.symm
  · rename_i hmem
    cases hfind : s.find? name with
    | none => rfl
    | some value => exact absurd (Registry.mem_names_iff_exists.mpr ⟨value, hfind⟩) hmem

/-- A set of names as it is written. -/
def written (s : NameSet) : Written :=
  Written.array (s.names.map Written.ofText)

theorem hasNames_written (s : NameSet) : s.written.value.HasNames (some s) := by
  refine .inr ⟨_, s.names, rfl, ?_, by rw [ofNames_names]⟩
  rw [List.map_map, List.forall₂_map_left_iff, List.forall₂_same]
  exact fun name _ => Written.isText_ofText name

end NameSet

namespace AuthConfig

variable {kid : String} {leeway : Duration} {rules : Option NameSet} {c : AuthConfig}

/-! ### Building -/

/-- What is built are settings with the fields that were given, and all settings are
built from their fields. -/
theorem build_eq_ok_iff :
    build kid leeway rules = .ok c ↔
      c.activeKid = kid ∧ c.leeway = leeway ∧ c.rules = rules.getD standardRules := by
  constructor
  · intro h
    unfold build at h
    split at h
    · cases h
    · dsimp only at h
      split at h
      · cases h
      · split at h
        · cases h
        · cases h
          exact ⟨rfl, rfl, rfl⟩
  · rintro ⟨rfl, rfl, hrules⟩
    have hsome : (rules.getD standardRules).names ≠ [] := hrules ▸ c.someRule
    have husable : (rules.getD standardRules).names.find? (!RuleName.isUsable ·) = none := by
      rw [← hrules]
      simpa using c.usableRules
    unfold build
    split
    · rename_i fault hfault
      have hvalid : KeyId.check c.activeKid = .ok () := c.validKid
      rw [hfault] at hvalid
      cases hvalid
    · dsimp only
      rw [dif_neg hsome]
      split
      · rename_i bad hbad
        rw [husable] at hbad
        cases hbad
      · cases c
        cases hrules
        rfl

/-- A rule may have a name that is neither empty nor has white space in it. -/
theorem isUsable_iff {name : String} :
    RuleName.isUsable name = true ↔ name ≠ "" ∧ ∀ ch ∈ name.toList, Text.isBlank ch = false := by
  simp [RuleName.isUsable]

/-- Settings are built from a valid key id and some rules with usable names. -/
theorem exists_build_iff :
    (∃ c, build kid leeway rules = .ok c) ↔
      KeyId.check kid = .ok () ∧ (rules.getD standardRules).names ≠ [] ∧
        ∀ name ∈ (rules.getD standardRules).names,
          name ≠ "" ∧ ∀ ch ∈ name.toList, Text.isBlank ch = false := by
  simp only [← isUsable_iff]
  constructor
  · rintro ⟨c, hc⟩
    obtain ⟨rfl, rfl, hrules⟩ := build_eq_ok_iff.mp hc
    rw [← hrules]
    exact ⟨c.validKid, c.someRule, List.all_eq_true.mp c.usableRules⟩
  · rintro ⟨hkid, hsome, husable⟩
    exact ⟨⟨kid, leeway, rules.getD standardRules, hkid, hsome, List.all_eq_true.mpr husable⟩,
      build_eq_ok_iff.mpr ⟨rfl, rfl, rfl⟩⟩

/-! ### Reading -/

/-- A document that holds the fields of settings is read as what is built from them. -/
theorem ofJson_of_readsAs {input : Bytes} {v : Value} (hinput : v.SpellsDocument input)
    (hv : ReadsAs v (kid, leeway, rules)) :
    ofJson input = (build kid leeway rules).mapError .settings := by
  rw [ofJson, Json.ofBytes_eq_whole_iff.mpr hinput]
  dsimp only
  rw [partsOfValue_eq_ok_iff.mpr hv]
  dsimp only
  cases build kid leeway rules <;> rfl

/-- Settings are read from a document that holds their fields, and from no other. -/
theorem ofJson_eq_ok_iff {input : Bytes} :
    ofJson input = .ok c ↔ ∃ v kid leeway rules, v.SpellsDocument input ∧
      ReadsAs v (kid, leeway, rules) ∧ build kid leeway rules = .ok c := by
  constructor
  · intro h
    unfold ofJson at h
    dsimp only at h
    split at h
    · cases h
    · rename_i kid leeway rules hparts
      split at h
      · cases h
      · rename_i found hbuild
        split at h
        · rename_i hcomplete
          obtain rfl := Except.ok.inj h
          refine ⟨_, kid, leeway, rules, Json.ofBytes_eq_whole_iff.mp ?_,
            partsOfValue_eq_ok_iff.mp hparts, hbuild⟩
          rw [← hcomplete]
        · cases h
  · rintro ⟨v, kid, leeway, rules, hinput, hv, hbuild⟩
    rw [ofJson_of_readsAs hinput hv, hbuild]
    rfl

/-! ### Writing -/

/-- The members of settings as they are written. -/
def writtenMembers (c : AuthConfig) : List (String × Written) :=
  [("active_kid", Written.ofText c.activeKid), ("leeway", Written.ofText c.leeway.toNotation),
    ("rules", c.rules.written)]

/-- Settings as they are written. -/
def written (c : AuthConfig) : Written :=
  Written.object c.writtenMembers

theorem written_text (c : AuthConfig) : c.written.text = c.toJson := by
  unfold written Written.object writtenMembers toJson NameSet.written Written.array
  simp only [List.map_cons, List.map_nil, List.map_map]
  rfl

/-- Printed members are fields if their names are. -/
theorem known_of_forall {ms : List (String × Written)} (h : ∀ m ∈ ms, m.1 ∈ fieldNames) :
    ∀ m ∈ ms.map Written.memberValue, ∃ name ∈ fieldNames, textOf? m.1 = some name := by
  intro m hm
  obtain ⟨field, hfield, rfl⟩ := List.mem_map.mp hm
  exact ⟨field.1, h field hfield, textOf?_escaped field.1⟩

/-- What is written of settings holds their fields. -/
theorem readsAs_written (c : AuthConfig) :
    ReadsAs c.written.value (c.activeKid, c.leeway, some c.rules) := by
  refine .object (known_of_forall ?_) ⟨(Written.ofText c.activeKid).value, ?_,
      Written.isText_ofText _⟩
    (.inr ⟨(Written.ofText c.leeway.toNotation).value, ?_, c.leeway.toNotation,
      Written.isText_ofText _, Duration.ofNotation?_toNotation _⟩)
    (.inr ⟨c.rules.written.value, ?_, c.rules.hasNames_written⟩)
  · simp [writtenMembers, fieldNames]
  all_goals
    simp only [writtenMembers, Written.membersNamed_object, Written.membersNamed_nil,
      String.reduceEq,
      if_true, if_false]

/-- Settings are read back as they were written. -/
theorem ofJson_toJson (c : AuthConfig) : ofJson (utf8 c.toJson) = .ok c := by
  rw [← written_text, ofJson_of_readsAs c.written.spellsDocument c.readsAs_written,
    build_eq_ok_iff.mpr ⟨rfl, rfl, rfl⟩]
  rfl

/-- What settings are, and how they are read.  All settings name a valid key id and some rules, with
names that are not empty and without white space.  They are read back as they were written, whatever
their leeway and the names of their rules.  They can be built exactly from such fields, and are
built with the fields that were given.  Settings that are read are built from the fields that a
document holds.  A document that holds fields of settings, in any of its spellings, is read as what
is built from the fields; a refusal of the fields is reported in the same words. -/
theorem usable_and_read_back :
    (∀ c : AuthConfig, KeyId.check c.activeKid = .ok () ∧ c.rules.names ≠ [] ∧
      (∀ name ∈ c.rules.names, name ≠ "" ∧ ∀ ch ∈ name.toList, Text.isBlank ch = false) ∧
      ofJson (utf8 c.toJson) = .ok c) ∧
    (∀ kid leeway rules, (∃ c, build kid leeway rules = .ok c) ↔
      KeyId.check kid = .ok () ∧ (rules.getD standardRules).names ≠ [] ∧
        ∀ name ∈ (rules.getD standardRules).names,
          name ≠ "" ∧ ∀ ch ∈ name.toList, Text.isBlank ch = false) ∧
    (∀ kid leeway rules c, build kid leeway rules = .ok c ↔
      c.activeKid = kid ∧ c.leeway = leeway ∧ c.rules = rules.getD standardRules) ∧
    (∀ input c, ofJson input = .ok c ↔ ∃ v kid leeway rules, v.SpellsDocument input ∧
      ReadsAs v (kid, leeway, rules) ∧ build kid leeway rules = .ok c) ∧
    ∀ (input : Bytes) (v : Value) kid leeway rules, v.SpellsDocument input →
      ReadsAs v (kid, leeway, rules) →
        ofJson input = (build kid leeway rules).mapError .settings ∧
        (ofJson input).mapError ConfigReadFault.message =
          (build kid leeway rules).mapError ConfigFault.message := by
  refine ⟨?_, fun _ _ _ => exists_build_iff, fun _ _ _ _ => build_eq_ok_iff,
    fun _ _ => ofJson_eq_ok_iff, ?_⟩
  · intro c
    refine ⟨c.validKid, c.someRule, ?_, c.ofJson_toJson⟩
    intro name hname
    exact isUsable_iff.mp (List.all_eq_true.mp c.usableRules name hname)
  · intro input v kid leeway rules hinput hv
    rw [ofJson_of_readsAs hinput hv]
    refine ⟨rfl, ?_⟩
    cases build kid leeway rules <;> rfl

/-- A document with a rule that has white space in its name. -/
def blankRule : Written :=
  Written.object [("rules", Written.array [Written.ofText "to do"]),
    ("active_kid", Written.ofText "primary")]

/-- Such a document is refused for the rule, after its fields were read. -/
theorem usable_and_read_back_blank :
    blankRule.value.SpellsDocument (utf8 blankRule.text) ∧
      ReadsAs blankRule.value ("primary", Duration.zero, some (NameSet.ofNames ["to do"])) ∧
      ofJson (utf8 "\x7b\"rules\":[\"to do\"],\"active_kid\":\"primary\"\x7d") =
        .error (.settings (.invalidRuleName "to do")) := by
  have htext : blankRule.text = "\x7b\"rules\":[\"to do\"],\"active_kid\":\"primary\"\x7d" := by
    decide +kernel
  have hreads : ReadsAs blankRule.value
      ("primary", Duration.zero, some (NameSet.ofNames ["to do"])) := by
    refine .object (known_of_forall (by simp [fieldNames])) ⟨(Written.ofText "primary").value, ?_,
        Written.isText_ofText _⟩ (.inl ⟨?_, rfl⟩)
      (.inr ⟨(Written.array [Written.ofText "to do"]).value, ?_, .inr ⟨_, ["to do"], rfl,
        .cons (Written.isText_ofText _) .nil, rfl⟩⟩)
    all_goals
      simp only [Written.membersNamed_object, Written.membersNamed_nil, String.reduceEq, if_true,
        if_false]
  obtain ⟨-, -, -, -, hread⟩ := usable_and_read_back
  have hofJson := (hread _ _ _ _ _ blankRule.spellsDocument hreads).1
  refine ⟨blankRule.spellsDocument, hreads, ?_⟩
  rw [← htext, hofJson]
  decide +kernel

end AuthConfig

end BearerAuth
