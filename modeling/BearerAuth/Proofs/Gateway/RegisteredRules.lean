import Mathlib
import BearerAuth.Proofs.Gateway.SelfAccess
import BearerAuth.Proofs.Policy

/-!
# What registered rules decide

A service over a table of rules says yes where the rule that was registered last says yes, and no
everywhere else: where the rule says no, where it fails, and where there is none.  Routes may use
any rule that the configuration declares, and declaring a rule does not register it, so a route can
be left without one.  Such a route is closed.

Main statement: `last_registration_decides`.
-/

namespace BearerAuth

variable {σ : Type}

/-- A layer for a declared rule asks for that rule. -/
theorem Layer.eq_of_forRule {config : AuthConfig} {rule : String} {layer : Layer}
    (h : Layer.forRule config rule = .ok layer) : layer = .authorize rule := by
  unfold Layer.forRule at h
  cases hrule : config.checkRule rule with
  | error fault =>
    rw [hrule] at h
    cases h
  | ok u =>
    rw [hrule] at h
    exact (Except.ok.inj h).symm

namespace RuleTable

variable {config : AuthConfig} {source : KeySource σ} {t : RuleTable} {now : Clock}
  {claims : Claims} {userId : UserId} {name : String}

/-- The service of a table permits what the rule of that name permits. -/
theorem permits_iff :
    (AuthService.mk config source t.toEvaluator).Permits now claims userId name ↔
      ∃ rule, t.find? .authorization name = some rule ∧
        (rule (.authorization claims.roles claims.subject userId) now).answer = .ok true := by
  change (t.evaluate .authorization name _ now).answer = .ok true ↔ _
  rw [answer_evaluate_eq_ok_true_iff]
  simp [Question.module]

/-- Without a rule of that name nothing is permitted. -/
theorem not_permits_of_find?_eq_none (h : t.find? .authorization name = none) :
    ¬ (AuthService.mk config source t.toEvaluator).Permits now claims userId name := by
  rw [permits_iff, h]
  simp

end RuleTable

/-- A service authorizes what its policy permits. -/
theorem AuthService.authorize_fst_eq_ok_iff {svc : AuthService σ} {now : Clock} {claims : Claims}
    {userId : UserId} {rule : String} :
    (svc.authorize now claims userId rule).1 = .ok () ↔ svc.Permits now claims userId rule := by
  rcases svc.authorize_fst now claims userId rule with ⟨hyes, hok⟩ | ⟨hno, herror⟩
  · exact ⟨fun _ => hyes, fun _ => hok⟩
  · rw [herror]
    exact ⟨nofun, fun hyes => absurd hyes hno⟩

namespace Gateway

variable {svc : AuthService σ} {around : Surroundings} {r : Request} {s : ServiceState σ}
  {c : Context} {rule : String}

/-- Nobody passes the layer of a rule that is never permitted. -/
theorem exists_pass_authorize_eq_error
    (h : ∀ claims userId, ¬ svc.Permits around.now claims userId rule) :
    ∃ rejection, (pass svc around r (.authorize rule) c s).result = .error rejection := by
  cases hclaims : c.claims with
  | none => exact ⟨_, pass_authorize_of_noClaims hclaims⟩
  | some claims =>
    by_cases hread : r.Readable
    · exact ⟨_, pass_authorize_of_not_permits hclaims hread (h claims _)⟩
    · exact ⟨_, pass_authorize_of_unreadable hclaims hread⟩

/-- No request gets through layers of which one turns every request away: it is turned away, or left
without an answer where an authentication layer breaks off. -/
theorem exists_passAll_eq_error {layer : Layer} {layers : List Layer}
    (h : ∀ c s, ∃ rejection, (pass svc around r layer c s).result = .error rejection)
    (hmem : layer ∈ layers) :
    (∃ rejection, (passAll svc around r layers c s).result = .error rejection) ∨
      .authenticate ∈ layers ∧
        ∃ reason, (passAll svc around r layers c s).result = .interrupted reason := by
  induction layers generalizing c s with
  | nil => cases hmem
  | cons first layers ih =>
    cases hfirst : (pass svc around r first c s).result with
    | error rejection => exact .inl ⟨rejection, passAll_cons_of_error hfirst⟩
    | interrupted reason =>
      cases first with
      | authenticate =>
        exact .inr ⟨List.mem_cons_self, reason, passAll_cons_of_interrupted hfirst⟩
      | authorize rule => exact absurd hfirst pass_authorize_ne_interrupted
    | ok c' =>
      rw [passAll_cons_of_ok hfirst rfl]
      rcases List.mem_cons.mp hmem with rfl | hmem
      · -- the first layer lets the request pass, so it is not the one that never does
        obtain ⟨rejection, hrejection⟩ := h c s
        rw [hrejection] at hfirst
        cases hfirst
      · exact (ih hmem).imp_right fun hbroken => ⟨List.mem_cons_of_mem _ hbroken.1, hbroken.2⟩

end Gateway

open Registration in
/-- A table answers by the last registration for a name, and by nothing else. -/
structure AnswersByLast (start : RuleTable.Start) (regs : List Registration) : Prop where
  /-- A name for which nothing was registered is unknown. -/
  unknown : ∀ m n question now, (∀ reg ∈ start.history regs, ¬ reg.IsFor m n) →
    (start.after regs).evaluate m n question now = Ruling.silent (.error (.unknownRule m n))
  /-- The last rule answers what is asked of its module, and is not asked anything else. -/
  last : ∀ m n question now rule, IsLast (start.history regs) m n rule →
    (start.after regs).evaluate m n question now =
      if question.module = m then rule question now
      else Ruling.silent (.error (.wrongModule m n))
  exists_last_iff : ∀ m n, (∃ reg ∈ start.history regs, reg.IsFor m n) ↔
    ∃ rule, IsLast (start.history regs) m n rule
  /-- Registrations for other names or for the other module do not matter. -/
  others : ∀ (start' : RuleTable.Start) regs' m n,
    (start.history regs).filter (·.IsFor m n) = (start'.history regs').filter (·.IsFor m n) →
      ∀ question now, (start.after regs).evaluate m n question now =
        (start'.after regs').evaluate m n question now
  /-- It does not matter what a rule would say to questions for the other module. -/
  unseen : ∀ (start' : RuleTable.Start) regs',
    List.Forall₂ AgreesWithin (start.history regs) (start'.history regs') →
      ∀ m n question now, (start.after regs).evaluate m n question now =
        (start'.after regs').evaluate m n question now
  /-- The names of a module are in order and are those that were registered. -/
  names_sorted : ∀ m, ((start.after regs).names m).Pairwise (· < ·)
  mem_names_iff : ∀ m n, n ∈ (start.after regs).names m ↔ (start.after regs).contains m n
  contains_iff : ∀ m n, (start.after regs).contains m n ↔
    ∃ reg ∈ start.history regs, reg.IsFor m n

/-- A service over a table decides by the last registration for the name of a rule. -/
structure DecidesByLast (start : RuleTable.Start) (regs : List Registration) (config : AuthConfig)
    (source : KeySource σ) (name : String) : Prop where
  /-- What the last rule allows is authorized, and nothing else. -/
  authorize_iff : ∀ now claims target,
    ((AuthService.mk config source (start.after regs).toEvaluator).authorize now claims target
        name).1 = .ok () ↔
      ∃ rule, Registration.IsLast (start.history regs) .authorization name rule ∧
        (rule (.authorization claims.roles claims.subject target) now).answer = .ok true
  /-- What is not authorized is refused without a reason. -/
  authorize_cases : ∀ now claims target,
    ((AuthService.mk config source (start.after regs).toEvaluator).authorize now claims target
        name).1 = .ok () ∨
    ((AuthService.mk config source (start.after regs).toEvaluator).authorize now claims target
        name).1 = .error .authorizationFailed
  /-- A layer for a rule without registration turns every request away. -/
  pass_closed : ∀ layer, Layer.forRule config name = .ok layer →
    (∀ reg ∈ start.history regs, ¬ reg.IsFor .authorization name) → ∀ around r c s, ∃ rejection,
      (Gateway.pass ⟨config, source, (start.after regs).toEvaluator⟩ around r layer c s).result =
        .error rejection
  /-- So does every stack that holds the layer, unless an authentication layer breaks off. -/
  passAll_closed : ∀ layer, Layer.forRule config name = .ok layer →
    (∀ reg ∈ start.history regs, ¬ reg.IsFor .authorization name) →
      ∀ around r c s layers, layer ∈ layers →
        (∃ rejection, (Gateway.passAll ⟨config, source, (start.after regs).toEvaluator⟩ around r
          layers c s).result = .error rejection) ∨
        .authenticate ∈ layers ∧ ∃ reason,
          (Gateway.passAll ⟨config, source, (start.after regs).toEvaluator⟩ around r layers c
            s).result = .interrupted reason

theorem answersByLast (start : RuleTable.Start) (regs : List Registration) :
    AnswersByLast start regs where
  unknown m n question now hnone := by
    rw [start.after_eq]
    exact RuleTable.evaluate_of_find?_eq_none (RuleTable.find?_registerAll_eq_none_iff.mpr hnone)
  last m n question now rule hlast := by
    rw [start.after_eq]
    exact RuleTable.evaluate_of_find? (RuleTable.find?_registerAll_eq_some_iff.mpr hlast)
  exists_last_iff m n := by
    simp only [← RuleTable.find?_registerAll_eq_some_iff, ← RuleTable.contains_registerAll_iff]
    exact Option.isSome_iff_exists
  others start' regs' m n hfilter question now := by
    rw [start.after_eq, start'.after_eq, RuleTable.evaluate, RuleTable.evaluate,
      ← RuleTable.find?_registerAll_filter, hfilter, RuleTable.find?_registerAll_filter]
  unseen start' regs' hagree m n question now := by
    rw [start.after_eq, start'.after_eq]
    exact (RuleTable.agreesWithin_empty.registerAll hagree).evaluate m n question now
  names_sorted m := RuleTable.names_sorted _ m
  mem_names_iff m n := RuleTable.mem_names_iff _ m n
  contains_iff m n := by
    rw [start.after_eq]
    exact RuleTable.contains_registerAll_iff

/-- Without a registration nobody is permitted to do anything under a name. -/
theorem not_permits_of_unregistered {start : RuleTable.Start} {regs : List Registration}
    {config : AuthConfig} {source : KeySource σ} {name : String} {now : Clock}
    (hnone : ∀ reg ∈ start.history regs, ¬ reg.IsFor .authorization name) (claims : Claims)
    (userId : UserId) :
    ¬ (AuthService.mk config source (start.after regs).toEvaluator).Permits now claims userId
      name := by
  rw [start.after_eq]
  exact RuleTable.not_permits_of_find?_eq_none (RuleTable.find?_registerAll_eq_none_iff.mpr hnone)

theorem decidesByLast (start : RuleTable.Start) (regs : List Registration) (config : AuthConfig)
    (source : KeySource σ) (name : String) : DecidesByLast start regs config source name where
  authorize_iff now claims target := by
    rw [start.after_eq]
    simp only [AuthService.authorize_fst_eq_ok_iff, RuleTable.permits_iff,
      RuleTable.find?_registerAll_eq_some_iff]
  authorize_cases now claims target :=
    (AuthService.authorize_fst _ now claims target name).imp And.right And.right
  pass_closed layer hlayer hnone around r c s := by
    obtain rfl := Layer.eq_of_forRule hlayer
    exact Gateway.exists_pass_authorize_eq_error (not_permits_of_unregistered hnone)
  passAll_closed layer hlayer hnone around r c s layers hmem := by
    obtain rfl := Layer.eq_of_forRule hlayer
    exact Gateway.exists_passAll_eq_error (fun c s =>
      Gateway.exists_pass_authorize_eq_error (not_permits_of_unregistered hnone)) hmem

/-- The last registration decides: about what a table answers, and about what a service over the
table authorizes and lets through. -/
theorem last_registration_decides (start : RuleTable.Start) (regs : List Registration) :
    AnswersByLast start regs ∧
      ∀ {σ : Type} (config : AuthConfig) (source : KeySource σ) (name : String),
        DecidesByLast start regs config source name :=
  ⟨answersByLast start regs, decidesByLast start regs⟩

/-- A rule that says no, in its place one that says yes to everything, and one that says no under
the same name of the other module. -/
def replacedRule : List Registration :=
  [⟨.authorization, RuleName.adminOnly, RuleTable.ofProperty fun _ => false⟩,
    ⟨.authorization, RuleName.adminOnly, RuleTable.ofProperty fun _ => true⟩,
    ⟨.authentication, RuleName.adminOnly, RuleTable.ofProperty fun _ => false⟩]

/-- A user may do what the last rule allows, a rule of one module says nothing to a question for the
other, and the layer of a declared rule that was never registered is closed. -/
theorem last_registration_decides_of_replaced :
    (Registration.IsLast (RuleTable.Start.empty.history replacedRule) .authorization
        RuleName.adminOnly (RuleTable.ofProperty fun _ => true) ∧
      ((AuthService.mk Fixtures.config KeyStore.source
        (RuleTable.Start.empty.after replacedRule).toEvaluator).authorize 1700000000
          (Fixtures.freshUserClaims 1700000000) UserId.nil RuleName.adminOnly).1 = .ok ()) ∧
    (RuleTable.Start.empty.after replacedRule).evaluate .authorization RuleName.adminOnly
        (.authentication "" "") 1700000000 =
      Ruling.silent (.error (.wrongModule .authorization RuleName.adminOnly)) ∧
    (RuleTable.Start.empty.after replacedRule).evaluate .authorization RuleName.userOnly
        (.authorization ⟨false, true⟩ UserId.nil UserId.nil) 1700000000 =
      Ruling.silent (.error (.unknownRule .authorization RuleName.userOnly)) ∧
    Layer.forRule Fixtures.config RuleName.userOnly = .ok (.authorize RuleName.userOnly) ∧
    ∃ rejection, (Gateway.passAll ⟨Fixtures.config, KeyStore.source,
      (RuleTable.Start.empty.after replacedRule).toEvaluator⟩ ⟨1700000000, false⟩ ⟨[], .decoded []⟩
        [.authorize RuleName.userOnly] ⟨some (Fixtures.freshUserClaims 1700000000), none⟩
        (AuthService.start KeyStore.empty)).result = .error rejection := by
  have hlast : Registration.IsLast (RuleTable.Start.empty.history replacedRule) .authorization
      RuleName.adminOnly (RuleTable.ofProperty fun _ => true) :=
    ⟨[_], [_], rfl, by simp [Registration.IsFor]⟩
  have hnone : ∀ reg ∈ RuleTable.Start.empty.history replacedRule,
      ¬ reg.IsFor .authorization RuleName.userOnly := by
    simp [RuleTable.Start.history, replacedRule, Registration.IsFor, RuleName.adminOnly,
      RuleName.userOnly]
  have hdeclared : Layer.forRule Fixtures.config RuleName.userOnly =
      .ok (.authorize RuleName.userOnly) := by decide +kernel
  obtain ⟨hanswers, hdecides⟩ := last_registration_decides RuleTable.Start.empty replacedRule
  have hwrong := hanswers.last .authorization RuleName.adminOnly (.authentication "" "")
    1700000000 _ hlast
  have hunknown := hanswers.unknown .authorization RuleName.userOnly
    (.authorization ⟨false, true⟩ UserId.nil UserId.nil) 1700000000 hnone
  have hauthorize := (hdecides Fixtures.config KeyStore.source RuleName.adminOnly).authorize_iff
    1700000000 (Fixtures.freshUserClaims 1700000000) UserId.nil
  have hclosed := (hdecides Fixtures.config KeyStore.source RuleName.userOnly).passAll_closed _
    hdeclared hnone ⟨1700000000, false⟩ ⟨[], .decoded []⟩
    ⟨some (Fixtures.freshUserClaims 1700000000), none⟩ (AuthService.start KeyStore.empty)
    [.authorize RuleName.userOnly] List.mem_cons_self
  refine ⟨⟨hlast, hauthorize.mpr ⟨_, hlast, rfl⟩⟩, hwrong, hunknown, hdeclared, ?_⟩
  exact hclosed.resolve_right fun hbroken => absurd hbroken.1 (by decide)

end BearerAuth
