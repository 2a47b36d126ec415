import Mathlib
import BearerAuth.Proofs.Service.Steps
import BearerAuth.Proofs.Token.Segments

/-!
# Acceptance

A service with the rules that the library knows reads the claims of a token twice: once while the
token is verified, and once more when the policy has accepted it.  The second reading looks at the
text anew and does not see what the first one found.  This file shows that the two readings never
part: whatever verifies carries exactly the claims for which it was verified.

Main statement: `accepted_iff_verified`.
-/

namespace BearerAuth

variable {σ : Type}

/-! ### The rule that verifies tokens -/

namespace RuleTable

/-- The table of the library answers whether a token is to be believed by verifying it. -/
theorem standard_find?_authenticate (leeway : Duration) :
    (standard leeway).find? .authentication RuleName.authenticate = some (verifies leeway) := by
  simp [standard, find?_register]

/-- The question whether a token is to be believed is passed on to the rule that verifies it. -/
theorem standard_evaluate_authenticate (leeway : Duration) (pem token : String) (now : Clock) :
    (standard leeway).evaluate .authentication RuleName.authenticate
      (.authentication pem token) now = verifies leeway (.authentication pem token) now := by
  simp [evaluate, standard_find?_authenticate, Question.module]

/-- The rule answers yes to the tokens that verify. -/
theorem verifies_answer_eq_ok_true_iff {leeway : Duration} {pem token : String} {now : Clock} :
    (verifies leeway (.authentication pem token) now).answer = .ok true ↔
      ∃ claims, Token.verify token pem leeway now = .ok claims := by
  unfold verifies
  dsimp only
  split
  · rename_i claims hverify
    simp [hverify]
  · rename_i hverify
    simp [hverify]
  · rename_i hverify
    simp [hverify]
  · rename_i reason hverify
    simp [hverify]

/-- The rule breaks off where verifying the token does. -/
theorem verifies_answer_eq_overflow_iff {leeway : Duration} {pem token : String} {now : Clock}
    {reason : Overflow} :
    (verifies leeway (.authentication pem token) now).answer = .error (.overflow reason) ↔
      Token.verify token pem leeway now = .error (.overflow reason) := by
  unfold verifies
  dsimp only
  split
  · rename_i hverify
    simp [hverify]
  · rename_i hverify
    simp [hverify]
  · rename_i hverify
    simp [hverify]
  · rename_i reason hverify
    simp [hverify]

/-- The rule reports nothing about claims. -/
theorem undecodableClaims_notMem_verifies (leeway : Duration) (pem token : String) (now : Clock) :
    Event.undecodableClaims ∉ (verifies leeway (.authentication pem token) now).events := by
  unfold verifies
  dsimp only
  split <;> simp

end RuleTable

namespace AuthService

/-! ### Judging and reading -/

/-- A service with the rules of the library asks the rule that verifies tokens. -/
theorem standard_policy_evaluate (config : AuthConfig) (source : KeySource σ) (pem token : String)
    (now : Clock) :
    (standard config source).policy.evaluate .authentication RuleName.authenticate
      (.authentication pem token) now =
        RuleTable.verifies config.leeway (.authentication pem token) now :=
  RuleTable.standard_evaluate_authenticate config.leeway pem token now

/-- A service with the rules of the library believes a token under a key if the token verifies
under it, and reads the claims for which it verifies. -/
theorem standard_judgeToken_eq_ok_iff {config : AuthConfig} {source : KeySource σ} {now : Clock}
    {pem token : String} {claims : Claims} :
    ((standard config source).judgeToken now pem token).1 = .ok claims ↔
      Token.verify token pem config.leeway now = .ok claims := by
  rw [judgeToken_eq_ok_iff, standard_policy_evaluate, RuleTable.verifies_answer_eq_ok_true_iff]
  constructor
  · rintro ⟨⟨found, hverify⟩, hcarried⟩
    have hfound := Token.carriedClaims_of_verify hverify
    rw [hcarried] at hfound
    obtain rfl : claims = found := Except.ok.inj hfound
    exact hverify
  · intro hverify
    exact ⟨⟨claims, hverify⟩, Token.carriedClaims_of_verify hverify⟩

/-- A service with the rules of the library breaks off where verifying the token does. -/
theorem standard_judgeToken_eq_interrupted_iff {config : AuthConfig} {source : KeySource σ}
    {now : Clock} {pem token : String} {reason : Overflow} :
    ((standard config source).judgeToken now pem token).1 = .interrupted reason ↔
      Token.verify token pem config.leeway now = .error (.overflow reason) := by
  rw [judgeToken_eq_interrupted_iff, standard_policy_evaluate,
    RuleTable.verifies_answer_eq_overflow_iff]

/-- A service with the rules of the library never finds undecodable claims in an accepted token. -/
theorem undecodableClaims_notMem_judgeToken (config : AuthConfig) (source : KeySource σ)
    (now : Clock) (pem token : String) :
    Event.undecodableClaims ∉ ((standard config source).judgeToken now pem token).2 := by
  have hsilent := RuleTable.undecodableClaims_notMem_verifies config.leeway pem token now
  unfold judgeToken
  rw [standard_policy_evaluate]
  dsimp only
  split
  · rename_i hanswer
    obtain ⟨claims, hverify⟩ := RuleTable.verifies_answer_eq_ok_true_iff.mp hanswer
    rw [Token.carriedClaims_of_verify hverify]
    exact hsilent
  · simpa using hsilent
  · exact hsilent
  · simpa using hsilent

/-- A lookup reports nothing about claims. -/
theorem undecodableClaims_notMem_lookup (source : KeySource σ) (fetchBlocked : Bool) (kid : String)
    (s : ServiceState σ) :
    Event.undecodableClaims ∉ (KeyCache.lookup source fetchBlocked kid s).events := by
  rcases KeyCache.lookup_cases source fetchBlocked kid s with ⟨_, -, heq⟩ | ⟨-, -, heq⟩ |
    ⟨_, _, -, -, -, heq⟩ | ⟨_, _, -, -, -, heq⟩ <;> rw [heq] <;> simp

/-- No authentication under the rules of the library reports undecodable claims. -/
theorem undecodableClaims_notMem_authenticate (config : AuthConfig) (source : KeySource σ)
    (around : Surroundings) (bearer : String) (s : ServiceState σ) :
    Event.undecodableClaims ∉
      ((standard config source).authenticate around bearer s).events := by
  rcases authenticate_cases (standard config source) around bearer s with ⟨-, heq⟩ |
    ⟨_, _, -, -, heq⟩ | ⟨_, kid, _, -, -, -, heq⟩ | ⟨token, kid, pem, -, -, -, heq⟩
  · rw [heq]
    simp
  · rw [heq]
    simp
  · rw [heq]
    exact undecodableClaims_notMem_lookup source around.fetchBlocked kid s
  · rw [heq, List.mem_append, not_or]
    exact ⟨undecodableClaims_notMem_lookup source around.fetchBlocked kid s,
      undecodableClaims_notMem_judgeToken config source around.now pem token⟩

/-! ### Main statement -/

/-- Accepting a token and reading its claims are one decision.  Under the rules of the library a
header is accepted with some claims exactly if its token names a key that is supplied and verifies
under that key with these claims; no token verifies with claims other than those that it carries, so
the complaint about undecodable claims in an accepted token is never raised.  Under any policy a
header is accepted exactly if the policy accepts the token under the supplied key, and with the
claims that the token carries. -/
theorem accepted_iff_verified :
    (∀ (config : AuthConfig) (source : KeySource σ) (around : Surroundings) (bearer : String)
        (s : ServiceState σ),
      (∀ claims, ((standard config source).authenticate around bearer s).result = .ok claims ↔
        ∃ token kid pem, bearer = "Bearer " ++ token ∧ ' ' ∉ token.toList ∧
          Token.namedKid token = .ok kid ∧
          KeyCache.Supplies source around.fetchBlocked kid s pem ∧
          Token.verify token pem config.leeway around.now = .ok claims) ∧
      Event.undecodableClaims ∉
        ((standard config source).authenticate around bearer s).events) ∧
    (∀ (token pem : String) (leeway : Duration) (now : Clock),
      (Token.verify token pem leeway now).toOption = none ∨
        (Token.verify token pem leeway now).toOption = (Token.carriedClaims token).toOption) ∧
    (∀ (svc : AuthService σ) (around : Surroundings) (bearer : String) (s : ServiceState σ)
        (claims : Claims),
      (svc.authenticate around bearer s).result = .ok claims ↔
        ∃ token kid pem, bearer = "Bearer " ++ token ∧ ' ' ∉ token.toList ∧
          Token.namedKid token = .ok kid ∧
          KeyCache.Supplies svc.source around.fetchBlocked kid s pem ∧
          (svc.policy.evaluate .authentication RuleName.authenticate
            (.authentication pem token) around.now).answer = .ok true ∧
          Token.carriedClaims token = .ok claims) := by
  refine ⟨fun config source around bearer s => ⟨fun claims => ?_, ?_⟩, ?_, ?_⟩
  · rw [authenticate_result_eq_ok_iff]
    simp only [← judgeToken_eq_ok_iff, standard_judgeToken_eq_ok_iff]
    rfl
  · exact undecodableClaims_notMem_authenticate config source around bearer s
  · intro token pem leeway now
    cases hverify : Token.verify token pem leeway now with
    | error e => exact .inl rfl
    | ok claims =>
      right
      rw [Token.carriedClaims_of_verify hverify]
      rfl
  · intro svc around bearer s claims
    exact authenticate_result_eq_ok_iff

end AuthService

end BearerAuth
