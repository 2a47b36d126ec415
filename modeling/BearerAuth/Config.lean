import BearerAuth.Duration.Notation
import BearerAuth.Json.Printer
import BearerAuth.Registry
import BearerAuth.Text.Blank
import BearerAuth.Text.Quoted
import BearerAuth.Token.Fault

/-!
# Configurations

The settings of a service: the key id under which it signs, the difference between clocks that it
tolerates, and the authorization rules that routes may use.  What makes settings usable is part of
their type, and `AuthConfig.build` is the only way to them.
-/

namespace BearerAuth

/-- Why settings are refused. -/
inductive ConfigFault where
  | invalidActiveKid (fault : KeyId.Fault)
  /-- No authorization rules are declared. -/
  | emptyRules
  /-- A declared rule has an empty name or one with white space in it. -/
  | invalidRuleName (rule : String)
  /-- A route uses a rule that is not declared. -/
  | undeclaredRule (rule : String)
deriving DecidableEq, Repr

/-- The wording of a refusal. -/
def ConfigFault.message : ConfigFault → String
  | invalidActiveKid fault => "invalid active_kid: " ++ refusedToken fault.message
  | emptyRules => "at least one authorization rule must be declared"
  | invalidRuleName rule => "invalid rule name " ++ Text.quoted rule
  | undeclaredRule rule =>
      "rule " ++ Text.quoted rule ++ " is not declared in the configuration"

/-! ### The names of the rules that the library knows -/

namespace RuleName

/-- The token verifies under the key. -/
def authenticate : String := "authenticate"

/-- The caller holds some role. -/
def anyAuthenticated : String := "any-authenticated"

/-- The caller is an administrator. -/
def adminOnly : String := "admin-only"

/-- The caller holds the role of a user. -/
def userOnly : String := "user-only"

/-- The caller is an administrator or the user acted on. -/
def selfOrAdmin : String := "self-or-admin"

/-- The authorization rules that every table of rules starts with. -/
def builtin : List String := [anyAuthenticated, adminOnly, userOnly, selfOrAdmin]

/-- A rule may have this name. -/
def isUsable (name : String) : Bool :=
  !name.isEmpty && !name.toList.any Text.isBlank

end RuleName

/-- The settings of a service. -/
structure AuthConfig where
  activeKid : String
  leeway : Duration
  rules : NameSet
  validKid : KeyId.Valid activeKid
  someRule : rules.names ≠ []
  usableRules : rules.names.all RuleName.isUsable

namespace AuthConfig

instance : DecidableEq AuthConfig := fun c d =>
  decidable_of_iff (c.activeKid = d.activeKid ∧ c.leeway = d.leeway ∧ c.rules = d.rules) <| by
    cases c; cases d; simp

/-- The rules that are declared if none are given. -/
def standardRules : NameSet :=
  NameSet.ofNames RuleName.builtin

/-- Checks settings and puts them together. -/
def build (activeKid : String) (leeway : Duration) (rules : Option NameSet) :
    Except ConfigFault AuthConfig :=
  match hk : KeyId.check activeKid with
  | .error fault => .error (.invalidActiveKid fault)
  | .ok () =>
      let rules := rules.getD standardRules
      if hr : rules.names = [] then .error .emptyRules
      else
        match hb : rules.names.find? (!RuleName.isUsable ·) with
        | some bad => .error (.invalidRuleName bad)
        | none => .ok ⟨activeKid, leeway, rules, hk, hr, by simpa using hb⟩

/-- Checks that a route may use a rule. -/
def checkRule (c : AuthConfig) (rule : String) : Except ConfigFault Unit :=
  if c.rules.contains rule then .ok () else .error (.undeclaredRule rule)

/-- Settings as JSON. -/
def toJson (c : AuthConfig) : String :=
  Json.object
    [("active_kid", Json.quote c.activeKid), ("leeway", Json.quote c.leeway.toNotation),
      ("rules", Json.array (c.rules.names.map Json.quote))]

/-- Settings as shown for debugging. -/
def describe (c : AuthConfig) : String :=
  "AuthConfig \x7b active_kid: " ++ Text.quoted c.activeKid ++ ", leeway: " ++ c.leeway.brief ++
    ", rules: " ++ Text.quotedList "\x7b" "\x7d" c.rules.names ++ " \x7d"

end AuthConfig

end BearerAuth
