import BearerAuth.Config
import BearerAuth.Event
import BearerAuth.Token.Verify

/-!
# Policies

Whether a token is to be believed and whether a caller may act are decided by named rules.  A rule
belongs to one of two modules and answers questions made for that module.  An evaluator is whatever
answers such questions; `RuleTable` is the evaluator of this library.

Main statement: `RuleTable.find?_register` says which rule a registration changes.
-/

namespace BearerAuth

/-- The module to which a rule belongs. -/
inductive RuleModule where
  | authentication
  | authorization
deriving DecidableEq, Repr

/-- The name of a module. -/
def RuleModule.name : RuleModule → String
  | authentication => "authentication"
  | authorization => "authorization"

/-- What a rule is asked. -/
inductive Question where
  /-- Is the token to be believed under the public key? -/
  | authentication (key token : String)
  /-- May the caller act on the user?  The user is nil where a route names none. -/
  | authorization (roles : RoleSet) (subject userId : UserId)
deriving DecidableEq

namespace Question

/-- The module for which a question is made. -/
def module : Question → RuleModule
  | authentication .. => .authentication
  | authorization .. => .authorization

/-- A question as JSON. -/
def toJson : Question → String
  | authentication key token =>
      Json.object [("module", Json.quote RuleModule.authentication.name),
        ("key", Json.quote key), ("token", Json.quote token)]
  | authorization roles subject userId =>
      Json.object [("module", Json.quote RuleModule.authorization.name),
        ("roles", roles.toJson), ("subject", Json.quote subject.toText),
        ("user_id", Json.quote userId.toText)]

/-- The caller holds a role. -/
def holds (role : Role) : Question → Bool
  | authorization roles _ _ => roles.contains role
  | authentication .. => false

/-- The caller holds some role. -/
def holdsAny : Question → Bool
  | authorization roles _ _ => !roles.isEmpty
  | authentication .. => false

/-- The caller is the user acted on. -/
def isSelf : Question → Bool
  | authorization _ subject userId => subject = userId
  | authentication .. => false

end Question

/-- Why a question is not answered. -/
inductive RulingFault where
  /-- The module has no rule of that name. -/
  | unknownRule (module : RuleModule) (rule : String)
  /-- The question is made for the other module. -/
  | wrongModule (module : RuleModule) (rule : String)
  /-- The rule itself fails. -/
  | evaluation (message : String)
  /-- The rule breaks off, as only the one that verifies tokens does. -/
  | overflow (reason : Overflow)
deriving DecidableEq, Repr

/-- The wording of a failure. -/
def RulingFault.message : RulingFault → String
  | unknownRule module rule => "unknown rule " ++ module.name ++ "/" ++ rule
  | wrongModule module rule =>
      "input does not match module for rule " ++ module.name ++ "/" ++ rule
  | evaluation message => "policy evaluation failed: " ++ message
  | overflow reason => reason.message

/-- An answer, and what is reported while it is found. -/
structure Ruling where
  answer : Except RulingFault Bool
  events : List Event

/-- An answer about which nothing is reported. -/
def Ruling.silent (answer : Except RulingFault Bool) : Ruling :=
  ⟨answer, []⟩

/-- A rule: what it answers to a question at a point in time. -/
abbrev Rule := Question → Clock → Ruling

/-- Whatever answers the questions that a service asks. -/
structure Evaluator where
  evaluate : RuleModule → String → Question → Clock → Ruling

/-! ### Tables of rules -/

/-- The rules of both modules. -/
structure RuleTable where
  authentication : Registry Rule
  authorization : Registry Rule

namespace RuleTable

/-- The table without rules. -/
def empty : RuleTable := ⟨Registry.empty, Registry.empty⟩

/-- The rules of a module. -/
def rules (t : RuleTable) : RuleModule → Registry Rule
  | .authentication => t.authentication
  | .authorization => t.authorization

/-- The rule of a name in a module. -/
def find? (t : RuleTable) (module : RuleModule) (name : String) : Option Rule :=
  (t.rules module).find? name

/-- Registers a rule, in place of one of the same name in the same module. -/
def register (t : RuleTable) (module : RuleModule) (name : String) (rule : Rule) :
    RuleTable :=
  match module with
  | .authentication => { t with authentication := t.authentication.insert name rule }
  | .authorization => { t with authorization := t.authorization.insert name rule }

/-- Some rule is registered under the name in the module. -/
def contains (t : RuleTable) (module : RuleModule) (name : String) : Bool :=
  (t.rules module).contains name

/-- The names registered in a module, in order. -/
def names (t : RuleTable) (module : RuleModule) : List String :=
  (t.rules module).names

theorem find?_register (t : RuleTable) (module other : RuleModule) (name n : String)
    (rule : Rule) :
    (t.register module name rule).find? other n =
      if other = module ∧ n = name then some rule else t.find? other n := by
  cases module <;> cases other <;> simp [register, find?, rules, Registry.find?_insert]

/-- The token in the question verifies under the key in it. -/
def verifies (leeway : Duration) : Rule := fun question now =>
  match question with
  | .authentication key token =>
      match Token.verify token key leeway now with
      | .ok _ => ⟨.ok true, []⟩
      | .error .unreadableKey => ⟨.ok false, [.publicKeyRejected]⟩
      | .error .invalidToken => ⟨.ok false, [.tokenVerificationFailed]⟩
      | .error (.overflow reason) => ⟨.error (.overflow reason), []⟩
  | .authorization .. => Ruling.silent (.ok false)

/-- The rule that answers by a property of the question. -/
def ofProperty (property : Question → Bool) : Rule := fun question _ =>
  Ruling.silent (.ok (property question))

/-- The table of the rules that the library knows; the leeway applies to the times of tokens. -/
def standard (leeway : Duration) : RuleTable :=
  empty
    |>.register .authentication RuleName.authenticate (verifies leeway)
    |>.register .authorization RuleName.anyAuthenticated (ofProperty Question.holdsAny)
    |>.register .authorization RuleName.adminOnly (ofProperty (·.holds .admin))
    |>.register .authorization RuleName.userOnly (ofProperty (·.holds .user))
    |>.register .authorization RuleName.selfOrAdmin
      (ofProperty fun question => question.holds .admin || question.isSelf)

/-- The table of the rules that the library knows, without leeway. -/
def builtin : RuleTable := standard Duration.zero

/-- Answers a question by the rule of that name, if the question is made for its module. -/
def evaluate (t : RuleTable) (module : RuleModule) (name : String) (question : Question)
    (now : Clock) : Ruling :=
  match t.find? module name with
  | none => Ruling.silent (.error (.unknownRule module name))
  | some rule =>
      if question.module = module then rule question now
      else Ruling.silent (.error (.wrongModule module name))

/-- A table as an evaluator. -/
def toEvaluator (t : RuleTable) : Evaluator := ⟨t.evaluate⟩

/-- A table as shown for debugging. -/
def describe (t : RuleTable) : String :=
  "RuleTable \x7b authentication: " ++ Text.quotedList "[" "]" (t.names .authentication) ++
    ", authorization: " ++ Text.quotedList "[" "]" (t.names .authorization) ++ " \x7d"

end RuleTable

end BearerAuth
