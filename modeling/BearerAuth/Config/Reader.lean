import BearerAuth.Claims.Reader
import BearerAuth.Config

/-!
# Reading configurations

Settings are read from an object or from an array of their members.  Unlike claims, a configuration
may not hold members with other names.  The settings are checked as soon as they are complete, so a
document that is wrong behind its end is refused for its settings first.
-/

namespace BearerAuth

open Json (Value Elements Fault Document)

/-- Why a document does not hold settings. -/
inductive ConfigReadFault where
  | document (fault : Fault)
  | settings (error : ConfigFault)
deriving DecidableEq, Repr

/-- The wording of a refusal. -/
def ConfigReadFault.message : ConfigReadFault → String
  | document fault => fault.message
  | settings error => error.message

/-- Reads a duration. -/
def Duration.ofValue (v : Value) : Except Fault Duration := do
  let text ← v.asText "a duration"
  match Duration.ofNotation? text with
  | some d => .ok d
  | none => .error (.invalidValue (.text text) "a duration")

/-- Reads the names of rules, of which there need not be any. -/
def NameSet.ofValue : Value → Except Fault (Option NameSet)
  | .null => .ok none
  | .array es => do
      return some (← es.read (fun s v => return s.insert (← v.asText "a string") ()) Registry.empty)
  | v => .error (v.mismatch "a sequence")

namespace AuthConfig

/-- The members of settings that have been read. -/
structure Draft where
  activeKid : Option String
  leeway : Option Duration
  rules : Option (Option NameSet)

/-- Reads a member of settings. -/
def Draft.step (d : Draft) (name : String) (v : Value) : Except Fault Draft :=
  match name with
  | "active_kid" => return { d with activeKid := ← fill name d.activeKid (v.asText "a string") }
  | "leeway" => return { d with leeway := ← fill name d.leeway (Duration.ofValue v) }
  | "rules" => return { d with rules := ← fill name d.rules (NameSet.ofValue v) }
  | _ => .error (.unknownField name)

/-- The members as they are given to the check of settings. -/
abbrev Parts := String × Duration × Option NameSet

/-- The parts of a draft. -/
def Draft.finish (d : Draft) : Except Fault Parts := do
  let activeKid ← require "active_kid" d.activeKid
  return (activeKid, d.leeway.getD Duration.zero, d.rules.getD none)

/-- Reads the parts from the elements of an array. -/
def partsOfElements (es : Elements) : Except Fault Parts := do
  let (activeKid, es) ← element 0 "struct RawAuthConfig with 3 elements" (·.asText "a string") es
  match ← es.next with
  | none => return (activeKid, Duration.zero, none)
  | some (v, es) =>
      let leeway ← Duration.ofValue v
      match ← es.next with
      | none => return (activeKid, leeway, none)
      | some (v, es) =>
          let rules ← NameSet.ofValue v
          es.finish
          return (activeKid, leeway, rules)

/-- Reads the parts from a value. -/
def partsOfValue : Value → Except Fault Parts
  | .object ms => do (← ms.read Draft.step ⟨none, none, none⟩).finish
  | .array es => partsOfElements es
  | v => .error (v.mismatch "struct RawAuthConfig")

/-- Reads settings from a document. -/
def ofJson (input : Bytes) : Except ConfigReadFault AuthConfig :=
  let doc := Document.ofBytes input
  match partsOfValue doc.value with
  | .error fault => .error (.document fault)
  | .ok (activeKid, leeway, rules) =>
      match build activeKid leeway rules with
      | .error e => .error (.settings e)
      | .ok c => if doc.complete then .ok c else .error (.document .malformed)

end AuthConfig

end BearerAuth
