import BearerAuth.Claims
import BearerAuth.Json.Fault
import BearerAuth.Json.Parser

/-!
# Reading claims

Claims are read from an object or from an array of their members in the order in which they are
written.  An object may hold further members, which are skipped; a known member may not occur
twice.  Roles may be missing, nothing else may.
-/

namespace BearerAuth

open Json (Value Members Elements Fault Document)

/-- Reads a user id. -/
def UserId.ofValue (v : Value) : Except Fault UserId := do
  let text ← v.asText "a formatted UUID string"
  match UserId.parse? text with
  | some id => .ok id
  | none => .error .notUserId

/-- Skips a value that nobody asks for. -/
def Json.Value.skip (v : Value) : Except Fault Unit :=
  if v.whole then .ok () else .error .malformed

/-- Puts the value of a member into its place, which has to be free. -/
def fill {α : Type} (name : String) (place : Option α) (value : Except Fault α) :
    Except Fault (Option α) :=
  match place with
  | some _ => .error (.duplicateField name)
  | none => value.map some

/-- Takes the value out of the place of a member that has to be there. -/
def require {α : Type} (name : String) (place : Option α) : Except Fault α :=
  match place with
  | some v => .ok v
  | none => .error (.missingField name)

/-- The next element of an array that stands for an object; `index` elements came before. -/
def element {α : Type} (index : Nat) (expected : String) (read : Value → Except Fault α)
    (es : Elements) : Except Fault (α × Elements) := do
  match ← es.next with
  | none => .error (.invalidLength index expected)
  | some (v, rest) => return (← read v, rest)

/-! ### Users -/

namespace User

/-- The members of a user that have been read. -/
structure Draft where
  id : Option UserId
  username : Option String

/-- Reads a member of a user. -/
def Draft.step (d : Draft) (name : String) (v : Value) : Except Fault Draft :=
  match name with
  | "id" => return { d with id := ← fill name d.id (UserId.ofValue v) }
  | "username" => return { d with username := ← fill name d.username (v.asText "a string") }
  | _ => do v.skip; return d

/-- The user of a draft. -/
def Draft.finish (d : Draft) : Except Fault User :=
  return ⟨← require "id" d.id, ← require "username" d.username⟩

/-- Reads a user from the elements of an array. -/
def ofElements (es : Elements) : Except Fault User := do
  let expected := "struct User with 2 elements"
  let (id, es) ← element 0 expected UserId.ofValue es
  let (username, es) ← element 1 expected (·.asText "a string") es
  es.finish
  return ⟨id, username⟩

/-- Reads a user. -/
def ofValue : Value → Except Fault User
  | .object ms => do (← ms.read Draft.step ⟨none, none⟩).finish
  | .array es => ofElements es
  | v => .error (v.mismatch "struct User")

end User

/-! ### Roles -/

/-- Reads the name of a role. -/
def Role.ofText (name : String) : Except Fault Role :=
  match Role.ofName? name with
  | some r => .ok r
  | none => .error (.unknownVariant name)

/-- Reads a role: its name, or an object whose only member has that name and is null. -/
def Role.ofValue : Value → Except Fault Role
  | .string raw =>
      match Json.textOf? raw with
      | some name => Role.ofText name
      | none => .error .malformed
  | .object (.cons raw v rest) =>
      match Json.textOf? raw with
      | none => .error .malformed
      | some name => do
          let r ← Role.ofText name
          match v, rest with
          | .null, .closed => .ok r
          | .null, _ => .error .malformed
          | v, _ => .error (v.mismatch "unit")
  | _ => .error .malformed

/-- Reads a set of roles. -/
def RoleSet.ofValue : Value → Except Fault RoleSet
  | .array es => es.read (fun s v => return s.insert (← Role.ofValue v)) ∅
  | v => .error (v.mismatch "a sequence")

/-! ### Claims -/

namespace Claims

/-- The members of claims that have been read. -/
structure Draft where
  sub : Option UserId
  iss : Option String
  iat : Option Int64
  exp : Option Int64
  user : Option User
  roles : Option RoleSet

/-- Nothing has been read. -/
def Draft.empty : Draft := ⟨none, none, none, none, none, none⟩

/-- Reads a member of claims. -/
def Draft.step (d : Draft) (name : String) (v : Value) : Except Fault Draft :=
  match name with
  | "sub" => return { d with sub := ← fill name d.sub (UserId.ofValue v) }
  | "iss" => return { d with iss := ← fill name d.iss (v.asText "a string") }
  | "iat" => return { d with iat := ← fill name d.iat v.asInt64 }
  | "exp" => return { d with exp := ← fill name d.exp v.asInt64 }
  | "user" => return { d with user := ← fill name d.user (User.ofValue v) }
  | "roles" => return { d with roles := ← fill name d.roles (RoleSet.ofValue v) }
  | _ => do v.skip; return d

/-- The claims of a draft. -/
def Draft.finish (d : Draft) : Except Fault Claims := do
  let sub ← require "sub" d.sub
  let iss ← require "iss" d.iss
  let iat ← require "iat" d.iat
  let exp ← require "exp" d.exp
  let user ← require "user" d.user
  return ⟨sub, iss, iat, exp, user, d.roles.getD ∅⟩

/-- Reads claims from the elements of an array. -/
def ofElements (es : Elements) : Except Fault Claims := do
  let expected := "struct Claims with 6 elements"
  let (sub, es) ← element 0 expected UserId.ofValue es
  let (iss, es) ← element 1 expected (·.asText "a string") es
  let (iat, es) ← element 2 expected Value.asInt64 es
  let (exp, es) ← element 3 expected Value.asInt64 es
  let (user, es) ← element 4 expected User.ofValue es
  match ← es.next with
  | none => return ⟨sub, iss, iat, exp, user, ∅⟩
  | some (v, es) =>
      let roles ← RoleSet.ofValue v
      es.finish
      return ⟨sub, iss, iat, exp, user, roles⟩

/-- Reads claims from a value. -/
def ofValue : Value → Except Fault Claims
  | .object ms => do (← ms.read Draft.step Draft.empty).finish
  | .array es => ofElements es
  | v => .error (v.mismatch "struct Claims")

/-- Reads claims from a document. -/
def ofJson (input : Bytes) : Except Fault Claims := do
  let doc := Document.ofBytes input
  let c ← ofValue doc.value
  if doc.complete then return c else .error .malformed

end Claims

end BearerAuth
