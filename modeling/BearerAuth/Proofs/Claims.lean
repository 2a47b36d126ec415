import Mathlib
import BearerAuth.Claims.Reader
import BearerAuth.Proofs.Json.Printer
import BearerAuth.Proofs.UserId

/-!
# Claims undone

Claims are read back as they were written: names with any characters, points in time down to the
least and up to the greatest, and every set of roles.

Main statement: `Claims.ofJson_toJson`.
-/

namespace BearerAuth

open Json (Value Members Elements Document Written escaped)

/-! ### Members -/

/-- A place that is free takes a value. -/
@[simp] theorem fill_none {α : Type} (name : String) (v : α) :
    fill name none (.ok v) = .ok (some v) := rfl

/-- A place that was filled yields its value. -/
@[simp] theorem require_some {α : Type} (name : String) (v : α) :
    require name (some v) = .ok v := rfl

/-! ### Single values -/

/-- A user id as it is written. -/
def UserId.written (id : UserId) : Written :=
  Written.ofText id.toText

@[simp] theorem UserId.ofValue_written (id : UserId) :
    UserId.ofValue id.written.value = .ok id := by
  rw [UserId.ofValue, UserId.written, Written.ofText_value, Json.asText_ofText, Except.ok_bind,
    UserId.parse?_toText]

/-- A set of roles as it is written. -/
def RoleSet.written (s : RoleSet) : Written :=
  Written.array (s.toList.map fun r => Written.ofText r.name)

theorem RoleSet.written_text (s : RoleSet) : s.written.text = s.toJson := by
  unfold RoleSet.written RoleSet.toJson Written.array
  dsimp only
  rw [List.map_map]
  rfl

theorem Role.ofValue_escaped (r : Role) : Role.ofValue (.string (escaped r.name)) = .ok r := by
  simp [Role.ofValue, Role.ofText]

/-- An array of the names of roles. -/
def RoleSet.namesOf (rs : List Role) : Value :=
  .array (Elements.ofList (rs.map fun r => .string (escaped r.name)))

/-- The roles in an array are put together, in whichever order they come and however often. -/
theorem RoleSet.ofValue_namesOf (rs : List Role) :
    RoleSet.ofValue (namesOf rs) = .ok (RoleSet.ofList rs) := by
  have hread : ∀ (rs : List Role) (s : RoleSet),
      (Elements.ofList (rs.map fun r => .string (escaped r.name))).read
        (fun s v => return s.insert (← Role.ofValue v)) s = .ok (rs.foldl RoleSet.insert s) := by
    intro rs
    induction rs with
    | nil => exact fun s => rfl
    | cons r rs ih =>
      intro s
      rw [List.foldl_cons, ← ih]
      simp only [List.map_cons, Elements.ofList_cons, Elements.read, Role.ofValue_escaped,
        Except.ok_bind]
      rfl
  exact hread rs ∅

theorem RoleSet.written_value (s : RoleSet) : s.written.value = namesOf s.toList := by
  rw [RoleSet.written, Written.array_value, List.map_map]
  rfl

/-- The roles of a set are put together again. -/
@[simp] theorem RoleSet.ofValue_written (s : RoleSet) :
    RoleSet.ofValue s.written.value = .ok s := by
  rw [RoleSet.written_value, RoleSet.ofValue_namesOf, RoleSet.ofList_toList]

/-! ### Users and claims -/

/-- A user as it is written. -/
def User.written (u : User) : Written :=
  Written.object [("id", u.id.written), ("username", Written.ofText u.username)]

theorem User.written_text (u : User) : u.written.text = u.toJson := rfl

@[simp] theorem User.ofValue_written (u : User) : User.ofValue u.written.value = .ok u := by
  simp [User.written, User.ofValue, Written.memberValue, User.Draft.step, Members.read,
    User.Draft.finish]

namespace Claims

/-- The members of claims as they are written. -/
def writtenMembers (c : Claims) : List (String × Written) :=
  [("sub", c.subject.written), ("iss", Written.ofText c.issuer),
    ("iat", Written.ofInt c.issuedAt.toInt), ("exp", Written.ofInt c.expiresAt.toInt),
    ("user", c.user.written), ("roles", c.roles.written)]

/-- Claims as they are written. -/
def written (c : Claims) : Written :=
  Written.object c.writtenMembers

theorem written_text (c : Claims) : c.written.text = c.toJson := by
  unfold written Written.object writtenMembers toJson
  simp only [List.map_cons, List.map_nil, RoleSet.written_text, User.written_text]
  rfl

/-- Claims are found in the value that spells them. -/
theorem ofValue_written (c : Claims) : ofValue c.written.value = .ok c := by
  simp [written, writtenMembers, ofValue, Written.memberValue, Draft.empty, Draft.step,
    Members.read, Draft.finish, Json.asInt64_ofInt]

/-- Claims are read back as they were written. -/
theorem ofJson_toJson (c : Claims) : ofJson (utf8 c.toJson) = .ok c := by
  rw [← written_text, ofJson, Written.ofBytes_text]
  simp [ofValue_written]

end Claims

end BearerAuth
