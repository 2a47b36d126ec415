import BearerAuth.Text.Quoted

/-!
# Roles

The roles that a user can be granted.  The set is closed: a name that is not the name of a role is
refused wherever roles are read.
-/

namespace BearerAuth

/-- A role granted to a user. -/
inductive Role where
  /-- Administrative access. -/
  | admin
  /-- The access of a regular user. -/
  | user
deriving DecidableEq, Repr

namespace Role

/-- The name of a role. -/
def name : Role → String
  | admin => "ADMIN"
  | user => "USER"

/-- All roles, in the order in which they are written. -/
def all : List Role := [admin, user]

/-- The role with a name. -/
def ofName? (name : String) : Option Role :=
  all.find? (·.name = name)

@[simp] theorem ofName?_name (r : Role) : ofName? r.name = some r := by
  cases r <;> decide

theorem ofName?_eq_some_iff {name : String} {r : Role} : ofName? name = some r ↔ name = r.name := by
  refine ⟨fun h => ?_, fun h => h ▸ ofName?_name r⟩
  have := List.find?_some h
  exact (of_decide_eq_true this).symm

end Role

/-- The refusal of a name that is not the name of a role. -/
structure UnknownRole where
  name : String
deriving DecidableEq, Repr

/-- The wording of the refusal. -/
def UnknownRole.message (e : UnknownRole) : String :=
  "unknown role: " ++ Text.quoted e.name

/-- Reads the name of a role. -/
def Role.parse (name : String) : Except UnknownRole Role :=
  match ofName? name with
  | some r => .ok r
  | none => .error ⟨name⟩

/-- A set of roles. -/
structure RoleSet where
  admin : Bool
  user : Bool
deriving DecidableEq, Repr

namespace RoleSet

/-- The set without roles. -/
def empty : RoleSet := ⟨false, false⟩

instance : EmptyCollection RoleSet := ⟨empty⟩

/-- The set holds the role. -/
def contains (s : RoleSet) : Role → Bool
  | .admin => s.admin
  | .user => s.user

/-- The set with one more role. -/
def insert (s : RoleSet) : Role → RoleSet
  | .admin => { s with admin := true }
  | .user => { s with user := true }

/-- The set of the roles in a list. -/
def ofList (rs : List Role) : RoleSet :=
  rs.foldl insert empty

/-- The roles of a set, in order. -/
def toList (s : RoleSet) : List Role :=
  Role.all.filter s.contains

/-- The set holds no role. -/
def isEmpty (s : RoleSet) : Bool :=
  s.toList.isEmpty

theorem contains_insert (s : RoleSet) (r r' : Role) :
    (s.insert r).contains r' = (decide (r' = r) || s.contains r') := by
  cases r <;> cases r' <;> simp [insert, contains]

theorem ofList_toList (s : RoleSet) : ofList s.toList = s := by
  obtain ⟨a, u⟩ := s
  cases a <;> cases u <;> rfl

end RoleSet

end BearerAuth
