import Mathlib
import BearerAuth.Proofs.Json.Members

/-!
# The members of claims

What an object has to hold so that claims or a user are read from it, said without the draft that
the reader keeps: under each name at most one value, whatever the order, and any members besides.
One step of a reader touches the place of its own member; a whole object is read step by step.

Main statements: `Claims.ofValue_object_eq_ok_iff` and `User.ofValue_object_eq_ok_iff`.
-/

namespace BearerAuth

open Json (Value Members Elements Fault textOf?)
open Token (membersNamed given given_self given_of_ne membersNamed_cons_of_text)

/-- The value is read as something. -/
def Json.Value.ReadBy {α : Type} (read : Value → Except Fault α) (v : Value) (a : α) : Prop :=
  read v = .ok a

theorem Json.Value.skip_eq_ok_iff {v : Value} : v.skip = .ok () ↔ v.whole := by
  unfold Value.skip
  split <;> simp_all

/-- A member is skipped. -/
theorem Json.Value.skip_bind_eq_ok_iff {β : Type} {v : Value} {d d' : β} :
    (v.skip >>= fun _ => .ok d : Except Fault β) = .ok d' ↔ v.whole ∧ d' = d := by
  rw [Except.bind_eq_ok_iff]
  constructor
  · rintro ⟨_, hskip, h⟩
    exact ⟨Value.skip_eq_ok_iff.mp hskip, (Except.ok.inj h).symm⟩
  · rintro ⟨hwhole, rfl⟩
    exact ⟨(), Value.skip_eq_ok_iff.mpr hwhole, rfl⟩

/-- A place is filled with the only value, and stored away. -/
theorem fill_store_eq_ok_iff {α β : Type} {name : String} {place : Option α} {v : Value}
    {value : Except Fault α} (read : Value → Except Fault α) (hvalue : value = read v)
    {store : Option α → β} {d : β} :
    (fill name place value >>= fun place => .ok (store place)) = .ok d ↔
      ∃ place', Fills (Value.ReadBy read) place [v] place' ∧ d = store place' := by
  have hread : ∀ a, value = .ok a ↔ v.ReadBy read a := fun a => by rw [hvalue, Value.ReadBy]
  rw [fill_bind_eq_ok_iff hread]
  simp only [fills_singleton]
  constructor
  · rintro ⟨hfree, a, ha, rfl⟩
    exact ⟨some a, ⟨hfree, a, ha, rfl⟩, rfl⟩
  · rintro ⟨_, ⟨hfree, a, ha, rfl⟩, rfl⟩
    exact ⟨hfree, a, ha, rfl⟩

/-- Every member has a name that is a text, and whole values are under the names that nobody
knows. -/
def AreReadable (known : List String) (members : List (Bytes × Value)) : Prop :=
  ∀ m ∈ members, ∃ name, textOf? m.1 = some name ∧ (name ∉ known → m.2.whole)

theorem areReadable_cons_iff {known : List String} {m : Bytes × Value}
    {members : List (Bytes × Value)} :
    AreReadable known (m :: members) ↔
      (∃ name, textOf? m.1 = some name ∧ (name ∉ known → m.2.whole)) ∧
        AreReadable known members :=
  List.forall_mem_cons

/-! ### Users -/

namespace User

/-- The names of the members of a user. -/
def memberNames : List String := ["id", "username"]

variable {d d' : Draft}

/-- What one member changes. -/
theorem step_eq_ok_iff {name : String} {v : Value} :
    d.step name v = .ok d' ↔
      (name ∉ memberNames → v.whole) ∧
      Fills (Value.ReadBy UserId.ofValue) d.id (given "id" name v) d'.id ∧
      Fills (Value.ReadBy (·.asText "a string")) d.username (given "username" name v)
        d'.username := by
  obtain ⟨id, username⟩ := d
  obtain ⟨id', username'⟩ := d'
  by_cases hknown : name ∈ memberNames
  · have hname := hknown
    simp only [memberNames, List.mem_cons, List.not_mem_nil, or_false] at hname
    -- Only the place of the member itself is touched.
    rcases hname with rfl | rfl
    · refine (fill_store_eq_ok_iff UserId.ofValue rfl).trans ?_
      simp [hknown, given, fills_nil]
    · refine (fill_store_eq_ok_iff (·.asText "a string") rfl).trans ?_
      simp [hknown, given, fills_nil, and_comm]
  · have hname := hknown
    simp only [memberNames, List.mem_cons, List.not_mem_nil, or_false, not_or] at hname
    have hskip : Draft.step ⟨id, username⟩ name v = (v.skip >>= fun _ => .ok ⟨id, username⟩) := by
      unfold Draft.step
      split
      · exact absurd rfl hname.1
      · exact absurd rfl hname.2
      · rfl
    rw [hskip, Value.skip_bind_eq_ok_iff]
    simp [hknown, given, hname, fills_nil]

/-- What the members change that are read one after the other. -/
theorem read_eq_ok_iff {members : List (Bytes × Value)} :
    (Members.ofList members).read Draft.step d = .ok d' ↔
      AreReadable memberNames members ∧
      Fills (Value.ReadBy UserId.ofValue) d.id (membersNamed "id" (.ofList members)) d'.id ∧
      Fills (Value.ReadBy (·.asText "a string")) d.username
        (membersNamed "username" (.ofList members)) d'.username := by
  induction members generalizing d with
  | nil =>
    have hnone : ∀ name, membersNamed name (.ofList []) = [] := fun name => rfl
    have hreadable : AreReadable memberNames [] := fun m hm => absurd hm List.not_mem_nil
    simp only [hnone, fills_nil, hreadable, true_and]
    obtain ⟨id, username⟩ := d
    obtain ⟨id', username'⟩ := d'
    simp [Members.read, eq_comm]
  | cons m members ih =>
    rw [Json.readMembers_cons_eq_ok_iff, areReadable_cons_iff]
    cases hname : textOf? m.1 with
    | none => simp
    | some name =>
      simp only [Option.some.injEq, exists_eq_left', membersNamed_cons_of_text hname, fills_append,
        step_eq_ok_iff, ih]
      constructor
      · rintro ⟨middle, ⟨hwhole, hid, husername⟩, hreadable, hid', husername'⟩
        exact ⟨⟨hwhole, hreadable⟩, ⟨_, hid, hid'⟩, ⟨_, husername, husername'⟩⟩
      · rintro ⟨⟨hwhole, hreadable⟩, ⟨id, hid, hid'⟩, ⟨username, husername, husername'⟩⟩
        exact ⟨⟨id, username⟩, ⟨hwhole, hid, husername⟩, hreadable, hid', husername'⟩

theorem finish_eq_ok_iff {u : User} :
    d.finish = .ok u ↔ d.id = some u.id ∧ d.username = some u.username := by
  obtain ⟨id, username⟩ := d
  cases id <;> cases username <;> cases u <;> simp [Draft.finish, require]

/-- The object holds a user: each of its members once, and whatever besides. -/
structure HeldBy (members : List (Bytes × Value)) (u : User) : Prop where
  readable : AreReadable memberNames members
  id : ∃ v, membersNamed "id" (.ofList members) = [v] ∧ v.ReadBy UserId.ofValue u.id
  username : ∃ v, membersNamed "username" (.ofList members) = [v] ∧
    v.ReadBy (·.asText "a string") u.username

/-- A user is read from an object exactly if the object holds it. -/
theorem ofValue_object_eq_ok_iff {members : List (Bytes × Value)} {u : User} :
    ofValue (.object (.ofList members)) = .ok u ↔ u.HeldBy members := by
  rw [ofValue, Except.bind_eq_ok_iff]
  simp only [read_eq_ok_iff, finish_eq_ok_iff]
  constructor
  · rintro ⟨⟨_, _⟩, ⟨hreadable, hid, husername⟩, rfl, rfl⟩
    exact ⟨hreadable, fills_none_some_iff.mp hid, fills_none_some_iff.mp husername⟩
  · rintro ⟨hreadable, hid, husername⟩
    exact ⟨⟨some u.id, some u.username⟩,
      ⟨hreadable, fills_none_some_iff.mpr hid, fills_none_some_iff.mpr husername⟩, rfl, rfl⟩

end User

/-! ### Claims -/

namespace Claims

/-- The names of the members of claims. -/
def memberNames : List String := ["sub", "iss", "iat", "exp", "user", "roles"]

variable {d d' : Draft}

/-- What one member changes. -/
theorem step_eq_ok_iff {name : String} {v : Value} :
    d.step name v = .ok d' ↔
      (name ∉ memberNames → v.whole) ∧
      Fills (Value.ReadBy UserId.ofValue) d.sub (given "sub" name v) d'.sub ∧
      Fills (Value.ReadBy (·.asText "a string")) d.iss (given "iss" name v) d'.iss ∧
      Fills (Value.ReadBy Value.asInt64) d.iat (given "iat" name v) d'.iat ∧
      Fills (Value.ReadBy Value.asInt64) d.exp (given "exp" name v) d'.exp ∧
      Fills (Value.ReadBy User.ofValue) d.user (given "user" name v) d'.user ∧
      Fills (Value.ReadBy RoleSet.ofValue) d.roles (given "roles" name v) d'.roles := by
  obtain ⟨sub, iss, iat, exp, user, roles⟩ := d
  obtain ⟨sub', iss', iat', exp', user', roles'⟩ := d'
  by_cases hknown : name ∈ memberNames
  · have hname := hknown
    simp only [memberNames, List.mem_cons, List.not_mem_nil, or_false] at hname
    rcases hname with rfl | rfl | rfl | rfl | rfl | rfl
    · refine (fill_store_eq_ok_iff UserId.ofValue rfl).trans ?_
      simp [hknown, given, fills_nil]
    · refine (fill_store_eq_ok_iff (·.asText "a string") rfl).trans ?_
      simp [hknown, given, fills_nil, and_left_comm]
    · refine (fill_store_eq_ok_iff Value.asInt64 rfl).trans ?_
      simp [hknown, given, fills_nil, and_left_comm]
    · refine (fill_store_eq_ok_iff Value.asInt64 rfl).trans ?_
      simp [hknown, given, fills_nil, and_left_comm]
    · refine (fill_store_eq_ok_iff User.ofValue rfl).trans ?_
      simp [hknown, given, fills_nil, and_left_comm]
    · refine (fill_store_eq_ok_iff RoleSet.ofValue rfl).trans ?_
      simp [hknown, given, fills_nil, and_comm, and_left_comm, and_assoc]
  · have hname := hknown
    simp only [memberNames, List.mem_cons, List.not_mem_nil, or_false, not_or] at hname
    have hskip : Draft.step ⟨sub, iss, iat, exp, user, roles⟩ name v =
        (v.skip >>= fun _ => .ok ⟨sub, iss, iat, exp, user, roles⟩) := by
      unfold Draft.step
      split
      · exact absurd rfl hname.1
      · exact absurd rfl hname.2.1
      · exact absurd rfl hname.2.2.1
      · exact absurd rfl hname.2.2.2.1
      · exact absurd rfl hname.2.2.2.2.1
      · exact absurd rfl hname.2.2.2.2.2
      · rfl
    rw [hskip, Value.skip_bind_eq_ok_iff]
    simp [hknown, given, hname, fills_nil]

/-- What the members change that are read one after the other. -/
theorem read_eq_ok_iff {members : List (Bytes × Value)} :
    (Members.ofList members).read Draft.step d = .ok d' ↔
      AreReadable memberNames members ∧
      Fills (Value.ReadBy UserId.ofValue) d.sub (membersNamed "sub" (.ofList members)) d'.sub ∧
      Fills (Value.ReadBy (·.asText "a string")) d.iss (membersNamed "iss" (.ofList members))
        d'.iss ∧
      Fills (Value.ReadBy Value.asInt64) d.iat (membersNamed "iat" (.ofList members)) d'.iat ∧
      Fills (Value.ReadBy Value.asInt64) d.exp (membersNamed "exp" (.ofList members)) d'.exp ∧
      Fills (Value.ReadBy User.ofValue) d.user (membersNamed "user" (.ofList members)) d'.user ∧
      Fills (Value.ReadBy RoleSet.ofValue) d.roles (membersNamed "roles" (.ofList members))
        d'.roles := by
  induction members generalizing d with
  | nil =>
    have hnone : ∀ name, membersNamed name (.ofList []) = [] := fun name => rfl
    have hreadable : AreReadable memberNames [] := fun m hm => absurd hm List.not_mem_nil
    simp only [hnone, fills_nil, hreadable, true_and]
    obtain ⟨sub, iss, iat, exp, user, roles⟩ := d
    obtain ⟨sub', iss', iat', exp', user', roles'⟩ := d'
    simp [Members.read, eq_comm]
  | cons m members ih =>
    rw [Json.readMembers_cons_eq_ok_iff, areReadable_cons_iff]
    cases hname : textOf? m.1 with
    | none => simp
    | some name =>
      simp only [Option.some.injEq, exists_eq_left', membersNamed_cons_of_text hname, fills_append,
        step_eq_ok_iff, ih]
      constructor
      · rintro ⟨middle, ⟨hwhole, hsub, hiss, hiat, hexp, huser, hroles⟩, hreadable, hsub', hiss',
          hiat', hexp', huser', hroles'⟩
        exact ⟨⟨hwhole, hreadable⟩, ⟨_, hsub, hsub'⟩, ⟨_, hiss, hiss'⟩, ⟨_, hiat, hiat'⟩,
          ⟨_, hexp, hexp'⟩, ⟨_, huser, huser'⟩, ⟨_, hroles, hroles'⟩⟩
      · rintro ⟨⟨hwhole, hreadable⟩, ⟨sub, hsub, hsub'⟩, ⟨iss, hiss, hiss'⟩, ⟨iat, hiat, hiat'⟩,
          ⟨exp, hexp, hexp'⟩, ⟨user, huser, huser'⟩, ⟨roles, hroles, hroles'⟩⟩
        exact ⟨⟨sub, iss, iat, exp, user, roles⟩, ⟨hwhole, hsub, hiss, hiat, hexp, huser, hroles⟩,
          hreadable, hsub', hiss', hiat', hexp', huser', hroles'⟩

theorem finish_eq_ok_iff {c : Claims} :
    d.finish = .ok c ↔
      d.sub = some c.subject ∧ d.iss = some c.issuer ∧ d.iat = some c.issuedAt ∧
        d.exp = some c.expiresAt ∧ d.user = some c.user ∧ d.roles.getD ∅ = c.roles := by
  obtain ⟨sub, iss, iat, exp, user, roles⟩ := d
  obtain ⟨subject, issuer, issuedAt, expiresAt, owner, held⟩ := c
  cases sub <;> cases iss <;> cases iat <;> cases exp <;> cases user <;>
    simp [Draft.finish, require]

/-- The object holds claims: each of their members once, or the roles not at all if there are none,
and whatever besides. -/
structure HeldBy (members : List (Bytes × Value)) (c : Claims) : Prop where
  readable : AreReadable memberNames members
  subject : ∃ v, membersNamed "sub" (.ofList members) = [v] ∧ v.ReadBy UserId.ofValue c.subject
  issuer : ∃ v, membersNamed "iss" (.ofList members) = [v] ∧ v.ReadBy (·.asText "a string") c.issuer
  issuedAt : ∃ v, membersNamed "iat" (.ofList members) = [v] ∧ v.ReadBy Value.asInt64 c.issuedAt
  expiresAt : ∃ v, membersNamed "exp" (.ofList members) = [v] ∧ v.ReadBy Value.asInt64 c.expiresAt
  user : ∃ v, membersNamed "user" (.ofList members) = [v] ∧ v.ReadBy User.ofValue c.user
  roles : GivenOr (Value.ReadBy RoleSet.ofValue) ∅ (membersNamed "roles" (.ofList members)) c.roles

/-- An object from which claims are read is closed. -/
theorem eq_ofList_of_ofValue {ms : Members} {c : Claims} (h : ofValue (.object ms) = .ok c) :
    ∃ members, ms = .ofList members := by
  obtain ⟨_, hread, -⟩ := Except.bind_eq_ok_iff.mp h
  exact Json.eq_ofList_of_readMembers hread

/-- Claims are read from an object exactly if the object holds them. -/
theorem ofValue_object_eq_ok_iff {members : List (Bytes × Value)} {c : Claims} :
    ofValue (.object (.ofList members)) = .ok c ↔ c.HeldBy members := by
  rw [ofValue, Except.bind_eq_ok_iff]
  simp only [read_eq_ok_iff, finish_eq_ok_iff]
  constructor
  · rintro ⟨⟨_, _, _, _, _, roles⟩, ⟨hreadable, hsub, hiss, hiat, hexp, huser, hroles⟩, rfl, rfl,
      rfl, rfl, rfl, hgiven⟩
    exact ⟨hreadable, fills_none_some_iff.mp hsub, fills_none_some_iff.mp hiss,
      fills_none_some_iff.mp hiat, fills_none_some_iff.mp hexp, fills_none_some_iff.mp huser,
      exists_fills_iff.mp ⟨roles, hroles, hgiven⟩⟩
  · rintro ⟨hreadable, hsub, hiss, hiat, hexp, huser, hroles⟩
    obtain ⟨roles, hroles, hgiven⟩ := exists_fills_iff.mpr hroles
    exact ⟨⟨some c.subject, some c.issuer, some c.issuedAt, some c.expiresAt, some c.user, roles⟩,
      ⟨hreadable, fills_none_some_iff.mpr hsub, fills_none_some_iff.mpr hiss,
        fills_none_some_iff.mpr hiat, fills_none_some_iff.mpr hexp, fills_none_some_iff.mpr huser,
        hroles⟩, rfl, rfl, rfl, rfl, rfl, hgiven⟩

end Claims

end BearerAuth
