import Mathlib
import BearerAuth.Fixtures
import BearerAuth.Proofs.Claims.Fields

/-!
# Claims under rewriting

A document of claims may be rewritten without changing the claims: members may change places,
members that nobody knows may come in, roles may come in another order or repeatedly, and an empty
list of roles may go.  One step of this keeps what the object holds, and so does every sequence of
steps; white space is no matter, because it is no part of the value that a text spells.

Main statement: `Claims.decoding_depends_on_known_members`.
-/

namespace BearerAuth

open Json (Value Members Elements Fault Written escaped textOf? textOf?_escaped)
open Token (given membersNamed membersNamed_append membersNamed_cons membersNamed_cons_of_text
  membersNamed_perm given_of_ne given_self)

/-! ### Rearranging the members of one object -/

/-- One object is made from another by putting its members into another order, by spelling the name
of one of them with other escapes, or by inserting somewhere a member with a name that is not known.
The value of this member is any value that some text spells; its name is a text, which an escaped
half of a surrogate pair is not. -/
inductive Rearranged (known : List String) :
    List (Bytes × Value) → List (Bytes × Value) → Prop
  | permuted {ms ms' : List (Bytes × Value)} (h : ms.Perm ms') : Rearranged known ms ms'
  | respelled {front back : List (Bytes × Value)} {raw raw' : Bytes} {v : Value}
      (h : textOf? raw' = textOf? raw) :
      Rearranged known (front ++ (raw, v) :: back) (front ++ (raw', v) :: back)
  | inserted {front back : List (Bytes × Value)} {raw b : Bytes} {v : Value} {name : String}
      (hname : textOf? raw = some name) (hunknown : name ∉ known) (hv : v.Spells b) :
      Rearranged known (front ++ back) (front ++ (raw, v) :: back)

variable {known : List String} {ms ms' front back : List (Bytes × Value)} {m : Bytes × Value}
  {name : String}

theorem areReadable_append_cons_iff :
    AreReadable known (front ++ m :: back) ↔
      (∃ name, textOf? m.1 = some name ∧ (name ∉ known → m.2.whole)) ∧
        AreReadable known (front ++ back) := by
  simp only [AreReadable, List.mem_append, List.mem_cons, or_imp, forall_and, forall_eq]
  exact and_left_comm

theorem Rearranged.areReadable (h : Rearranged known ms ms') (hms : AreReadable known ms) :
    AreReadable known ms' := by
  cases h with
  | permuted hperm => exact fun m hm => hms m (hperm.mem_iff.mpr hm)
  | respelled hraw =>
    rw [areReadable_append_cons_iff] at hms ⊢
    rwa [hraw]
  | inserted hname hunknown hv =>
    exact areReadable_append_cons_iff.mpr ⟨⟨_, hname, fun _ => hv.whole⟩, hms⟩

/-- The values under a known name stay, up to their order. -/
theorem Rearranged.membersNamed_perm (h : Rearranged known ms ms') (hname : name ∈ known) :
    (membersNamed name (.ofList ms)).Perm (membersNamed name (.ofList ms')) := by
  cases h with
  | permuted hperm => exact Token.membersNamed_perm hperm name
  | respelled hraw =>
    simp only [membersNamed_append, membersNamed_cons, hraw, List.Perm.refl]
  | inserted hother hunknown hv =>
    have hne := ne_of_mem_of_not_mem hname hunknown
    rw [membersNamed_append, membersNamed_append, membersNamed_cons_of_text hother,
      given_of_ne hne.symm, List.nil_append]

/-- One value under a name stays the only one. -/
theorem Rearranged.exists_singleton (h : Rearranged known ms ms') (hname : name ∈ known)
    {P : Value → Prop} (hms : ∃ v, membersNamed name (.ofList ms) = [v] ∧ P v) :
    ∃ v, membersNamed name (.ofList ms') = [v] ∧ P v := by
  obtain ⟨v, hv, hP⟩ := hms
  have hperm := h.membersNamed_perm hname
  rw [hv, List.singleton_perm] at hperm
  exact ⟨v, hperm.symm, hP⟩

/-! ### Replacing the value of one member -/

section Replaced

variable {raw : Bytes} {other : String} {v w : Value}

/-- A value between others is alone if there are no others. -/
theorem append_append_eq_singleton_iff {vs ws : List Value} {x : Value} :
    vs ++ ([v] ++ ws) = [x] ↔ vs = [] ∧ v = x ∧ ws = [] := by
  cases vs <;> simp

/-- A member gives its value to its own name only. -/
theorem membersNamed_append_cons (hraw : textOf? raw = some other) :
    membersNamed name (.ofList (front ++ (raw, v) :: back)) =
      membersNamed name (.ofList front) ++
        (given name other v ++ membersNamed name (.ofList back)) := by
  rw [membersNamed_append, membersNamed_cons_of_text hraw]

/-- Where one value is given under a name, the value that takes its place is the only one again. -/
theorem exists_singleton_replaced {P : Value → Prop} (hraw : textOf? raw = some other)
    (hvw : other = name → P v → P w)
    (h : ∃ x, membersNamed name (.ofList (front ++ (raw, v) :: back)) = [x] ∧ P x) :
    ∃ x, membersNamed name (.ofList (front ++ (raw, w) :: back)) = [x] ∧ P x := by
  rw [membersNamed_append_cons hraw] at h ⊢
  by_cases hother : other = name
  · subst hother
    obtain ⟨x, hx, hP⟩ := h
    rw [given_self] at hx ⊢
    obtain ⟨hfront, rfl, hback⟩ := append_append_eq_singleton_iff.mp hx
    exact ⟨w, append_append_eq_singleton_iff.mpr ⟨hfront, rfl, hback⟩, hvw rfl hP⟩
  · rwa [given_of_ne hother] at h ⊢

/-- The same for a value that may be missing. -/
theorem GivenOr.replaced {α : Type} {Is : Value → α → Prop} {default a : α}
    (hraw : textOf? raw = some other) (hvw : other = name → Is v a → Is w a)
    (h : GivenOr Is default (membersNamed name (.ofList (front ++ (raw, v) :: back))) a) :
    GivenOr Is default (membersNamed name (.ofList (front ++ (raw, w) :: back))) a := by
  rcases h with ⟨hnone, rfl⟩ | h
  · refine .inl ⟨?_, rfl⟩
    rw [membersNamed_append_cons hraw] at hnone ⊢
    by_cases hother : other = name
    · simp [hother] at hnone
    · rwa [given_of_ne hother] at hnone ⊢
  · exact .inr (exists_singleton_replaced hraw hvw h)

end Replaced

/-- Where there is one value, there are not two. -/
theorem length_le_one_of_exists_singleton {P : Value → Prop} {vs : List Value}
    (h : ∃ v, vs = [v] ∧ P v) : vs.length ≤ 1 := by
  obtain ⟨v, rfl, -⟩ := h
  exact le_rfl

/-- A user is held by an object that is rearranged. -/
theorem User.HeldBy.rearranged {u : User} (hu : u.HeldBy ms) (h : Rearranged memberNames ms ms') :
    u.HeldBy ms' where
  readable := h.areReadable hu.readable
  id := h.exists_singleton (by decide) hu.id
  username := h.exists_singleton (by decide) hu.username

/-! ### Rewriting claims -/

namespace RoleSet

theorem contains_ofList (rs : List Role) (r : Role) : (ofList rs).contains r ↔ r ∈ rs := by
  induction rs using List.reverseRecOn with
  | nil => cases r <;> simp [ofList, empty, contains]
  | append_singleton rs last ih =>
    rw [ofList, List.foldl_concat, contains_insert]
    change decide (r = last) || (ofList rs).contains r ↔ _
    rw [Bool.or_eq_true, ih, decide_eq_true_iff, List.mem_append, List.mem_singleton, or_comm]

/-- Neither the order of roles matters nor how often they occur. -/
theorem ofList_congr {rs rs' : List Role} (h : ∀ r, r ∈ rs ↔ r ∈ rs') : ofList rs = ofList rs' := by
  have hcontains : ∀ r, (ofList rs).contains r = (ofList rs').contains r := fun r => by
    rw [Bool.eq_iff_iff, contains_ofList, contains_ofList, h]
  have hadmin := hcontains .admin
  have huser := hcontains .user
  generalize ofList rs = s at *
  generalize ofList rs' = s' at *
  obtain ⟨admin, user⟩ := s
  obtain ⟨admin', user'⟩ := s'
  obtain rfl : admin = admin' := hadmin
  obtain rfl : user = user' := huser
  rfl

/-- Whatever string is in an array from which roles are read is the name of a role. -/
theorem exists_role_of_ofValue {es : Elements} {s : RoleSet} (h : ofValue (.array es) = .ok s)
    {raw : Bytes} (hraw : .string raw ∈ es.toList) : ∃ r : Role, textOf? raw = some r.name := by
  obtain ⟨_, _, hstep⟩ := Json.exists_step_of_read h hraw
  obtain ⟨r, hr, -⟩ := Except.bind_eq_ok_iff.mp hstep
  refine ⟨r, ?_⟩
  unfold Role.ofValue at hr
  dsimp only at hr
  cases htext : textOf? raw with
  | none =>
    rw [htext] at hr
    cases hr
  | some name =>
    rw [htext] at hr
    dsimp only [Role.ofText] at hr
    split at hr
    · rename_i found hfound
      obtain rfl := Except.ok.inj hr
      rw [Role.ofName?_eq_some_iff.mp hfound]
    · cases hr

end RoleSet

namespace Claims

/-- One step of rewriting the members of claims: they are rearranged, the members of the user are
rearranged, the roles are put into another order or repeated, or the roles are left out where there
are none. -/
inductive Rewrites : List (Bytes × Value) → List (Bytes × Value) → Prop
  | outer {ms ms' : List (Bytes × Value)} (h : Rearranged memberNames ms ms') : Rewrites ms ms'
  | user {front back us us' : List (Bytes × Value)} {raw : Bytes} (hraw : textOf? raw = some "user")
      (h : Rearranged User.memberNames us us') :
      Rewrites (front ++ (raw, .object (.ofList us)) :: back)
        (front ++ (raw, .object (.ofList us')) :: back)
  | roles {front back : List (Bytes × Value)} {raw : Bytes} {rs rs' : List Role}
      (hraw : textOf? raw = some "roles") (h : ∀ r, r ∈ rs ↔ r ∈ rs') :
      Rewrites (front ++ (raw, RoleSet.namesOf rs) :: back)
        (front ++ (raw, RoleSet.namesOf rs') :: back)
  | noRoles {front back : List (Bytes × Value)} {raw : Bytes} (hraw : textOf? raw = some "roles") :
      Rewrites (front ++ (raw, RoleSet.namesOf []) :: back) (front ++ back)

variable {c : Claims} {raw : Bytes} {v w : Value}

theorem HeldBy.rearranged (hc : c.HeldBy ms) (h : Rearranged memberNames ms ms') :
    c.HeldBy ms' where
  readable := h.areReadable hc.readable
  subject := h.exists_singleton (by decide) hc.subject
  issuer := h.exists_singleton (by decide) hc.issuer
  issuedAt := h.exists_singleton (by decide) hc.issuedAt
  expiresAt := h.exists_singleton (by decide) hc.expiresAt
  user := h.exists_singleton (by decide) hc.user
  roles := hc.roles.perm (h.membersNamed_perm (by decide))

/-- Claims are held by an object in which a user, or roles, are replaced by a value that is read in
the same way. -/
theorem HeldBy.replaced (hc : c.HeldBy (front ++ (raw, v) :: back)) (hraw : textOf? raw = some name)
    (h : name = "user" ∧ (∀ u, v.ReadBy User.ofValue u → w.ReadBy User.ofValue u) ∨
      name = "roles" ∧ ∀ s, v.ReadBy RoleSet.ofValue s → w.ReadBy RoleSet.ofValue s) :
    c.HeldBy (front ++ (raw, w) :: back) := by
  have hknown : name ∈ memberNames := by
    rcases h with ⟨rfl, -⟩ | ⟨rfl, -⟩ <;> decide
  have hothers : name ∉ ["sub", "iss", "iat", "exp"] := by
    rcases h with ⟨rfl, -⟩ | ⟨rfl, -⟩ <;> decide
  simp only [List.mem_cons, List.not_mem_nil, or_false, not_or] at hothers
  obtain ⟨hsub, hiss, hiat, hexp⟩ := hothers
  exact {
    readable := areReadable_append_cons_iff.mpr ⟨⟨name, hraw, fun hnot => absurd hknown hnot⟩,
      (areReadable_append_cons_iff.mp hc.readable).2⟩
    subject := exists_singleton_replaced hraw (fun heq => absurd heq hsub) hc.subject
    issuer := exists_singleton_replaced hraw (fun heq => absurd heq hiss) hc.issuer
    issuedAt := exists_singleton_replaced hraw (fun heq => absurd heq hiat) hc.issuedAt
    expiresAt := exists_singleton_replaced hraw (fun heq => absurd heq hexp) hc.expiresAt
    user := by
      refine exists_singleton_replaced hraw (fun heq => ?_) hc.user
      rcases h with ⟨-, huser⟩ | ⟨rfl, -⟩
      · exact huser c.user
      · exact absurd heq (by decide)
    roles := by
      refine hc.roles.replaced hraw fun heq => ?_
      rcases h with ⟨rfl, -⟩ | ⟨-, hroles⟩
      · exact absurd heq (by decide)
      · exact hroles c.roles }

/-- Claims without roles are held by an object that does not mention roles. -/
theorem HeldBy.noRoles (hc : c.HeldBy (front ++ (raw, RoleSet.namesOf []) :: back))
    (hraw : textOf? raw = some "roles") : c.HeldBy (front ++ back) := by
  have hrest : ∀ name, "roles" ≠ name →
      membersNamed name (.ofList (front ++ (raw, RoleSet.namesOf []) :: back)) =
        membersNamed name (.ofList (front ++ back)) := by
    intro name hne
    rw [membersNamed_append_cons hraw, given_of_ne hne, List.nil_append, membersNamed_append]
  obtain ⟨hreadable, hsub, hiss, hiat, hexp, huser, hroles⟩ := hc
  refine ⟨(areReadable_append_cons_iff.mp hreadable).2, hrest "sub" (by decide) ▸ hsub,
    hrest "iss" (by decide) ▸ hiss, hrest "iat" (by decide) ▸ hiat, hrest "exp" (by decide) ▸ hexp,
    hrest "user" (by decide) ▸ huser, .inl ?_⟩
  rw [membersNamed_append_cons hraw, given_self] at hroles
  rw [membersNamed_append]
  rcases hroles with ⟨hnone, -⟩ | ⟨x, hx, hread⟩
  · simp at hnone
  · obtain ⟨hfront, rfl, hback⟩ := append_append_eq_singleton_iff.mp hx
    rw [Value.ReadBy, RoleSet.ofValue_namesOf] at hread
    exact ⟨by rw [hfront, hback, List.append_nil], (Except.ok.inj hread).symm⟩

/-- No step of rewriting changes what is held. -/
theorem HeldBy.rewrites (hc : c.HeldBy ms) (h : Rewrites ms ms') : c.HeldBy ms' := by
  cases h with
  | outer h => exact hc.rearranged h
  | user hraw h =>
    refine hc.replaced hraw (.inl ⟨rfl, fun u hu => ?_⟩)
    exact User.ofValue_object_eq_ok_iff.mpr ((User.ofValue_object_eq_ok_iff.mp hu).rearranged h)
  | roles hraw h =>
    refine hc.replaced hraw (.inr ⟨rfl, fun s hs => ?_⟩)
    rw [Value.ReadBy, RoleSet.ofValue_namesOf] at hs ⊢
    rw [← hs, RoleSet.ofList_congr h]
  | noRoles hraw => exact hc.noRoles hraw

/-- What claims are written as holds them. -/
theorem heldBy_written (c : Claims) : c.HeldBy (c.writtenMembers.map Written.memberValue) :=
  ofValue_object_eq_ok_iff.mp (ofValue_written c)

/-- No rewriting of what claims are written as changes what is held. -/
theorem heldBy_of_rewrites
    (h : Relation.ReflTransGen Rewrites (c.writtenMembers.map Written.memberValue) ms) :
    c.HeldBy ms := by
  induction h with
  | refl => exact c.heldBy_written
  | tail _ hstep ih => exact ih.rewrites hstep

/-! ### Documents -/

variable {input : Bytes}

/-- Claims are read from a document that is read to its end. -/
theorem ofJson_eq_of_spells (h : v.SpellsDocument input) : ofJson input = ofValue v := by
  rw [ofJson, Json.ofBytes_eq_whole_iff.mpr h]
  dsimp only
  cases ofValue v <;> rfl

/-- Claims that are read from a document that spells an object are held by it. -/
theorem heldBy_of_ofJson {object : Members} (h : (Value.object object).SpellsDocument input)
    (hc : ofJson input = .ok c) : ∃ members, object = .ofList members ∧ c.HeldBy members := by
  rw [ofJson_eq_of_spells h] at hc
  obtain ⟨members, rfl⟩ := eq_ofList_of_ofValue hc
  exact ⟨members, rfl, ofValue_object_eq_ok_iff.mp hc⟩

/-- What cannot be read as any claims is refused. -/
theorem exists_ofJson_eq_error (h : ∀ c, ofJson input ≠ .ok c) :
    ∃ fault, ofJson input = .error fault := by
  cases hread : ofJson input with
  | error fault => exact ⟨fault, rfl⟩
  | ok c => exact absurd hread (h c)

/-- Under each known name there is one value at most. -/
theorem HeldBy.length_le_one (hc : c.HeldBy ms) (hname : name ∈ memberNames) :
    (membersNamed name (.ofList ms)).length ≤ 1 := by
  simp only [memberNames, List.mem_cons, List.not_mem_nil, or_false] at hname
  rcases hname with rfl | rfl | rfl | rfl | rfl | rfl
  · exact length_le_one_of_exists_singleton hc.subject
  · exact length_le_one_of_exists_singleton hc.issuer
  · exact length_le_one_of_exists_singleton hc.issuedAt
  · exact length_le_one_of_exists_singleton hc.expiresAt
  · exact length_le_one_of_exists_singleton hc.user
  · rcases hc.roles with ⟨hnone, -⟩ | hroles
    · rw [hnone]
      exact Nat.zero_le 1
    · exact length_le_one_of_exists_singleton hroles

/-- The user in claims that are read has each known name once at most. -/
theorem HeldBy.length_user_le_one {us : Members} (hc : c.HeldBy ms)
    (hus : .object us ∈ membersNamed "user" (.ofList ms)) (hname : name ∈ User.memberNames) :
    (membersNamed name us).length ≤ 1 := by
  obtain ⟨v, hv, hu⟩ := hc.user
  rw [hv, List.mem_singleton] at hus
  subst hus
  obtain ⟨_, hread, -⟩ := Except.bind_eq_ok_iff.mp hu
  obtain ⟨members, rfl⟩ := Json.eq_ofList_of_readMembers hread
  have hheld := User.ofValue_object_eq_ok_iff.mp hu
  simp only [User.memberNames, List.mem_cons, List.not_mem_nil, or_false] at hname
  rcases hname with rfl | rfl
  · exact length_le_one_of_exists_singleton hheld.id
  · exact length_le_one_of_exists_singleton hheld.username

/-- The strings among the roles of claims that are read are names of roles. -/
theorem HeldBy.exists_role {es : Elements} (hc : c.HeldBy ms)
    (hes : .array es ∈ membersNamed "roles" (.ofList ms)) (hraw : .string raw ∈ es.toList) :
    ∃ r : Role, textOf? raw = some r.name := by
  rcases hc.roles with ⟨hnone, -⟩ | ⟨v, hv, hread⟩
  · rw [hnone] at hes
    cases hes
  · rw [hv, List.mem_singleton] at hes
    subst hes
    exact RoleSet.exists_role_of_ofValue hread hraw

/-! ### Main statement -/

/-- What is read of a document of claims depends on the members that are known, and on these only as
far as they tell the claims.  Every text of an object that is rewritten from what claims are written
as is read as these claims, with any white space.  No claims at all are read from an object that has
a known name twice, whatever the values and however the names are escaped, or whose user has; nor
from one among whose roles there is a string that is not the name of a role. -/
theorem decoding_depends_on_known_members :
    (∀ (c : Claims) {members : List (Bytes × Value)} {input : Bytes},
      Relation.ReflTransGen Rewrites (c.writtenMembers.map Written.memberValue) members →
        (Value.object (.ofList members)).SpellsDocument input → ofJson input = .ok c) ∧
    ∀ {object : Members} {input : Bytes}, (Value.object object).SpellsDocument input →
      (∀ name ∈ memberNames, 2 ≤ (membersNamed name object).length →
        ∃ fault, ofJson input = .error fault) ∧
      (∀ us, .object us ∈ membersNamed "user" object →
        ∀ name ∈ User.memberNames, 2 ≤ (membersNamed name us).length →
          ∃ fault, ofJson input = .error fault) ∧
      ∀ es raw, .array es ∈ membersNamed "roles" object → .string raw ∈ es.toList →
        (∀ r : Role, textOf? raw ≠ some r.name) → ∃ fault, ofJson input = .error fault := by
  constructor
  · intro c members input hrewrites hinput
    rw [ofJson_eq_of_spells hinput]
    exact ofValue_object_eq_ok_iff.mpr (heldBy_of_rewrites hrewrites)
  · intro object input hinput
    refine ⟨fun name hname htwice => exists_ofJson_eq_error fun c hc => ?_,
      fun us hus name hname htwice => exists_ofJson_eq_error fun c hc => ?_,
      fun es raw hes hraw hother => exists_ofJson_eq_error fun c hc => ?_⟩
    · obtain ⟨members, rfl, hheld⟩ := heldBy_of_ofJson hinput hc
      have hlength := hheld.length_le_one hname
      omega
    · obtain ⟨members, rfl, hheld⟩ := heldBy_of_ofJson hinput hc
      have hlength := hheld.length_user_le_one hus hname
      omega
    · obtain ⟨members, rfl, hheld⟩ := heldBy_of_ofJson hinput hc
      obtain ⟨r, hr⟩ := hheld.exists_role hes hraw
      exact hother r hr

/-- Claims with a member that nobody knows in front, under a name with escapes. -/
def withStray (c : Claims) : List (String × Written) :=
  ("\n", Written.array [Written.ofText "x"]) :: c.writtenMembers

/-- A member that nobody knows does not matter, a second subject does. -/
theorem decoding_depends_on_known_members_stray :
    Relation.ReflTransGen Rewrites
        ((Fixtures.freshUserClaims 1700000000).writtenMembers.map Written.memberValue)
        ((Fixtures.freshUserClaims 1700000000).withStray.map Written.memberValue) ∧
      ofJson (utf8 (Written.object (Fixtures.freshUserClaims 1700000000).withStray).text) =
        .ok (Fixtures.freshUserClaims 1700000000) ∧
      ∃ fault, ofJson (utf8 (Written.object (("sub", Written.ofText "x") ::
        (Fixtures.freshUserClaims 1700000000).writtenMembers)).text) = .error fault := by
  have hinserted : Rearranged memberNames
      ([] ++ (Fixtures.freshUserClaims 1700000000).writtenMembers.map Written.memberValue)
      ([] ++ (Fixtures.freshUserClaims 1700000000).withStray.map Written.memberValue) :=
    .inserted (Json.textOf?_escaped "\n") (by decide) (Written.array [Written.ofText "x"]).spells
  have hrewrites := Relation.ReflTransGen.single (Rewrites.outer hinserted)
  refine ⟨hrewrites, decoding_depends_on_known_members.1 _ hrewrites
    (Written.object (Fixtures.freshUserClaims 1700000000).withStray).spellsDocument, ?_⟩
  refine (decoding_depends_on_known_members.2 (Written.object (("sub", Written.ofText "x") ::
    (Fixtures.freshUserClaims 1700000000).writtenMembers)).spellsDocument).1 "sub" (by decide) ?_
  rw [Written.membersNamed_object, if_pos rfl, writtenMembers, Written.membersNamed_object,
    if_pos rfl]
  simp

end Claims

end BearerAuth
