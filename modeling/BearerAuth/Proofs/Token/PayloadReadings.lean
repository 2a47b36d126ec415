import Mathlib
import BearerAuth.Proofs.Claims.Fields
import BearerAuth.Proofs.Token.RegisteredMembers
import BearerAuth.Token.Verify

/-!
# The two readings of a payload

The claims of a token are read from its payload strictly, and its times are picked out of the same
payload by a tolerant reading of their own.  The clock is compared with what the second reading
found, and the caller is given what the first one found.  In a payload that passes both, the end of
the claims is one and the same number for both, and no beginning escapes the second reading.

Main statements: `readings_of_readPayload` for payloads that pass, and `Registered.isValidAt_iff`
for the comparison with the clock.
-/

namespace BearerAuth.Token

open Json

/-! ### The tolerant reading -/

/-- A member that is noted has a free place, which it fills, or no place at all. -/
theorem Registered.take?_cases {r r' : Registered} {name : String} {v : Value}
    (h : r.take? name v = some r') :
    (name = "exp" ∧ r.exp = none ∧ r' = { r with exp := some (secondsOf? v) }) ∨
      (name = "nbf" ∧ r.nbf = none ∧ r' = { r with nbf := some (secondsOf? v) }) ∨
      (name = "sub" ∧ r.sub = none ∧ r' = { r with sub := some (isText v) }) ∨
      (name ∉ ["exp", "nbf", "sub"] ∧ r'.exp = r.exp ∧ r'.nbf = r.nbf ∧ r'.sub = r.sub) := by
  unfold Registered.take? at h
  split at h
  · obtain ⟨hfree, heq⟩ := Option.ite_none_left_eq_some.mp h
    cases heq
    exact .inl ⟨rfl, Option.not_isSome_iff_eq_none.mp hfree, rfl⟩
  · obtain ⟨hfree, heq⟩ := Option.ite_none_left_eq_some.mp h
    cases heq
    exact .inr (.inl ⟨rfl, Option.not_isSome_iff_eq_none.mp hfree, rfl⟩)
  · obtain ⟨hfree, heq⟩ := Option.ite_none_left_eq_some.mp h
    cases heq
    exact .inr (.inr (.inl ⟨rfl, Option.not_isSome_iff_eq_none.mp hfree, rfl⟩))
  · obtain ⟨-, heq⟩ := Option.ite_none_left_eq_some.mp h
    cases heq
    exact .inr (.inr (.inr ⟨by decide, rfl, rfl, rfl⟩))
  · obtain ⟨-, heq⟩ := Option.ite_none_left_eq_some.mp h
    cases heq
    exact .inr (.inr (.inr ⟨by decide, rfl, rfl, rfl⟩))
  · rename_i hexp hnbf hsub _ _
    cases h
    refine .inr (.inr (.inr ⟨?_, rfl, rfl, rfl⟩))
    simp only [List.mem_cons, List.not_mem_nil, or_false, not_or]
    exact ⟨hexp, hnbf, hsub⟩

/-- A value means the number of seconds that it denotes, if any. -/
def IsSeconds (v : Value) (seconds : Option Nat) : Prop :=
  seconds = secondsOf? v

/-- A place of a reading that is filled by the members of one name. -/
def IsPlaceOf (name : String) (place : Registered → Option (Option Nat)) : Prop :=
  ∀ {r r' : Registered} {other : String} {v : Value}, r.take? other v = some r' →
    (other = name ∧ place r = none ∧ place r' = some (secondsOf? v)) ∨
      (other ≠ name ∧ place r' = place r)

theorem isPlaceOf_exp : IsPlaceOf "exp" Registered.exp := by
  intro r r' other v h
  rcases Registered.take?_cases h with ⟨rfl, hfree, rfl⟩ | ⟨rfl, -, rfl⟩ | ⟨rfl, -, rfl⟩ |
    ⟨hother, hexp, -, -⟩
  · exact .inl ⟨rfl, hfree, rfl⟩
  · exact .inr ⟨by decide, rfl⟩
  · exact .inr ⟨by decide, rfl⟩
  · refine .inr ⟨?_, hexp⟩
    rintro rfl
    exact hother (by decide)

theorem isPlaceOf_nbf : IsPlaceOf "nbf" Registered.nbf := by
  intro r r' other v h
  rcases Registered.take?_cases h with ⟨rfl, -, rfl⟩ | ⟨rfl, hfree, rfl⟩ | ⟨rfl, -, rfl⟩ |
    ⟨hother, -, hnbf, -⟩
  · exact .inr ⟨by decide, rfl⟩
  · exact .inl ⟨rfl, hfree, rfl⟩
  · exact .inr ⟨by decide, rfl⟩
  · refine .inr ⟨?_, hnbf⟩
    rintro rfl
    exact hother (by decide)

/-- A place is filled with what the only member of its name denotes, or stays as it is where there
is no such member. -/
theorem fills_of_foldlM {name : String} {place : Registered → Option (Option Nat)}
    (hplace : IsPlaceOf name place) {members : List (Bytes × Value)} {r r' : Registered}
    (h : members.foldlM Registered.note? r = some r') :
    Fills IsSeconds (place r) (membersNamed name (.ofList members)) (place r') := by
  induction members generalizing r with
  | nil =>
    cases h
    exact fills_nil.mpr rfl
  | cons m members ih =>
    rw [List.foldlM_cons] at h
    obtain ⟨r₁, hnote, h⟩ := Option.bind_eq_some_iff.mp h
    obtain ⟨other, hname, htake⟩ := Option.bind_eq_some_iff.mp hnote
    have hfills := ih h
    rw [membersNamed_cons, hname]
    rcases hplace htake with ⟨rfl, hfree, hfilled⟩ | ⟨hne, hkept⟩
    · rw [if_pos rfl, fills_cons]
      rw [hfilled] at hfills
      exact ⟨hfree, _, rfl, hfills⟩
    · rw [if_neg fun heq => hne (Option.some.inj heq)]
      rwa [hkept] at hfills

/-! ### The strict reading -/

/-- Claims that are read from an object end when its only member of this name says. -/
theorem exp_of_ofValue {ms : Members} {c : Claims} (h : Claims.ofValue (.object ms) = .ok c) :
    ∃ members v, ms = .ofList members ∧ membersNamed "exp" ms = [v] ∧
      v.ReadBy Value.asInt64 c.expiresAt := by
  obtain ⟨members, rfl⟩ := Claims.eq_ofList_of_ofValue h
  obtain ⟨v, hv, hi⟩ := (Claims.ofValue_object_eq_ok_iff.mp h).expiresAt
  exact ⟨members, v, rfl, hv, hi⟩

/-! ### Both readings -/

/-- A token that does not name both its end and its subject is never valid. -/
theorem Registered.isValidAt_of_absent {r : Registered} {leeway now : UInt64}
    (h : ∀ exp, r.exp = some (some exp) → r.sub ≠ some true) :
    r.isValidAt leeway now = .ok false := by
  unfold Registered.isValidAt
  split
  · rename_i exp hexp hsub
    exact absurd hsub (h exp hexp)
  · rfl

/-- A token that is valid names its end. -/
theorem exists_exp_of_isValidAt {r : Registered} {leeway now : UInt64}
    (h : r.isValidAt leeway now = .ok true) : ∃ exp, r.exp = some (some exp) := by
  by_contra hnone
  rw [Registered.isValidAt_of_absent fun exp hexp => absurd ⟨exp, hexp⟩ hnone] at h
  cases h

/-- An integer that is read as such is not negative if it denotes a number of seconds, and then this
is the number. -/
theorem eq_of_secondsOf? {v : Value} {i : Int64} {seconds : Nat} (hi : v.ReadBy Value.asInt64 i)
    (hseconds : secondsOf? v = some seconds) : i.toInt = seconds := by
  unfold Value.ReadBy Value.asInt64 at hi
  split at hi
  on_goal 2 => cases hi
  rename_i n
  rw [secondsOf?] at hseconds
  split at hi
  · rename_i m hm
    rw [hm] at hseconds
    obtain rfl : m = seconds := Option.some.inj hseconds
    split at hi
    · rename_i hlt
      cases hi
      exact Int64.toInt_ofNat_of_lt hlt
    · cases hi
  · rename_i m hm
    rw [hm] at hseconds
    cases hseconds
  · cases hi

/-- A payload is read if it holds claims and the tolerant reading finds it valid. -/
theorem readPayload_eq_ok_iff {leeway now : UInt64} {payload : Bytes} {c : Claims} :
    readPayload leeway now payload = .ok c ↔
      Claims.ofJson payload = .ok c ∧
        ∃ r, Registered.ofBytes payload = some r ∧ r.isValidAt leeway now = .ok true := by
  unfold readPayload
  constructor
  · intro h
    split at h
    · rename_i found r hfound hr
      split at h
      · rename_i hvalid
        obtain rfl : found = c := Except.ok.inj h
        exact ⟨hfound, r, hr, hvalid⟩
      · cases h
      · cases h
    · cases h
  · rintro ⟨hclaims, r, hr, hvalid⟩
    simp only [hclaims, hr, hvalid]

/-- Reading a payload breaks off where comparing its bounds with the clock does. -/
theorem readPayload_eq_overflow_iff {leeway now : UInt64} {payload : Bytes} {reason : Overflow} :
    readPayload leeway now payload = .error (.overflow reason) ↔
      ∃ c r, Claims.ofJson payload = .ok c ∧ Registered.ofBytes payload = some r ∧
        r.isValidAt leeway now = .error reason := by
  unfold readPayload
  constructor
  · intro h
    split at h
    · rename_i found r hfound hr
      split at h
      · cases h
      · cases h
      · rename_i found hover
        obtain rfl := Refusal.overflow.inj (Except.error.inj h)
        exact ⟨_, r, hfound, hr, hover⟩
    · cases h
  · rintro ⟨c, r, hclaims, hr, hover⟩
    simp only [hclaims, hr, hover]

/-- What passes both readings is an object with one end, on which the readings agree; the tolerant
reading has judged every member that names a beginning. -/
theorem readings_of_readPayload {leeway now : UInt64} {payload : Bytes} {c : Claims}
    (h : readPayload leeway now payload = .ok c) :
    ∃ ms r, Document.ofBytes payload = ⟨.object ms, true⟩ ∧
      Registered.ofBytes payload = some r ∧ r.isValidAt leeway now = .ok true ∧
      0 ≤ c.expiresAt.toInt ∧ r.exp = some (some c.expiresAt.toInt.toNat) ∧
      Fills IsSeconds none (membersNamed "nbf" ms) r.nbf := by
  obtain ⟨hclaims, r, hr, hvalid⟩ := readPayload_eq_ok_iff.mp h
  obtain ⟨found, hfound, hcomplete⟩ := Except.bind_eq_ok_iff.mp hclaims
  split at hcomplete
  on_goal 2 => cases hcomplete
  rename_i hwhole
  obtain rfl : found = c := Except.ok.inj hcomplete
  have hdocument : Document.ofBytes payload = ⟨(Document.ofBytes payload).value, true⟩ := by
    rw [← hwhole]
  obtain ⟨ms, hobject, hfold⟩ := Registered.ofBytes_spells (ofBytes_eq_whole_iff.mp hdocument) hr
  rw [hobject] at hfound hdocument
  obtain ⟨members, v, rfl, hv, hi⟩ := exp_of_ofValue hfound
  rw [toList_ofList] at hfold
  obtain ⟨seconds, hexp⟩ := exists_exp_of_isValidAt hvalid
  have hfills : Fills IsSeconds none (membersNamed "exp" (.ofList members)) r.exp :=
    fills_of_foldlM isPlaceOf_exp hfold
  rw [hv, hexp] at hfills
  rcases hfills with ⟨hnil, -⟩ | ⟨-, w, a, hw, ha, heq⟩
  · cases hnil
  obtain rfl : v = w := List.singleton_inj.mp hw
  obtain rfl : some seconds = a := Option.some.inj heq
  have htoInt : found.expiresAt.toInt = seconds := eq_of_secondsOf? hi ha.symm
  refine ⟨_, r, hdocument, hr, hvalid, by omega, ?_, fills_of_foldlM isPlaceOf_nbf hfold⟩
  rw [hexp, htoInt, Int.toNat_natCast]

/-! ### The comparison with the clock -/

variable {r : Registered} {leeway now : UInt64} {exp : Nat}

/-- A token that names its end and its subject is compared with the clock: first its end, with a
difference that has to be a word, and then its beginning. -/
theorem Registered.isValidAt_of_named (hexp : r.exp = some (some exp)) (hsub : r.sub = some true) :
    r.isValidAt leeway now =
      if now < leeway then .error .subtraction
      else if exp % 2 ^ 64 + leeway.toNat < now.toNat then .ok false
      else r.hasBegunAt leeway now := by
  simp only [Registered.isValidAt, hexp, hsub]
  by_cases hlt : now < leeway
  · rw [if_pos hlt, Word.sub_of_lt hlt]
    rfl
  · rw [if_neg hlt]
    have hle := UInt64.not_lt.mp hlt
    have hended : UInt64.ofNat exp < now - leeway ↔ exp % 2 ^ 64 + leeway.toNat < now.toNat := by
      have hle' := UInt64.le_iff_toNat_le.mp hle
      rw [UInt64.lt_iff_toNat_lt, UInt64.toNat_sub_of_le _ _ hle, UInt64.toNat_ofNat']
      omega
    rw [Word.sub_of_le hle]
    exact if_congr hended rfl rfl

/-- A beginning is compared with a sum that has to be a word; without a beginning nothing is. -/
theorem Registered.hasBegunAt_eq :
    (∀ nbf, r.nbf = some (some nbf) → r.hasBegunAt leeway now =
      if 2 ^ 64 ≤ now.toNat + leeway.toNat then .error .addition
      else .ok (decide (nbf % 2 ^ 64 ≤ now.toNat + leeway.toNat))) ∧
    ((∀ nbf, r.nbf ≠ some (some nbf)) → r.hasBegunAt leeway now = .ok true) := by
  constructor
  · intro nbf hnbf
    simp only [Registered.hasBegunAt, hnbf]
    by_cases hbeyond : 2 ^ 64 ≤ now.toNat + leeway.toNat
    · rw [if_pos hbeyond, Word.add_of_le hbeyond]
      rfl
    · rw [if_neg hbeyond, Word.add_of_lt (Nat.not_le.mp hbeyond)]
      have hbegun : ¬ now + leeway < UInt64.ofNat nbf ↔
          nbf % 2 ^ 64 ≤ now.toNat + leeway.toNat := by
        rw [UInt64.not_lt, UInt64.le_iff_toNat_le, UInt64.toNat_ofNat', UInt64.toNat_add,
          Nat.mod_eq_of_lt (Nat.not_le.mp hbeyond)]
      exact congrArg Except.ok (decide_eq_decide.mpr hbegun)
  · intro hnone
    unfold Registered.hasBegunAt
    split
    · rename_i nbf hnbf
      exact absurd hnbf (hnone nbf)
    · rfl

/-- A token has begun if it names no beginning, or if its beginning is at most the leeway from
now and this is a word. -/
theorem Registered.hasBegunAt_eq_ok_true_iff :
    r.hasBegunAt leeway now = .ok true ↔ ∀ nbf, r.nbf = some (some nbf) →
      now.toNat + leeway.toNat < 2 ^ 64 ∧ nbf % 2 ^ 64 ≤ now.toNat + leeway.toNat := by
  by_cases hnamed : ∃ nbf, r.nbf = some (some nbf)
  · obtain ⟨nbf, hnbf⟩ := hnamed
    rw [Registered.hasBegunAt_eq.1 nbf hnbf, hnbf]
    split
    · rename_i hbeyond
      constructor
      · intro h
        cases h
      · intro h
        exact absurd (h nbf rfl).1 (Nat.not_lt.mpr hbeyond)
    · rename_i hword
      rw [Except.ok.injEq, decide_eq_true_eq]
      constructor
      · intro hle other hother
        obtain rfl := Option.some.inj (Option.some.inj hother)
        exact ⟨Nat.not_le.mp hword, hle⟩
      · intro h
        exact (h nbf rfl).2
  · push Not at hnamed
    rw [Registered.hasBegunAt_eq.2 hnamed]
    simp [hnamed]

/-- A token is valid from its beginning on and up to its end, each widened by the leeway, as far as
the bounds that are looked at are words. -/
theorem Registered.isValidAt_eq_ok_true_iff :
    r.isValidAt leeway now = .ok true ↔
      r.sub = some true ∧ ∃ exp, r.exp = some (some exp) ∧ leeway ≤ now ∧
        now.toNat ≤ exp % 2 ^ 64 + leeway.toNat ∧
        ∀ nbf, r.nbf = some (some nbf) →
          now.toNat + leeway.toNat < 2 ^ 64 ∧ nbf % 2 ^ 64 ≤ now.toNat + leeway.toNat := by
  by_cases hnamed : ∃ exp, r.exp = some (some exp) ∧ r.sub = some true
  · obtain ⟨exp, hexp, hsub⟩ := hnamed
    rw [Registered.isValidAt_of_named hexp hsub, ← Registered.hasBegunAt_eq_ok_true_iff]
    simp only [hsub, hexp, Option.some.injEq, true_and, exists_eq_left']
    split
    · rename_i hlt
      simp [UInt64.not_le.mpr hlt]
    · rename_i hle
      split
      · rename_i hended
        constructor
        · intro h
          cases h
        · rintro ⟨-, hnotEnded, -⟩
          exact absurd hended (Nat.not_lt.mpr hnotEnded)
      · rename_i hnotEnded
        exact ⟨fun hbegun => ⟨UInt64.not_lt.mp hle, Nat.not_lt.mp hnotEnded, hbegun⟩,
          fun h => h.2.2⟩
  · rw [Registered.isValidAt_of_absent fun exp hexp hsub => hnamed ⟨exp, hexp, hsub⟩]
    constructor
    · intro h
      cases h
    · rintro ⟨hsub, exp, hexp, -⟩
      exact absurd ⟨exp, hexp, hsub⟩ hnamed

/-- Where both bounds are words, a token is valid from its beginning on and up to its end, each
widened by the leeway. -/
theorem Registered.isValidAt_iff (hle : leeway ≤ now) (hlt : now.toNat + leeway.toNat < 2 ^ 64) :
    r.isValidAt leeway now = .ok true ↔
      r.sub = some true ∧ ∃ exp, r.exp = some (some exp) ∧
        now.toNat ≤ exp % 2 ^ 64 + leeway.toNat ∧
        ∀ nbf, r.nbf = some (some nbf) → nbf % 2 ^ 64 ≤ now.toNat + leeway.toNat := by
  rw [Registered.isValidAt_eq_ok_true_iff]
  simp only [hle, hlt, true_and]

end BearerAuth.Token
