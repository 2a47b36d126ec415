import Mathlib
import BearerAuth.Proofs.Json.Members
import BearerAuth.Proofs.Token.Strays

/-!
# The registered members of a document

What the tolerant reading of a payload finds in a document that is JSON.  Values that it cannot use
do not lead it to others: a reading that does not go on behind such a value finds nothing at all, so
whatever is found was judged by the values of the members alone.

Main statements: `readRegistered_of_lost` for the reading that went astray, and
`Registered.ofBytes_spells`, which says that the reading of an object goes through its members.
-/

namespace BearerAuth.Token

open Json

/-! ### Judging members by their values -/

/-- What has been read after a member with this name and value. -/
def Registered.take? (r : Registered) (name : String) (v : Value) : Option Registered :=
  match name with
  | "exp" => if r.exp.isSome then none else some { r with exp := some (secondsOf? v) }
  | "nbf" => if r.nbf.isSome then none else some { r with nbf := some (secondsOf? v) }
  | "sub" => if r.sub.isSome then none else some { r with sub := some (isText v) }
  | "iss" => if r.iss then none else some { r with iss := true }
  | "aud" => if r.aud then none else some { r with aud := true }
  | _ => some r

/-- What has been read after a member, if its name is a text. -/
def Registered.note? (r : Registered) (m : Bytes × Value) : Option Registered :=
  (textOf? m.1).bind (r.take? · m.2)

section Steps

variable {r r' : Registered} {name : String} {v : Value} {u b behind rest : Bytes}

/-- A member with any other name is skipped. -/
theorem Registered.step_of_notMem (h : name ∉ ["exp", "nbf", "sub", "iss", "aud"])
    (input : Bytes) : r.step name input = ((readValue input).2).map fun rest => (r, rest) := by
  simp only [List.mem_cons, List.not_mem_nil, or_false, not_or] at h
  obtain ⟨hexp, hnbf, hsub, hiss, haud⟩ := h
  unfold Registered.step
  split
  · exact absurd rfl hexp
  · exact absurd rfl hnbf
  · exact absurd rfl hsub
  · exact absurd rfl hiss
  · exact absurd rfl haud
  · rfl

theorem Registered.take?_of_notMem (h : name ∉ ["exp", "nbf", "sub", "iss", "aud"]) :
    r.take? name v = some r := by
  simp only [List.mem_cons, List.not_mem_nil, or_false, not_or] at h
  obtain ⟨hexp, hnbf, hsub, hiss, haud⟩ := h
  unfold Registered.take?
  split
  · exact absurd rfl hexp
  · exact absurd rfl hnbf
  · exact absurd rfl hsub
  · exact absurd rfl hiss
  · exact absurd rfl haud
  · rfl

/-- The value of a member is judged by itself, and the reading has landed behind it. -/
theorem Registered.step_spells (hu : Blank u) (hv : v.Spells b) (hbehind : Follows behind)
    (h : r.step name (u ++ (b ++ behind)) = some (r', rest)) :
    r.take? name v = some r' ∧ Landed behind rest := by
  by_cases hname : name ∈ ["exp", "nbf", "sub", "iss", "aud"]
  · obtain ⟨afterSeconds, hseconds, hlandedSeconds⟩ := readSeconds_spells hu hv hbehind
    obtain ⟨afterText, htext, hlandedText⟩ := readText_spells hu hv hbehind
    have hlandedAny := passAny_landed hu hv hbehind
    simp only [List.mem_cons, List.not_mem_nil, or_false] at hname
    rcases hname with rfl | rfl | rfl | rfl | rfl
    all_goals
      simp only [Registered.step, hseconds, htext, Option.ite_none_left_eq_some] at h
      obtain ⟨hfree, heq⟩ := h
      cases heq
    · exact ⟨if_neg hfree, hlandedSeconds⟩
    · exact ⟨if_neg hfree, hlandedSeconds⟩
    · exact ⟨if_neg hfree, hlandedText⟩
    · exact ⟨if_neg hfree, hlandedAny⟩
    · exact ⟨if_neg hfree, hlandedAny⟩
  · have hread : readValue (u ++ (b ++ behind)) = (v, some behind) := by
      rw [readValue, readValueAux_blank hu]
      refine (readValueAux_and_readElements_and_readMembers _).1 hv ?_ hbehind.stops
      simp only [List.length_append]
      omega
    rw [Registered.step_of_notMem hname, hread] at h
    cases h
    exact ⟨Registered.take?_of_notMem hname, landed_self behind⟩

/-- A name of structural bytes is none of the registered ones. -/
theorem notMem_registered_of_structural (h : ∀ b ∈ utf8 name, isStructural b) :
    name ∉ ["exp", "nbf", "sub", "iss", "aud"] := by
  intro hname
  simp only [List.mem_cons, List.not_mem_nil, or_false] at hname
  rcases hname with rfl | rfl | rfl | rfl | rfl
  · exact absurd (h (ascii 'x') (by decide)) (by decide)
  · exact absurd (h (ascii 'b') (by decide)) (by decide)
  · exact absurd (h (ascii 'b') (by decide)) (by decide)
  · exact absurd (h (ascii 'i') (by decide)) (by decide)
  · exact absurd (h (ascii 'd') (by decide)) (by decide)

end Steps

/-! ### One member -/

section Members

variable {fuel : Nat} {first : Bool} {r r' : Registered} {s input : Bytes}

/-- A reading that succeeds found the end of the object, or a member. -/
theorem exists_of_readRegistered (h : readRegistered fuel first r s = some r') :
    ∃ fuel' c rest, fuel = fuel' + 1 ∧ skipBlank s = c :: rest ∧
      (c = ascii '\x7d' ∧ skipBlank rest = [] ∧ r' = r ∨
        c ≠ ascii '\x7d' ∧ first = true ∧ readRegisteredMember fuel' r (c :: rest) = some r' ∨
        c = ascii ',' ∧ first = false ∧
          readRegisteredMember fuel' r (skipBlank rest) = some r') := by
  cases fuel with
  | zero => cases h
  | succ fuel =>
    rw [readRegistered] at h
    split at h
    · cases h
    rename_i c rest hs
    refine ⟨fuel, c, rest, rfl, hs, ?_⟩
    split at h
    · rename_i hc
      split at h
      · rename_i hrest
        cases h
        exact .inl ⟨hc, List.isEmpty_iff.mp hrest, rfl⟩
      · cases h
    rename_i hc
    split at h
    · rename_i hfirst
      exact .inr (.inl ⟨hc, hfirst, h⟩)
    rename_i hfirst
    split at h
    · rename_i hcomma
      exact .inr (.inr ⟨hcomma, Bool.eq_false_iff.mpr hfirst, h⟩)
    · cases h

/-- A member that is read has a name, a colon and a value that its name allows. -/
theorem exists_of_readRegisteredMember (h : readRegisteredMember fuel r input = some r') :
    ∃ fuel' tail name rest after r₁ place, fuel = fuel' + 1 ∧ input = ascii '"' :: tail ∧
      readString tail = .ok (name, rest) ∧ skipBlank rest = ascii ':' :: after ∧
      r.step name after = some (r₁, place) ∧ readRegistered fuel' false r₁ place = some r' := by
  cases fuel with
  | zero => cases h
  | succ fuel =>
    cases input with
    | nil => cases h
    | cons q tail =>
      rw [readRegisteredMember] at h
      split at h
      on_goal 2 => cases h
      rename_i hq
      split at h
      · cases h
      rename_i name rest hname
      split at h
      · cases h
      rename_i c after hc
      split at h
      on_goal 2 => cases h
      rename_i hcolon
      split at h
      · cases h
      rename_i r₁ place hstep
      rw [hcolon] at hc
      exact ⟨fuel, tail, name, rest, after, r₁, place, rfl, by rw [hq], hname, hc, hstep, h⟩

/-- A member of the document is judged by its value, and the reading goes on from a place that has
landed behind it. -/
theorem exists_of_readRegisteredMember_spells {name w u b next : Bytes} {v : Value}
    (hname : StringBody name) (hw : Blank w) (hu : Blank u) (hv : v.Spells b)
    (hnext : Follows next)
    (h : readRegisteredMember fuel r
      (ascii '"' :: (name ++ ascii '"' :: (w ++ ascii ':' :: (u ++ (b ++ next))))) = some r') :
    ∃ fuel' r₁ place, fuel = fuel' + 1 ∧ r.note? (name, v) = some r₁ ∧ Landed next place ∧
      readRegistered fuel' false r₁ place = some r' := by
  obtain ⟨fuel', tail, text, rest, after, r₁, place, rfl, htail, hread, hcolon, hstep, hrest⟩ :=
    exists_of_readRegisteredMember h
  obtain rfl : name ++ ascii '"' :: (w ++ ascii ':' :: (u ++ (b ++ next))) = tail :=
    (List.cons.inj htail).2
  have hafter : Paired (w ++ ascii ':' :: (u ++ (b ++ next))) :=
    hw.paired.append ((hu.paired.append (hv.paired.append hnext.paired)).cons (by decide))
  rcases readString_place hname hafter with ⟨found, htext, hfound⟩ | ⟨_, herror, -⟩
  on_goal 2 =>
    rw [herror] at hread
    cases hread
  rw [hfound] at hread
  obtain ⟨rfl, rfl⟩ := Prod.mk.inj (Except.ok.inj hread)
  rw [skipBlank_append hw, skipBlank_cons (by decide)] at hcolon
  obtain rfl := (List.cons.inj hcolon).2
  obtain ⟨htake, hlanded⟩ := Registered.step_spells hu hv hnext hstep
  refine ⟨fuel', r₁, place, rfl, ?_, hlanded, hrest⟩
  rw [Registered.note?, htext]
  exact htake

end Members

/-! ### Readings that went astray -/

/-- The place is inside of a bracket of a document. -/
def Inside (s : Bytes) : Prop :=
  ∃ k ks, Within (k :: ks) [] s

section Astray

variable {fuel : Nat} {r : Registered} {behind s : Bytes}

theorem Inside.of_within {ks : List Bracket} (h : Within ks behind s) (hbehind : Inside behind) :
    Inside s := by
  obtain ⟨k', ks', hks'⟩ := hbehind
  have happend := h.append hks'
  cases ks with
  | nil => exact ⟨k', ks', happend⟩
  | cons k ks => exact ⟨k, ks ++ k' :: ks', happend⟩

theorem Inside.follows (h : Inside s) : Follows s := by
  obtain ⟨k, ks, hks⟩ := h
  exact hks.follows paired_nil

/-- Inside of a bracket something follows. -/
theorem Inside.skipBlank_ne_nil (h : Inside s) : skipBlank s ≠ [] := by
  obtain ⟨k, ks, next, -, hs⟩ := h
  rcases hs with hclose | ⟨b, -, hmore⟩
  · rw [hclose]
    exact List.cons_ne_nil _ _
  · rw [hmore]
    exact List.cons_ne_nil _ _

/-- A reading inside of a string stays inside of strings. -/
theorem InQuotes.of_readRegisteredMember {input : Bytes} {r' : Registered}
    (hin : InQuotes input) (h : readRegisteredMember fuel r input = some r') :
    ∃ fuel' r₁ place, fuel = fuel' + 1 ∧ InQuotes place ∧
      readRegistered fuel' false r₁ place = some r' := by
  obtain ⟨fuel', tail, name, rest, after, r₁, place, rfl, rfl, hread, hcolon, hstep, hrest⟩ :=
    exists_of_readRegisteredMember h
  obtain ⟨hname, hin⟩ := hin.readString_name hread
  have hafter : InQuotes after := by
    have hskip := hin.skipBlank
    rw [hcolon] at hskip
    exact .of_append (paired_nil.cons (by decide)) hskip
  rw [Registered.step_of_notMem (notMem_registered_of_structural hname)] at hstep
  obtain ⟨behind, hvalue, heq⟩ := Option.map_eq_some_iff.mp hstep
  obtain ⟨rfl, rfl⟩ := Prod.mk.inj heq
  obtain ⟨w, b, hw, hv, rfl⟩ := (soundUpTo _).value (Prod.ext rfl hvalue)
  refine ⟨fuel', r, behind, rfl, ?_, hrest⟩
  exact (hafter.of_append hw.paired).of_append hv.paired

/-- Elements of an array are no members: behind a string there is no colon. -/
theorem readRegisteredMember_of_elements {es : Elements} {b : Bytes} (hes : es.Spells b)
    (hbehind : Inside behind) :
    readRegisteredMember fuel r (skipBlank (b ++ behind)) = none := by
  by_contra hne
  obtain ⟨r', h⟩ := Option.ne_none_iff_exists'.mp hne
  obtain ⟨fuel', tail, name, rest, after, r₁, place, rfl, hinput, hread, hcolon, -⟩ :=
    exists_of_readRegisteredMember h
  obtain ⟨w, v, front, back, hw, hv, rfl, hback⟩ := hes.front
  have hnext : Behind .square behind (back ++ behind) := hback behind
  obtain ⟨c, front, rfl, hblank, -⟩ := hv.head
  simp only [List.append_assoc, List.cons_append] at hinput
  rw [skipBlank_append hw, skipBlank_cons hblank] at hinput
  obtain ⟨rfl, rfl⟩ := List.cons.inj hinput
  obtain ⟨raw, hraw, rfl⟩ : ∃ raw, StringBody raw ∧ front = raw ++ [ascii '"'] := by
    rcases hv.front_cases with ⟨-, hstring⟩ | ⟨hcurly, -⟩ | ⟨hquote, -⟩
    · exact hstring
    · exact absurd hcurly (by decide)
    · exact absurd rfl hquote
  have hfollows := (hbehind.of_within (within_single hnext)).follows
  rw [List.append_assoc] at hread
  -- The name is the whole string, so its colon would stand behind the element.
  rcases readString_place hraw hfollows.paired with ⟨_, -, hfound⟩ | ⟨_, herror, -⟩
  · have hrest := hread.symm.trans hfound
    obtain ⟨-, rfl⟩ := Prod.mk.inj (Except.ok.inj hrest)
    rcases hnext with hclose | ⟨_, -, hmore⟩
    · rw [hclose] at hcolon
      exact absurd (List.cons.inj hcolon).1 (by decide)
    · rw [hmore] at hcolon
      exact absurd (List.cons.inj hcolon).1 (by decide)
  · have hrest := hread.symm.trans herror
    cases hrest

/-- A reading that is lost inside of a bracket finds nothing.  The induction is on the bound: a step
that succeeds leaves the reading lost, since a place inside of a bracket is not left by members. -/
theorem readRegistered_of_lost (hbehind : Inside behind) (hs : Lost behind s) :
    readRegistered fuel false r s = none := by
  induction fuel using Nat.strong_induction_on generalizing r behind s with
  | _ fuel ih =>
    by_contra hne
    obtain ⟨r', h⟩ := Option.ne_none_iff_exists'.mp hne
    obtain ⟨fuel, c, rest, rfl, hskip, hcase⟩ := exists_of_readRegistered h
    cases hs with
    | stuck hs =>
      obtain ⟨c', rest', hskip', hcomma, -, hcurly⟩ := hs
      obtain ⟨rfl, rfl⟩ := List.cons.inj (hskip.symm.trans hskip')
      rcases hcase with ⟨hc, -⟩ | ⟨-, hfirst, -⟩ | ⟨hc, -⟩
      · exact hcurly hc
      · cases hfirst
      · exact hcomma hc
    | inQuotes hs =>
      rw [← inQuotes_skipBlank, hskip] at hs
      rcases hcase with ⟨rfl, hrest, -⟩ | ⟨-, hfirst, -⟩ | ⟨rfl, -, hmember⟩
      · have hend : InQuotes rest := .of_append (paired_nil.cons (by decide)) hs
        rw [← inQuotes_skipBlank, hrest] at hend
        cases hend
      · cases hfirst
      · have hrest : InQuotes rest := .of_append (paired_nil.cons (by decide)) hs
        obtain ⟨fuel', r₁, place, rfl, hplace, hmore⟩ :=
          InQuotes.of_readRegisteredMember hrest.skipBlank hmember
        rw [ih fuel' (by omega) hbehind (.inQuotes hplace)] at hmore
        cases hmore
    | @within k ks hs =>
      obtain ⟨next, hnext, hs⟩ := hs
      have hinside : Inside next := hbehind.of_within hnext
      rcases hs with hclose | ⟨b, hb, hcomma⟩
      · obtain ⟨rfl, rfl⟩ := List.cons.inj (hskip.symm.trans hclose)
        rcases hcase with ⟨-, hrest, -⟩ | ⟨-, hfirst, -⟩ | ⟨hc, -⟩
        · exact hinside.skipBlank_ne_nil hrest
        · cases hfirst
        · exact k.closer_ne_comma hc
      · obtain ⟨rfl, rfl⟩ := List.cons.inj (hskip.symm.trans hcomma)
        rcases hcase with ⟨hc, -⟩ | ⟨-, hfirst, -⟩ | ⟨-, -, hmember⟩
        · exact absurd hc (by decide)
        · cases hfirst
        cases k with
        | square =>
          obtain ⟨es, hes⟩ := hb
          rw [readRegisteredMember_of_elements hes hinside] at hmember
          cases hmember
        | curly =>
          obtain ⟨ms, hms⟩ := hb
          obtain ⟨w, name, w', u, v, front, tail, hw, hname, hw', hu, hv, rfl, htail⟩ := hms.front
          have hwithin := within_single (htail next)
          simp only [List.append_assoc, List.cons_append] at hmember
          rw [skipBlank_append hw, skipBlank_cons (by decide)] at hmember
          obtain ⟨fuel', r₁, place, rfl, -, hlanded, hmore⟩ :=
            exists_of_readRegisteredMember_spells hname hw' hu hv
              (hinside.of_within hwithin).follows hmember
          rw [ih fuel' (by omega) hinside (hlanded.lost_of_within hwithin)] at hmore
          cases hmore

end Astray

/-! ### Readings of whole objects -/

section Whole

variable {fuel : Nat} {r r' : Registered} {ms : Members} {b fin : Bytes}

theorem within_nil_of_blank (h : Blank fin) : Within [] [] fin :=
  skipBlank_of_blank h

/-- A member of the outermost object is judged by its value, and the reading goes on behind it. -/
theorem exists_of_readRegisteredMember_inside {name w u b next : Bytes} {v : Value}
    (hname : StringBody name) (hw : Blank w) (hu : Blank u) (hv : v.Spells b) (hnext : Inside next)
    (h : readRegisteredMember fuel r
      (ascii '"' :: (name ++ ascii '"' :: (w ++ ascii ':' :: (u ++ (b ++ next))))) = some r') :
    ∃ fuel' r₁ place, fuel = fuel' + 1 ∧ r.note? (name, v) = some r₁ ∧
      skipBlank place = skipBlank next ∧ readRegistered fuel' false r₁ place = some r' := by
  obtain ⟨fuel', r₁, place, rfl, hnote, hlanded, hmore⟩ :=
    exists_of_readRegisteredMember_spells hname hw hu hv hnext.follows h
  refine ⟨fuel', r₁, place, rfl, hnote, ?_, hmore⟩
  rcases hlanded with heq | hlost
  · exact heq
  · rw [readRegistered_of_lost hnext hlost] at hmore
    cases hmore

/-- The members of an object up to the end of a document are judged one after the other. -/
theorem foldlM_note?_of_readRegisteredMember (hms : ms.Spells b) (hfin : Blank fin)
    (h : readRegisteredMember fuel r (skipBlank (b ++ fin)) = some r') :
    ms.toList.foldlM Registered.note? r = some r' := by
  induction fuel using Nat.strong_induction_on generalizing r ms b with
  | _ fuel ih =>
    have hend : Within [] [] fin := within_nil_of_blank hfin
    cases hms with
    | @last name v w w' front w'' hw hname hw' u hu hv hw'' =>
      have hinside : Inside (w'' ++ ([ascii '\x7d'] ++ fin)) :=
        ⟨.curly, [], fin, hend, .close hw'' fin⟩
      simp only [List.append_assoc, List.cons_append] at h
      rw [skipBlank_append hw, skipBlank_cons (by decide)] at h
      obtain ⟨fuel', r₁, place, rfl, hnote, hplace, hmore⟩ :=
        exists_of_readRegisteredMember_inside hname hw' hu hv hinside h
      obtain ⟨fuel'', c, rest, rfl, hskip, hcase⟩ := exists_of_readRegistered hmore
      rw [hplace, skipBlank_append hw''] at hskip
      obtain ⟨rfl, rfl⟩ := List.cons.inj hskip
      rcases hcase with ⟨-, -, rfl⟩ | ⟨-, hfirst, -⟩ | ⟨hc, -⟩
      · simp [Members.toList, hnote]
      · cases hfirst
      · exact absurd hc (by decide)
    | @more name v ms w w' front w'' rest hw hname hw' u hu hv hw'' hrest =>
      have hspells : Bracket.curly.Spells rest := ⟨ms, hrest⟩
      have hinside : Inside (w'' ++ ascii ',' :: (rest ++ fin)) :=
        ⟨.curly, [], fin, hend, .more hw'' hspells fin⟩
      simp only [List.append_assoc, List.cons_append] at h
      rw [skipBlank_append hw, skipBlank_cons (by decide)] at h
      obtain ⟨fuel', r₁, place, rfl, hnote, hplace, hmore⟩ :=
        exists_of_readRegisteredMember_inside hname hw' hu hv hinside h
      obtain ⟨fuel'', c, tail, rfl, hskip, hcase⟩ := exists_of_readRegistered hmore
      rw [hplace, skipBlank_append hw'', skipBlank_cons (by decide)] at hskip
      obtain ⟨rfl, rfl⟩ := List.cons.inj hskip
      rcases hcase with ⟨hc, -⟩ | ⟨-, hfirst, -⟩ | ⟨-, -, hmember⟩
      · exact absurd hc (by decide)
      · cases hfirst
      · simp only [Members.toList, List.foldlM_cons, hnote]
        exact ih fuel'' (by omega) hrest hmember

/-- The reading of a whole document finds what its members say: it is an object, and its members are
judged one after the other by their names and values. -/
theorem Registered.ofBytes_spells {input : Bytes} {v : Value} (hv : v.SpellsDocument input)
    (h : Registered.ofBytes input = some r) :
    ∃ ms, v = .object ms ∧ ms.toList.foldlM Registered.note? Registered.empty = some r := by
  obtain ⟨w, b, fin, hw, hspells, hfin, rfl⟩ := hv
  obtain ⟨c, rest, rfl, hblank, -⟩ := hspells.head
  rw [Registered.ofBytes, skipBlank_append hw, List.cons_append, skipBlank_cons hblank] at h
  dsimp only at h
  split at h
  on_goal 2 => cases h
  rename_i hc
  obtain ⟨fuel, d, tail, hfuel, hskip, hcase⟩ := exists_of_readRegistered h
  rcases hspells.front_cases with ⟨hquote, -⟩ | ⟨-, ms, rfl, hinner⟩ | ⟨-, hcurly⟩
  · rw [hc] at hquote
    exact absurd hquote (by decide)
  · refine ⟨ms, rfl, ?_⟩
    rcases hinner with ⟨rfl, w', hw', rfl⟩ | hms
    · rw [List.append_assoc, skipBlank_append hw'] at hskip
      obtain ⟨rfl, rfl⟩ := List.cons.inj hskip
      rcases hcase with ⟨-, -, rfl⟩ | ⟨hne, -, -⟩ | ⟨hcomma, -⟩
      · rfl
      · exact absurd rfl hne
      · exact absurd hcomma (by decide)
    · rcases hcase with ⟨hclose, -⟩ | ⟨-, -, hmember⟩ | ⟨-, hfirst, -⟩
      · obtain ⟨e, rest', hstart, -, -, hcurly⟩ := hms.stuck fin
        obtain ⟨rfl, -⟩ := List.cons.inj (hskip.symm.trans hstart)
        exact absurd hclose hcurly
      · rw [← hskip] at hmember
        exact foldlM_note?_of_readRegisteredMember hms hfin hmember
      · cases hfirst
  · exact absurd hc hcurly

end Whole

end BearerAuth.Token
