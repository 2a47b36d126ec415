import Mathlib
import BearerAuth.Proofs.Token.HeaderReadings

/-!
# The grammar of headers

The tolerant reading of a header takes every text that spells an object, as long as the object is
within limits: at most 127 arrays and objects are nested in each other, all strings are texts, the
names of members included, and all numbers are in range.  Of several members with a name, no matter
how this is escaped, the last one counts.

Main statements: `readObject_eq_ok_iff_spells` and `lastMember?_eq_some_iff`.
-/

namespace BearerAuth

namespace Json

/-! ### What is inside a value -/

mutual

/-- The number of arrays and objects that are nested in each other, the outermost included. -/
def Value.height : Value → Nat
  | .cut | .null | .bool _ | .number _ | .string _ => 0
  | .array es => es.height + 1
  | .object ms => ms.height + 1

/-- The greatest height of an element. -/
def Elements.height : Elements → Nat
  | .cut | .closed => 0
  | .cons v rest => max v.height rest.height

/-- The greatest height of a member. -/
def Members.height : Members → Nat
  | .cut | .closed => 0
  | .cons _ v rest => max v.height rest.height

end

mutual

/-- The strings in a value, as they are written, and the names of members with them. -/
def Value.strings : Value → List Bytes
  | .cut | .null | .bool _ | .number _ => []
  | .string raw => [raw]
  | .array es => es.strings
  | .object ms => ms.strings

/-- The strings in elements. -/
def Elements.strings : Elements → List Bytes
  | .cut | .closed => []
  | .cons v rest => v.strings ++ rest.strings

/-- The strings in members. -/
def Members.strings : Members → List Bytes
  | .cut | .closed => []
  | .cons name v rest => name :: (v.strings ++ rest.strings)

end

mutual

/-- The numbers in a value. -/
def Value.numbers : Value → List Number
  | .cut | .null | .bool _ | .string _ => []
  | .number n => [n]
  | .array es => es.numbers
  | .object ms => ms.numbers

/-- The numbers in elements. -/
def Elements.numbers : Elements → List Number
  | .cut | .closed => []
  | .cons v rest => v.numbers ++ rest.numbers

/-- The numbers in members. -/
def Members.numbers : Members → List Number
  | .cut | .closed => []
  | .cons _ v rest => v.numbers ++ rest.numbers

end

/-- The strings in the value of a member are among those in all members. -/
theorem Members.strings_subset {m : Bytes × Value} : ∀ {ms : Members}, m ∈ ms.toList →
    m.2.strings ⊆ ms.strings
  | .cons name v rest, h => by
    intro raw hraw
    rw [Members.strings, List.mem_cons, List.mem_append]
    rcases List.mem_cons.mp h with rfl | hrest
    · exact .inr (.inl hraw)
    · exact .inr (.inr (Members.strings_subset hrest hraw))

end Json

namespace Token

open Json (Value Members Elements Document)

/-! ### Limits -/

/-- At most that many arrays and objects are nested, the strings are texts, and the numbers are in
range. -/
structure WithinLimits (height depth : Nat) (strings : List Bytes) (numbers : List Json.Number) :
    Prop where
  height_le : height ≤ depth
  isText : ∀ raw ∈ strings, (Json.textOf? raw).isSome
  inRange : ∀ n ∈ numbers, n.numeral ≠ .outOfRange

variable {height height' depth : Nat} {strings strings' : List Bytes}
  {numbers numbers' : List Json.Number}

theorem withinLimits_nil (depth : Nat) : WithinLimits 0 depth [] [] :=
  ⟨Nat.zero_le depth, List.forall_mem_nil _, List.forall_mem_nil _⟩

/-- What is put together is within limits if its parts are. -/
theorem withinLimits_append_iff :
    WithinLimits (max height height') depth (strings ++ strings') (numbers ++ numbers') ↔
      WithinLimits height depth strings numbers ∧ WithinLimits height' depth strings' numbers' := by
  constructor
  · rintro ⟨hheight, htext, hrange⟩
    obtain ⟨hleft, hright⟩ := max_le_iff.mp hheight
    obtain ⟨htext, htext'⟩ := List.forall_mem_append.mp htext
    obtain ⟨hrange, hrange'⟩ := List.forall_mem_append.mp hrange
    exact ⟨⟨hleft, htext, hrange⟩, hright, htext', hrange'⟩
  · rintro ⟨⟨hleft, htext, hrange⟩, hright, htext', hrange'⟩
    exact ⟨max_le hleft hright, List.forall_mem_append.mpr ⟨htext, htext'⟩,
      List.forall_mem_append.mpr ⟨hrange, hrange'⟩⟩

/-- The name of a member has to be a text. -/
theorem withinLimits_cons_iff {name : Bytes} :
    WithinLimits height depth (name :: strings) numbers ↔
      (Json.textOf? name).isSome ∧ WithinLimits height depth strings numbers := by
  constructor
  · rintro ⟨hheight, htext, hrange⟩
    obtain ⟨hname, htext⟩ := List.forall_mem_cons.mp htext
    exact ⟨hname, hheight, htext, hrange⟩
  · rintro ⟨hname, hheight, htext, hrange⟩
    exact ⟨hheight, List.forall_mem_cons.mpr ⟨hname, htext⟩, hrange⟩

/-- Around what an array or an object holds there is one level more. -/
theorem withinLimits_succ_iff :
    WithinLimits (height + 1) (depth + 1) strings numbers ↔
      WithinLimits height depth strings numbers :=
  ⟨fun h => ⟨Nat.le_of_succ_le_succ h.height_le, h.isText, h.inRange⟩,
    fun h => ⟨Nat.succ_le_succ h.height_le, h.isText, h.inRange⟩⟩

theorem not_withinLimits_zero : ¬ WithinLimits (height + 1) 0 strings numbers :=
  fun h => Nat.not_succ_le_zero height h.height_le

mutual

/-- A value is sound if nothing is cut off from it and it is within limits. -/
theorem isSound_iff {depth : Nat} : {v : Value} →
    (isSound depth v ↔ v.whole ∧ WithinLimits v.height depth v.strings v.numbers)
  | .cut => by simp [isSound, Value.whole]
  | .null | .bool _ => by
    simp [isSound, Value.whole, Value.height, Value.strings, Value.numbers, withinLimits_nil]
  | .number n => by
    have hlimits : WithinLimits 0 depth [] [n] ↔ n.numeral ≠ .outOfRange :=
      ⟨fun h => h.inRange n List.mem_cons_self, fun h =>
        ⟨Nat.zero_le depth, List.forall_mem_nil _, List.forall_mem_singleton.mpr h⟩⟩
    simp [isSound, Value.whole, Value.height, Value.strings, Value.numbers, hlimits]
  | .string raw => by
    simp [isSound, Value.whole, Value.height, Value.strings, Value.numbers, withinLimits_cons_iff,
      withinLimits_nil]
  | .array es => by
    rw [Value.height, Value.strings, Value.numbers, Value.whole]
    cases depth with
    | zero => simp [isSound, not_withinLimits_zero]
    | succ depth => rw [isSound, areSound_iff, withinLimits_succ_iff]
  | .object ms => by
    rw [Value.height, Value.strings, Value.numbers, Value.whole]
    cases depth with
    | zero => simp [isSound, not_withinLimits_zero]
    | succ depth => rw [isSound, areSoundMembers_iff, withinLimits_succ_iff]

theorem areSound_iff {depth : Nat} : {es : Elements} →
    (areSound depth es ↔ es.whole ∧ WithinLimits es.height depth es.strings es.numbers)
  | .cut => by simp [areSound, Elements.whole]
  | .closed => by
    simp [areSound, Elements.whole, Elements.height, Elements.strings, Elements.numbers,
      withinLimits_nil]
  | .cons v rest => by
    rw [areSound, Bool.and_eq_true, isSound_iff, areSound_iff, Elements.whole, Bool.and_eq_true,
      Elements.height, Elements.strings, Elements.numbers, withinLimits_append_iff]
    exact and_and_and_comm

theorem areSoundMembers_iff {depth : Nat} : {ms : Members} →
    (areSoundMembers depth ms ↔ ms.whole ∧ WithinLimits ms.height depth ms.strings ms.numbers)
  | .cut => by simp [areSoundMembers, Members.whole]
  | .closed => by
    simp [areSoundMembers, Members.whole, Members.height, Members.strings, Members.numbers,
      withinLimits_nil]
  | .cons name v rest => by
    rw [areSoundMembers, Bool.and_eq_true, Bool.and_eq_true, isSound_iff, areSoundMembers_iff,
      Members.whole, Bool.and_eq_true, Members.height, Members.strings, Members.numbers,
      withinLimits_cons_iff, withinLimits_append_iff]
    constructor
    · rintro ⟨⟨hname, hv, hlimits⟩, hrest, hlimits'⟩
      exact ⟨⟨hv, hrest⟩, hname, hlimits, hlimits'⟩
    · rintro ⟨⟨hv, hrest⟩, hname, hlimits, hlimits'⟩
      exact ⟨⟨hname, hv, hlimits⟩, hrest, hlimits'⟩

end

/-- The members make up an object that the tolerant reading takes. -/
def Acceptable (ms : Members) : Prop :=
  WithinLimits (Value.object ms).height maxDepth (Value.object ms).strings (Value.object ms).numbers

/-- A header is read as an object if it spells the object and this is within limits. -/
theorem readObject_eq_ok_iff_spells {header : Bytes} {ms : Members} :
    readObject header = .ok ms ↔ (Value.object ms).SpellsDocument header ∧ Acceptable ms := by
  rw [readObject_eq_ok_iff, Json.ofBytes_eq_whole_iff, isSound_iff]
  constructor
  · rintro ⟨hspells, -, hlimits⟩
    exact ⟨hspells, hlimits⟩
  · rintro ⟨⟨w, b, w', hw, hb, hrest⟩, hlimits⟩
    exact ⟨⟨w, b, w', hw, hb, hrest⟩, hb.whole, hlimits⟩

/-! ### Members -/

/-- No member has the name. -/
def LacksMember (name : String) (ms : Members) : Prop :=
  ∀ m ∈ ms.toList, Json.textOf? m.1 ≠ some name

/-- The last member with the name has the value. -/
def LastMember (name : String) (v : Value) (ms : Members) : Prop :=
  ∃ front key back, ms.toList = front ++ (key, v) :: back ∧ Json.textOf? key = some name ∧
    ∀ m ∈ back, Json.textOf? m.1 ≠ some name

/-- The last member with the name is a string with the text. -/
def LastText (name text : String) (ms : Members) : Prop :=
  ∃ raw, LastMember name (.string raw) ms ∧ Json.textOf? raw = some text

variable {name text : String} {v : Value} {ms : Members}

theorem lastMember?_eq_none_iff : lastMember? name ms = none ↔ LacksMember name ms := by
  rw [lastMember?, Option.map_eq_none_iff, List.find?_eq_none]
  simp only [List.mem_reverse, decide_eq_true_eq]
  rfl

theorem lastMember?_eq_some_iff : lastMember? name ms = some v ↔ LastMember name v ms := by
  rw [lastMember?, Option.map_eq_some_iff]
  constructor
  · rintro ⟨⟨key, found⟩, hfind, rfl⟩
    obtain ⟨hkey, back, front, hreverse, hback⟩ := List.find?_eq_some_iff_append.mp hfind
    refine ⟨front.reverse, key, back.reverse, ?_, of_decide_eq_true hkey, ?_⟩
    · rw [← List.reverse_reverse ms.toList, hreverse]
      simp
    · intro m hm
      simpa using hback m (List.mem_reverse.mp hm)
  · rintro ⟨front, key, back, hmembers, hkey, hback⟩
    refine ⟨(key, v), List.find?_eq_some_iff_append.mpr ⟨decide_eq_true hkey, back.reverse,
      front.reverse, ?_, ?_⟩, rfl⟩
    · rw [hmembers]
      simp
    · intro m hm
      simpa using hback m (List.mem_reverse.mp hm)

/-- The text of the last member is that of a string. -/
theorem lastMember?_bind_textOfValue?_iff :
    (lastMember? name ms).bind textOfValue? = some text ↔ LastText name text ms := by
  rw [Option.bind_eq_some_iff]
  constructor
  · rintro ⟨v, hlast, htext⟩
    cases v with
    | string raw => exact ⟨raw, lastMember?_eq_some_iff.mp hlast, htext⟩
    | _ => cases htext
  · rintro ⟨raw, hlast, htext⟩
    exact ⟨.string raw, lastMember?_eq_some_iff.mpr hlast, htext⟩

/-- In an acceptable object every string that is the value of a member has a text. -/
theorem Acceptable.exists_textOf? {raw : Bytes} (h : Acceptable ms)
    (hlast : LastMember name (.string raw) ms) : ∃ text, Json.textOf? raw = some text := by
  obtain ⟨front, key, back, hmembers, -⟩ := hlast
  have hmem : (key, .string raw) ∈ ms.toList := by
    rw [hmembers]
    exact List.mem_append_right front List.mem_cons_self
  exact Option.isSome_iff_exists.mp
    (h.isText raw (Json.Members.strings_subset hmem List.mem_cons_self))

end Token

end BearerAuth
