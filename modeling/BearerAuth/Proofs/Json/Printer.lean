import Mathlib
import BearerAuth.Proofs.Json.Grammar

/-!
# What is printed is JSON

Every text that the printer puts together spells a value.  A `Written` keeps a printed text next to
the value that it spells, so that whoever prints a document gets the value that a reader will find
along with it.

Main statement: `Written.ofBytes_text`.
-/

namespace BearerAuth.Json

/-- The elements of a closed array. -/
def Elements.ofList (vs : List Value) : Elements :=
  vs.foldr .cons .closed

/-- The members of a closed object. -/
def Members.ofList (ms : List (Bytes × Value)) : Members :=
  ms.foldr (fun m rest => .cons m.1 m.2 rest) .closed

@[simp] theorem Elements.ofList_nil : Elements.ofList [] = .closed := rfl

@[simp] theorem Elements.ofList_cons (v : Value) (vs : List Value) :
    Elements.ofList (v :: vs) = .cons v (Elements.ofList vs) := rfl

@[simp] theorem Members.ofList_nil : Members.ofList [] = .closed := rfl

@[simp] theorem Members.ofList_cons (m : Bytes × Value) (ms : List (Bytes × Value)) :
    Members.ofList (m :: ms) = .cons m.1 m.2 (Members.ofList ms) := rfl

/-- A printed text and the value that it spells. -/
structure Written where
  text : String
  value : Value
  spells : value.Spells (utf8 text)

namespace Written

/-- A quoted text. -/
def ofText (s : String) : Written where
  text := quote s
  value := .string (escaped s)
  spells := by
    rw [utf8_quote]
    exact .string (stringBody_escaped s)

/-- An integer in decimal. -/
def ofInt (i : Int) : Written where
  text := Decimal.ofInt i
  value := .number (Number.ofInt i)
  spells := .number (ofInt_spells i)

/-! ### Arrays -/

/-- Elements with commas between them and a bracket behind them. -/
theorem elements_spells (w : Written) (ws : List Written) :
    (Elements.ofList ((w :: ws).map value)).Spells
      (utf8 (",".intercalate ((w :: ws).map text)) ++ [ascii ']']) := by
  induction ws generalizing w with
  | nil =>
    simp only [List.map_cons, List.map_nil, String.intercalate_singleton]
    exact .last blank_nil w.spells blank_nil
  | cons next ws ih =>
    have hcomma : utf8 "," = [ascii ','] := rfl
    simp only [List.map_cons, String.intercalate_cons_cons, Bytes.utf8_append, hcomma,
      List.append_assoc, List.cons_append, List.nil_append]
    exact .more blank_nil w.spells blank_nil (ih next)

/-- An array of written values. -/
def array (ws : List Written) : Written where
  text := Json.array (ws.map text)
  value := .array (Elements.ofList (ws.map value))
  spells := by
    have hopen : utf8 "[" = [ascii '['] := rfl
    have hclose : utf8 "]" = [ascii ']'] := rfl
    rw [Json.array, Bytes.utf8_append, Bytes.utf8_append, hopen, hclose, List.append_assoc]
    cases ws with
    | nil => exact .emptyArray blank_nil
    | cons w ws => exact .array (elements_spells w ws)

/-! ### Objects -/

/-- The text of a member. -/
def memberText (m : String × Written) : String :=
  quote m.1 ++ ":" ++ m.2.text

/-- What a reader finds of a member. -/
def memberValue (m : String × Written) : Bytes × Value :=
  (escaped m.1, m.2.value)

theorem utf8_memberText (m : String × Written) :
    utf8 (memberText m) =
      ascii '"' :: (escaped m.1 ++ ascii '"' :: ascii ':' :: utf8 m.2.text) := by
  have hcolon : utf8 ":" = [ascii ':'] := rfl
  rw [memberText, Bytes.utf8_append, Bytes.utf8_append, utf8_quote, hcolon]
  simp

/-- Members with commas between them and a brace behind them. -/
theorem members_spells (m : String × Written) (ms : List (String × Written)) :
    (Members.ofList ((m :: ms).map memberValue)).Spells
      (utf8 (",".intercalate ((m :: ms).map memberText)) ++ [ascii '\x7d']) := by
  induction ms generalizing m with
  | nil =>
    simp only [List.map_cons, List.map_nil, String.intercalate_singleton, utf8_memberText,
      List.cons_append, List.append_assoc]
    exact .last blank_nil (stringBody_escaped m.1) blank_nil blank_nil m.2.spells blank_nil
  | cons next ms ih =>
    have hcomma : utf8 "," = [ascii ','] := rfl
    simp only [List.map_cons, String.intercalate_cons_cons, Bytes.utf8_append, hcomma,
      utf8_memberText, List.append_assoc, List.cons_append, List.nil_append]
    exact .more blank_nil (stringBody_escaped m.1) blank_nil blank_nil m.2.spells blank_nil
      (ih next)

/-- Members start with the quote of a name. -/
theorem utf8_members_head (m : String × Written) (ms : List (String × Written)) (rest : Bytes) :
    ∃ tail, utf8 (",".intercalate ((m :: ms).map memberText)) ++ rest = ascii '"' :: tail := by
  cases ms with
  | nil =>
    simp only [List.map_cons, List.map_nil, String.intercalate_singleton, utf8_memberText,
      List.cons_append]
    exact ⟨_, rfl⟩
  | cons next ms =>
    simp only [List.map_cons, String.intercalate_cons_cons, Bytes.utf8_append, utf8_memberText,
      List.cons_append]
    exact ⟨_, rfl⟩

/-- Every member takes a byte at least. -/
theorem length_le_members (ms : List (String × Written)) :
    ms.length ≤ (utf8 (",".intercalate (ms.map memberText))).length := by
  induction ms with
  | nil => exact Nat.zero_le _
  | cons m ms ih =>
    cases ms with
    | nil =>
      simp only [List.map_cons, List.map_nil, String.intercalate_singleton, utf8_memberText,
        List.length_cons, List.length_nil]
      omega
    | cons next ms =>
      simp only [List.map_cons, String.intercalate_cons_cons, Bytes.utf8_append, utf8_memberText,
        List.length_append, List.length_cons] at ih ⊢
      omega

/-- The braces of an object stand around its members. -/
theorem utf8_object (ms : List (String × String)) :
    utf8 (Json.object ms) = ascii '\x7b' ::
      (utf8 (",".intercalate (ms.map fun m => quote m.1 ++ ":" ++ m.2)) ++ [ascii '\x7d']) := by
  have hopen : utf8 "\x7b" = [ascii '\x7b'] := rfl
  have hclose : utf8 "\x7d" = [ascii '\x7d'] := rfl
  rw [Json.object, Bytes.utf8_append, Bytes.utf8_append, hopen, hclose, List.append_assoc]
  rfl

/-- An object of written members. -/
def object (ms : List (String × Written)) : Written where
  text := Json.object (ms.map fun m => (m.1, m.2.text))
  value := .object (Members.ofList (ms.map memberValue))
  spells := by
    rw [utf8_object, List.map_map]
    cases ms with
    | nil => exact .emptyObject blank_nil
    | cons m ms => exact .object (members_spells m ms)

/-! ### Parts -/

@[simp] theorem ofText_value (s : String) : (ofText s).value = .string (escaped s) := rfl

@[simp] theorem ofInt_value (i : Int) : (ofInt i).value = .number (Number.ofInt i) := rfl

@[simp] theorem array_value (ws : List Written) :
    (array ws).value = .array (Elements.ofList (ws.map value)) := rfl

@[simp] theorem object_value (ms : List (String × Written)) :
    (object ms).value = .object (Members.ofList (ms.map memberValue)) := rfl

/-! ### Reading -/

/-- A reader finds in a printed text exactly the value that was printed. -/
theorem ofBytes_text (w : Written) : Document.ofBytes (utf8 w.text) = ⟨w.value, true⟩ := by
  have h := ofBytes_of_spells blank_nil w.spells blank_nil
  rwa [List.nil_append, List.append_nil] at h

/-- In a longer text it is found as well, and the reading goes on behind it. -/
theorem readValue_text (w : Written) {rest : Bytes} (h : Stops rest) :
    readValue (utf8 w.text ++ rest) = (w.value, some rest) :=
  readValue_of_spells w.spells h

end Written

/-! ### Printed members and their readers -/

/-- A reader of members is given the name for which a member was printed. -/
@[simp] theorem Members.read_cons_escaped {β : Type} (step : β → String → Value → Except Fault β)
    (b : β) (name : String) (v : Value) (rest : Members) :
    (Members.cons (escaped name) v rest).read step b =
      step b name v >>= fun b => rest.read step b := by
  rw [Members.read, textOf?_escaped]
  dsimp only
  cases step b name v <;> rfl

/-- A printed text is a text. -/
@[simp] theorem asText_ofText (s expected : String) :
    (Value.string (escaped s)).asText expected = .ok s := by
  rw [Value.asText, textOf?_escaped]

end BearerAuth.Json
