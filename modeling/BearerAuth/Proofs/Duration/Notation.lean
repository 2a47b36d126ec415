import Mathlib
import BearerAuth.Duration.Notation
import BearerAuth.Proofs.Decimal

/-!
# Durations read back

A duration is written as a list of items, each a count of a unit.  The reader takes the items one by
one and adds them up; no sum exceeds the duration, so none of them is too long on the way.

Main statement: `Duration.ofNotation?_toNotation`.
-/

namespace BearerAuth.Duration

/-! ### Characters -/

theorem digitChar_facts {d : Nat} (h : d < 10) :
    isDigit (Decimal.digitChar d) = true ∧ Text.isBlank (Decimal.digitChar d) = false ∧
      digitValue (Decimal.digitChar d) = d := by
  have hall : ∀ d < 10, isDigit (Decimal.digitChar d) = true ∧
      Text.isBlank (Decimal.digitChar d) = false ∧ digitValue (Decimal.digitChar d) = d := by
    decide
  exact hall d h

/-- A letter of a unit ends a number. -/
theorem isUnitLetter_facts {c : Char} (h : isUnitLetter c = true) :
    isDigit c = false ∧ Text.isBlank c = false ∧ c ≠ '.' := by
  have hcode : (97 ≤ c.toNat ∧ c.toNat ≤ 122 ∨ 65 ≤ c.toNat ∧ c.toNat ≤ 90) ∨ c.toNat = 181 := by
    simp only [isUnitLetter, Bool.or_eq_true, Bool.and_eq_true, decide_eq_true_eq] at h
    rcases h with (h | h) | rfl
    · exact .inl (.inl h)
    · exact .inl (.inr h)
    · exact .inr rfl
  refine ⟨?_, ?_, ?_⟩
  · by_contra hdigit
    simp only [Bool.not_eq_false, isDigit, Bool.and_eq_true, decide_eq_true_eq] at hdigit
    have hle : c.toNat ≤ 57 := hdigit.2
    omega
  · simp only [Text.isBlank, Bool.or_eq_false_iff, Bool.and_eq_false_iff, decide_eq_false_iff_not]
    omega
  · rintro rfl
    revert hcode
    decide

/-! ### Items -/

/-- A count of a unit, with the name by which the unit is written. -/
structure Item where
  count : Nat
  name : String
  unit : Span
  named : Span.ofName? name.toList = some unit
  letters : name.toList ≠ [] ∧ name.toList.all isUnitLetter

namespace Item

/-- An item as it is written. -/
def text (i : Item) : String :=
  Decimal.ofNat i.count ++ i.name

/-- The seconds of an item. -/
def seconds (i : Item) : Nat :=
  i.count * i.unit.seconds

/-- The nanoseconds of an item. -/
def nanos (i : Item) : Nat :=
  i.count * i.unit.nanos

/-- Adds an item to a duration. -/
def addTo? (d : Duration) (i : Item) : Option Duration :=
  d.plusWhole? i.count i.unit

end Item

/-- The years, months, days and so on of a duration. -/
def items (d : Duration) : List Item :=
  let inYear := d.seconds % 31557600
  let inMonth := inYear % 2630016
  let inDay := inMonth % 86400
  let years := d.seconds / 31557600
  let months := inYear / 2630016
  let days := inMonth / 86400
  [⟨years, if years = 1 then "year" else "years", .year, by split <;> decide, by split <;> decide⟩,
    ⟨months, if months = 1 then "month" else "months", .month, by split <;> decide,
      by split <;> decide⟩,
    ⟨days, if days = 1 then "day" else "days", .day, by split <;> decide, by split <;> decide⟩,
    ⟨inDay / 3600, "h", .hour, by decide, by decide⟩,
    ⟨inDay % 3600 / 60, "m", .minute, by decide, by decide⟩,
    ⟨inDay % 60, "s", .second, by decide, by decide⟩,
    ⟨d.nanos / 1000000, "ms", .millisecond, by decide, by decide⟩,
    ⟨d.nanos / 1000 % 1000, "us", .microsecond, by decide, by decide⟩,
    ⟨d.nanos % 1000, "ns", .nanosecond, by decide, by decide⟩]

/-! ### Reading an item -/

/-- The text ends, or goes on with white space. -/
def Ends (rest : List Char) : Prop :=
  ∀ c, rest.head? = some c → Text.isBlank c = true

/-- More digits make no smaller number. -/
theorem le_foldl_digits (ds : List Nat) (n : Nat) : n ≤ ds.foldl (fun n d => n * 10 + d) n := by
  induction ds generalizing n with
  | nil => exact le_refl n
  | cons d ds ih => exact le_trans (by omega) (ih (n * 10 + d))

/-- Digits in front of a unit are read as the number that they spell, if it fits into 64 bits. -/
theorem readNumber_digits {ds : List Nat} (hds : ∀ d ∈ ds, d < 10) {n : Nat}
    (hfits : ds.foldl (fun n d => n * 10 + d) n < wordSize) {c : Char} (hc : isUnitLetter c = true)
    (rest : List Char) :
    readNumber n (ds.map Decimal.digitChar ++ c :: rest) =
      some (ds.foldl (fun n d => n * 10 + d) n, c :: rest) := by
  induction ds generalizing n with
  | nil =>
    obtain ⟨hdigit, hblank, -⟩ := isUnitLetter_facts hc
    simp [readNumber, hdigit, hblank]
  | cons d ds ih =>
    obtain ⟨hdigit, -, hvalue⟩ := digitChar_facts (hds d List.mem_cons_self)
    have hword : n * 10 + d < wordSize := lt_of_le_of_lt (le_foldl_digits ds _) hfits
    rw [List.map_cons, List.cons_append, readNumber, if_pos hdigit, hvalue, word?, if_pos hword,
      Option.bind_some]
    exact ih (fun d hd => hds d (List.mem_cons_of_mem _ hd)) hfits

/-- Letters are told apart from what follows them. -/
theorem letters_append {name rest : List Char} (hname : ∀ c ∈ name, isUnitLetter c = true)
    (hrest : Ends rest) :
    (name ++ rest).takeWhile isUnitLetter = name ∧
      (name ++ rest).dropWhile isUnitLetter = rest := by
  rw [List.takeWhile_append_of_pos hname, List.dropWhile_append_of_pos hname]
  cases rest with
  | nil => simp
  | cons c rest =>
    have hc : ¬ isUnitLetter c = true := by
      intro hletter
      have hblank := hrest c rfl
      rw [(isUnitLetter_facts hletter).2.1] at hblank
      cases hblank
    simp [hc]

/-- An item starts with a digit, and its number is read up to its name. -/
theorem Item.readNumber_text (i : Item) (hcount : i.count < wordSize) (rest : List Char) :
    ∃ digit behind, i.text.toList ++ rest = digit :: behind ∧ isDigit digit = true ∧
      Text.isBlank digit = false ∧
      readNumber (digitValue digit) behind = some (i.count, i.name.toList ++ rest) := by
  obtain ⟨first, ds, hdigits⟩ : ∃ first ds, Decimal.digits i.count = first :: ds := by
    by_cases hzero : i.count = 0
    · exact ⟨0, [], by rw [hzero, Decimal.digits_zero]⟩
    · obtain ⟨first, ds, -, hdigits⟩ := Decimal.digits_eq_cons hzero
      exact ⟨first, ds, hdigits⟩
  have hlt : ∀ e ∈ first :: ds, e < 10 := by
    rw [← hdigits]
    exact fun e he => Decimal.lt_of_mem_digits he
  have hspell : ds.foldl (fun n e => n * 10 + e) first = i.count := by
    have hwhole : Decimal.ofDigits (first :: ds) = i.count := by
      rw [← hdigits, Decimal.ofDigits_digits]
    simpa [Decimal.ofDigits] using hwhole
  obtain ⟨hdigit, hblank, hvalue⟩ := digitChar_facts (hlt first List.mem_cons_self)
  refine ⟨Decimal.digitChar first, ds.map Decimal.digitChar ++ (i.name.toList ++ rest), ?_, hdigit,
    hblank, ?_⟩
  · rw [Item.text, String.toList_append, Decimal.ofNat, String.toList_ofList, hdigits]
    simp
  · obtain ⟨c, cs, hname⟩ := List.exists_cons_of_ne_nil i.letters.1
    have hc : isUnitLetter c = true :=
      List.all_eq_true.mp i.letters.2 c (hname ▸ List.mem_cons_self)
    rw [← hspell] at hcount ⊢
    rw [hvalue, hname]
    exact readNumber_digits (fun e he => hlt e (List.mem_cons_of_mem _ he)) hcount hc _

/-- What is written of an item is read as this item, and the reading goes on behind it. -/
theorem readSpans_item (fuel : Nat) (d : Duration) {i : Item} (hcount : i.count < wordSize)
    {rest : List Char} (hrest : Ends rest) :
    readSpans (fuel + 1) d (i.text.toList ++ rest) =
      (i.addTo? d).bind (readSpans fuel · rest) := by
  obtain ⟨digit, behind, htext, hdigit, hblank, hnumber⟩ := i.readNumber_text hcount rest
  obtain ⟨htake, hdrop⟩ := letters_append (List.all_eq_true.mp i.letters.2) hrest
  have hpoint : ¬ (i.name.toList ++ rest).head? = some '.' := by
    obtain ⟨c, cs, hname⟩ := List.exists_cons_of_ne_nil i.letters.1
    have hc : isUnitLetter c = true :=
      List.all_eq_true.mp i.letters.2 c (hname ▸ List.mem_cons_self)
    simpa [hname] using (isUnitLetter_facts hc).2.2
  have hend : (rest.head?.map fun c => isDigit c || Text.isBlank c).getD true = true := by
    cases rest with
    | nil => rfl
    | cons c rest => simp [hrest c rfl]
  rw [htext, readSpans, List.dropWhile_cons_of_neg (by simp [hblank])]
  simp only [Option.bind_eq_bind, Option.bind_some, Option.pure_def, guard, hdigit, if_true,
    hnumber, if_neg hpoint, htake, hdrop, i.named, hend]
  rfl

/-- White space in front of an item is skipped. -/
theorem readSpans_space (fuel : Nat) (d : Duration) (cs : List Char) :
    readSpans fuel d (' ' :: cs) = readSpans fuel d cs := by
  cases fuel with
  | zero => rfl
  | succ fuel =>
    rw [readSpans, readSpans, List.dropWhile_cons_of_pos (by decide)]

/-! ### Reading several items -/

/-- Items with spaces between them are read one by one. -/
theorem readSpans_items {fuel : Nat} {is : List Item} (hcounts : ∀ i ∈ is, i.count < wordSize)
    (hfuel : is.length < fuel) (d : Duration) :
    readSpans fuel d (" ".intercalate (is.map Item.text)).toList = is.foldlM Item.addTo? d := by
  induction is generalizing fuel d with
  | nil =>
    obtain ⟨fuel, rfl⟩ := Nat.exists_eq_add_one_of_ne_zero (Nat.ne_of_gt hfuel)
    rfl
  | cons i is ih =>
    obtain ⟨fuel, rfl⟩ := Nat.exists_eq_add_one_of_ne_zero (Nat.ne_of_gt (Nat.zero_lt_of_lt hfuel))
    have hrest := fun d => ih (fun j hj => hcounts j (List.mem_cons_of_mem i hj))
      (Nat.lt_of_succ_lt_succ hfuel) d
    have hcount := hcounts i List.mem_cons_self
    rw [List.foldlM_cons, Option.bind_eq_bind]
    simp only [← hrest]
    cases is with
    | nil =>
      have hends : Ends [] := by
        rintro c ⟨⟩
      simpa using readSpans_item fuel d hcount hends
    | cons j js =>
      have hspace : " ".toList = [' '] := rfl
      simp only [List.map_cons, String.intercalate_cons_cons, String.toList_append, hspace,
        List.append_assoc, List.cons_append, List.nil_append]
      rw [readSpans_item fuel d hcount (by rintro c ⟨⟩; decide)]
      simp only [readSpans_space]

/-! ### Adding items up -/

/-- An item is added if the sum is a duration. -/
theorem Item.addTo?_eq {i : Item} {d : Duration} (hseconds : d.seconds + i.seconds < wordSize)
    (hnanos : d.nanos + i.nanos < nanosPerSecond) :
    i.addTo? d = some ⟨d.seconds + i.seconds, d.nanos + i.nanos, hseconds, hnanos⟩ := by
  have hlt : nanosPerSecond < wordSize := by decide
  have hwordSeconds : word? (i.count * i.unit.seconds) = some i.seconds :=
    if_pos (show i.seconds < wordSize by omega)
  have hwordNanos : word? (i.count * i.unit.nanos) = some i.nanos :=
    if_pos (show i.nanos < wordSize by omega)
  have hwordSum : word? (d.nanos + i.nanos) = some (d.nanos + i.nanos) :=
    if_pos (show d.nanos + i.nanos < wordSize by omega)
  have hparts : ofParts? (d.seconds + i.seconds) (d.nanos + i.nanos) =
      some ⟨d.seconds + i.seconds, d.nanos + i.nanos, hseconds, hnanos⟩ := by
    have hcarry : (d.nanos + i.nanos) / nanosPerSecond = 0 := Nat.div_eq_of_lt hnanos
    have hmod : (d.nanos + i.nanos) % nanosPerSecond = d.nanos + i.nanos := Nat.mod_eq_of_lt hnanos
    unfold ofParts?
    simp only [hcarry, hmod, Nat.add_zero, hseconds, dite_true]
  rw [Item.addTo?, plusWhole?, hwordSeconds, hwordNanos, Option.bind_eq_bind, Option.bind_some,
    Option.bind_some, plus?, hwordSum, Option.bind_eq_bind, Option.bind_some, hparts]

/-- Items are added up as long as the sum is a duration. -/
theorem foldlM_addTo? {is : List Item} {d : Duration}
    (hseconds : d.seconds + (is.map Item.seconds).sum < wordSize)
    (hnanos : d.nanos + (is.map Item.nanos).sum < nanosPerSecond) :
    is.foldlM Item.addTo? d = some ⟨_, _, hseconds, hnanos⟩ := by
  induction is generalizing d with
  | nil => rfl
  | cons i is ih =>
    simp only [List.map_cons, List.sum_cons, ← Nat.add_assoc] at hseconds hnanos ⊢
    rw [List.foldlM_cons, Option.bind_eq_bind,
      Item.addTo?_eq (Nat.lt_of_le_of_lt (Nat.le_add_right _ _) hseconds)
        (Nat.lt_of_le_of_lt (Nat.le_add_right _ _) hnanos), Option.bind_some]
    exact ih hseconds hnanos

/-- Items without a count add nothing. -/
theorem sum_filter_count (is : List Item) {f : Item → Nat} (hf : ∀ i, i.count = 0 → f i = 0) :
    ((is.filter (·.count ≠ 0)).map f).sum = (is.map f).sum := by
  induction is with
  | nil => rfl
  | cons i is ih =>
    by_cases hzero : i.count = 0
    · simp [hzero, hf i hzero, ← ih]
    · simp [hzero, ← ih]

/-- The sizes of the units. -/
theorem Span.sizes :
    Span.year.seconds = 31557600 ∧ Span.month.seconds = 2630016 ∧ Span.day.seconds = 86400 ∧
      Span.hour.seconds = 3600 ∧ Span.minute.seconds = 60 ∧ Span.second.seconds = 1 ∧
      Span.millisecond.nanos = 1000000 ∧ Span.microsecond.nanos = 1000 ∧
      Span.nanosecond.nanos = 1 := by
  decide

/-- The items of a duration add up to its seconds. -/
theorem sum_seconds_items (d : Duration) : (d.items.map Item.seconds).sum = d.seconds := by
  obtain ⟨hyear, hmonth, hday, hhour, hminute, hsecond, -⟩ := Span.sizes
  have hsmall : Span.millisecond.seconds = 0 ∧ Span.microsecond.seconds = 0 ∧
      Span.nanosecond.seconds = 0 := by decide
  simp only [items, List.map_cons, List.map_nil]
  -- Rewriting keeps the sum folded, which would be unfolded with large literals in it otherwise.
  repeat rw [List.sum_cons]
  rw [List.sum_nil]
  simp only [Item.seconds, hyear, hmonth, hday, hhour, hminute, hsecond, hsmall]
  omega

/-- The items of a duration add up to its nanoseconds. -/
theorem sum_nanos_items (d : Duration) : (d.items.map Item.nanos).sum = d.nanos := by
  obtain ⟨-, -, -, -, -, -, hmilli, hmicro, hnano⟩ := Span.sizes
  have hlarge : Span.year.nanos = 0 ∧ Span.month.nanos = 0 ∧ Span.day.nanos = 0 ∧
      Span.hour.nanos = 0 ∧ Span.minute.nanos = 0 ∧ Span.second.nanos = 0 := by decide
  simp only [items, List.map_cons, List.map_nil]
  repeat rw [List.sum_cons]
  rw [List.sum_nil]
  simp only [Item.nanos, hmilli, hmicro, hnano, hlarge]
  omega

/-- No item has a count that is too great. -/
theorem count_lt_of_mem_items {d : Duration} {i : Item} (h : i ∈ d.items) : i.count < wordSize := by
  have hseconds := d.seconds_lt
  have hnanos := d.nanos_lt
  have hlt : nanosPerSecond < wordSize := by decide
  simp only [items, List.mem_cons, List.not_mem_nil, or_false] at h
  rcases h with rfl | rfl | rfl | rfl | rfl | rfl | rfl | rfl | rfl
  all_goals
    dsimp only
    omega

/-! ### The whole notation -/

/-- No time at all, as it is written. -/
def noSeconds : Item := ⟨0, "s", .second, by decide, by decide⟩

/-- The items that are written of a duration. -/
def written (d : Duration) : List Item :=
  if (d.items.filter (·.count ≠ 0)).isEmpty then [noSeconds] else d.items.filter (·.count ≠ 0)

theorem item_eq (i : Item) :
    item i.count i.name = ([i].filter (·.count ≠ 0)).map Item.text := by
  rw [item, List.filter_singleton]
  by_cases hzero : i.count = 0 <;> simp [hzero, Item.text]

/-- What is written of items is put together from what is written of each of them. -/
theorem map_text_filter (is : List Item) :
    (is.filter (·.count ≠ 0)).map Item.text = is.flatMap fun i => item i.count i.name := by
  induction is with
  | nil => rfl
  | cons i is ih =>
    rw [List.flatMap_cons, ← ih, item_eq, ← List.map_append, ← List.filter_append]
    rfl

/-- The items of a duration are written with spaces between them. -/
theorem toNotation_eq (d : Duration) :
    d.toNotation = " ".intercalate (d.written.map Item.text) := by
  have hplural : "year" ++ "s" = "years" ∧ "month" ++ "s" = "months" ∧ "day" ++ "s" = "days" := by
    decide
  have hitems : (d.items.filter (·.count ≠ 0)).map Item.text =
      itemPlural (d.seconds / 31557600) "year" ++
        itemPlural (d.seconds % 31557600 / 2630016) "month" ++
        itemPlural (d.seconds % 31557600 % 2630016 / 86400) "day" ++
        item (d.seconds % 31557600 % 2630016 % 86400 / 3600) "h" ++
        item (d.seconds % 31557600 % 2630016 % 86400 % 3600 / 60) "m" ++
        item (d.seconds % 31557600 % 2630016 % 86400 % 60) "s" ++ item (d.nanos / 1000000) "ms" ++
        item (d.nanos / 1000 % 1000) "us" ++ item (d.nanos % 1000) "ns" := by
    rw [map_text_filter]
    simp only [items, List.flatMap_cons, List.flatMap_nil, itemPlural, hplural, List.append_assoc,
      List.append_nil]
  rw [toNotation, ← hitems, List.isEmpty_map, written]
  split
  · rfl
  · rfl

/-- What is written adds up to the same as all items do. -/
theorem sum_written (d : Duration) {f : Item → Nat} (hf : ∀ i, i.count = 0 → f i = 0) :
    (d.written.map f).sum = (d.items.map f).sum := by
  rw [← sum_filter_count d.items hf, written]
  split
  · rename_i hempty
    rw [List.isEmpty_iff.mp hempty]
    simp [hf noSeconds rfl]
  · rfl

/-- What is written adds up to the duration. -/
theorem foldlM_written (d : Duration) : d.written.foldlM Item.addTo? zero = some d := by
  have hseconds : zero.seconds + (d.written.map Item.seconds).sum = d.seconds := by
    rw [sum_written d fun i hi => by rw [Item.seconds, hi, Nat.zero_mul], sum_seconds_items]
    exact Nat.zero_add _
  have hnanos : zero.nanos + (d.written.map Item.nanos).sum = d.nanos := by
    rw [sum_written d fun i hi => by rw [Item.nanos, hi, Nat.zero_mul], sum_nanos_items]
    exact Nat.zero_add _
  rw [foldlM_addTo? (hseconds ▸ d.seconds_lt) (hnanos ▸ d.nanos_lt)]
  simp only [hseconds, hnanos]

/-- The first item stands in front. -/
theorem exists_rest (i : Item) (is : List Item) :
    ∃ rest, (" ".intercalate ((i :: is).map Item.text)).toList = i.text.toList ++ rest := by
  cases is with
  | nil => exact ⟨[], by simp⟩
  | cons j js =>
    rw [List.map_cons, List.map_cons, String.intercalate_cons_cons, String.toList_append,
      String.toList_append, List.append_assoc]
    exact ⟨_, rfl⟩

/-- Every item takes a character at least. -/
theorem length_le_intercalate (is : List Item) :
    is.length ≤ (" ".intercalate (is.map Item.text)).toList.length := by
  induction is with
  | nil => exact Nat.zero_le _
  | cons i is ih =>
    have hpos : 0 < i.text.toList.length := by
      rw [Item.text, String.toList_append, List.length_append]
      exact Nat.add_pos_right _ (List.length_pos_iff.mpr i.letters.1)
    cases is with
    | nil => simpa using Nat.succ_le_of_lt hpos
    | cons j js =>
      simp only [List.map_cons, String.intercalate_cons_cons, String.toList_append,
        List.length_append, List.length_cons] at ih ⊢
      omega

/-- The notation of a duration is read as the duration. -/
theorem ofNotation?_toNotation (d : Duration) : ofNotation? d.toNotation = some d := by
  have hcounts : ∀ i ∈ d.written, i.count < wordSize := by
    intro i hi
    rw [written] at hi
    split at hi
    · rw [List.mem_singleton.mp hi]
      decide
    · exact count_lt_of_mem_items (List.mem_filter.mp hi).1
  have hread := readSpans_items hcounts
    (Nat.lt_succ_of_le (length_le_intercalate d.written)) zero
  rw [← toNotation_eq, foldlM_written] at hread
  obtain ⟨i, is, hwritten⟩ : ∃ i is, d.written = i :: is := by
    rw [written]
    split
    · exact ⟨noSeconds, [], rfl⟩
    · rename_i hsome
      exact List.exists_cons_of_ne_nil (by simpa using hsome)
  obtain ⟨rest, hrest⟩ := exists_rest i is
  rw [← hwritten, ← toNotation_eq] at hrest
  obtain ⟨digit, behind, htext, -, hblank, hnumber⟩ :=
    i.readNumber_text (hcounts i (hwritten ▸ List.mem_cons_self)) rest
  rw [htext] at hrest
  -- The name of a unit stands behind the number, so it is not the bare zero.
  have hne : d.toNotation ≠ "0" := by
    intro hzero
    rw [hzero] at hrest
    obtain ⟨-, rfl⟩ := List.cons.inj hrest
    have hname : i.name.toList ++ rest = [] := (Prod.mk.inj (Option.some.inj hnumber)).2.symm
    exact i.letters.1 (List.append_eq_nil_iff.mp hname).1
  have hsome : ¬ d.toNotation.toList.all Text.isBlank = true := by
    rw [hrest]
    simp [hblank]
  rw [ofNotation?, if_neg hne, if_neg hsome]
  exact hread

end BearerAuth.Duration
