import Mathlib
import BearerAuth.Json.Fault
import BearerAuth.Proofs.Decimal
import BearerAuth.Proofs.Failable
import BearerAuth.Proofs.Utf8

/-!
# Numbers of JSON

How numbers may be written, and that the reader takes every number of the grammar as far as it
goes.  A number has no closing mark, so what follows it must not go on with it.

Main statements: `scanNumber_of_spells` for all numbers of the grammar, and `asInt64_ofInt` for the
integers that claims hold, which come back unchanged down to the least one.
-/

namespace BearerAuth.Json

/-! ### Digits -/

/-- The byte of a digit. -/
def digitByte (d : Nat) : UInt8 :=
  UInt8.ofNat (48 + d)

theorem isDigit_digitByte {d : Nat} (h : d < 10) : isDigit (digitByte d) := by
  revert d
  decide

theorem digitValue_digitByte {d : Nat} (h : d < 10) : digitValue (digitByte d) = d := by
  revert d
  decide

theorem digitByte_eq_zero_iff {d : Nat} (h : d < 10) : digitByte d = ascii '0' ↔ d = 0 := by
  revert d
  decide

theorem ne_of_isDigit {b c : UInt8} (hb : isDigit b) (hc : isDigit c = false) : b ≠ c := by
  rintro rfl
  rw [hb] at hc
  cases hc

/-- No digit stands in front. -/
def NoDigit (rest : Bytes) : Prop :=
  ∀ b ∈ rest.head?, isDigit b = false

/-- The reader takes all digits in front of what is none. -/
theorem takeDigits_of_noDigit {ds : List Nat} (h : ∀ d ∈ ds, d < 10) {rest : Bytes}
    (hrest : NoDigit rest) : takeDigits (ds.map digitByte ++ rest) = (ds, rest) := by
  have hall : ∀ b ∈ ds.map digitByte, isDigit b := by
    intro b hb
    obtain ⟨d, hd, rfl⟩ := List.mem_map.mp hb
    exact isDigit_digitByte (h d hd)
  have hnone : rest.takeWhile isDigit = [] ∧ rest.dropWhile isDigit = rest := by
    cases rest with
    | nil => exact ⟨rfl, rfl⟩
    | cons b rest =>
      have hb : isDigit b = false := hrest b rfl
      simp [hb]
  have hvalues : (ds.map digitByte).map digitValue = ds := by
    rw [List.map_map]
    conv_rhs => rw [← List.map_id ds]
    exact List.map_congr_left fun d hd => digitValue_digitByte (h d hd)
  rw [takeDigits, List.takeWhile_append_of_pos hall, List.dropWhile_append_of_pos hall, hnone.1,
    hnone.2, List.append_nil, hvalues]

/-! ### Grammar -/

/-- The digits of a whole part: there is one, and only zero starts with a zero. -/
structure WholeDigits (ds : List Nat) : Prop where
  lt : ∀ d ∈ ds, d < 10
  ne_nil : ds ≠ []
  zero : ds.head? = some 0 → ds = [0]

/-- The bytes of a fraction. -/
def fractionBytes : List Nat → Bytes
  | [] => []
  | d :: ds => ascii '.' :: (d :: ds).map digitByte

/-- The bytes spell an exponent. -/
inductive ExponentSpells : Option (Bool × List Nat) → Bytes → Prop
  | none : ExponentSpells none []
  | some {negative : Bool} {ds : List Nat} {letter : UInt8} {sign : Bytes}
      (hds : ∀ d ∈ ds, d < 10) (hne : ds ≠ []) (hletter : letter = ascii 'e' ∨ letter = ascii 'E')
      (hsign : sign = (if negative then [ascii '-'] else []) ∨
        negative = false ∧ sign = [ascii '+']) :
      ExponentSpells (some (negative, ds)) (letter :: sign ++ ds.map digitByte)

/-- The bytes spell a number. -/
structure Number.Spells (n : Number) (b : Bytes) : Prop where
  whole : WholeDigits n.whole
  fraction : ∀ d ∈ n.fraction, d < 10
  bytes : ∃ e, ExponentSpells n.exponent e ∧
    b = (if n.negative then [ascii '-'] else []) ++ n.whole.map digitByte ++
      fractionBytes n.fraction ++ e

/-- A byte that goes on with a number. -/
def isNumberByte (b : UInt8) : Bool :=
  isDigit b || b = ascii '.' || b = ascii 'e' || b = ascii 'E'

/-- A number in front of these bytes ends there. -/
def Stops (rest : Bytes) : Prop :=
  ∀ b ∈ rest.head?, isNumberByte b = false

theorem stops_nil : Stops [] := by
  intro b hb
  cases hb

theorem stops_cons {b : UInt8} {rest : Bytes} (h : isNumberByte b = false) :
    Stops (b :: rest) := by
  intro c hc
  cases hc
  exact h

theorem Stops.noDigit {rest : Bytes} (h : Stops rest) : NoDigit rest := by
  intro b hb
  have := h b hb
  simp only [isNumberByte, Bool.or_eq_false_iff] at this
  exact this.1.1.1

/-! ### Reading -/

theorem scanWhole_of_digits {ds : List Nat} (h : WholeDigits ds) {rest : Bytes}
    (hrest : NoDigit rest) : scanWhole (ds.map digitByte ++ rest) = .ok (ds, rest) := by
  cases ds with
  | nil => exact absurd rfl h.ne_nil
  | cons d ds =>
    have hd : d < 10 := h.lt d List.mem_cons_self
    rw [List.map_cons, List.cons_append, scanWhole]
    by_cases hzero : d = 0
    · subst hzero
      obtain rfl : ds = [] := by simpa using h.zero rfl
      have hhead : (rest.head?.map isDigit).getD false = false := by
        cases rest with
        | nil => rfl
        | cons b rest => exact hrest b rfl
      rw [if_pos ((digitByte_eq_zero_iff hd).mpr rfl), List.map_nil, List.nil_append, hhead]
      rfl
    · rw [if_neg fun heq => hzero ((digitByte_eq_zero_iff hd).mp heq),
        if_pos (isDigit_digitByte hd),
        takeDigits_of_noDigit (fun d hd => h.lt d (List.mem_cons_of_mem _ hd)) hrest,
        digitValue_digitByte hd]

theorem scanFraction_of_digits {ds : List Nat} (h : ∀ d ∈ ds, d < 10) {rest : Bytes}
    (hrest : NoDigit rest) (hdot : rest.head? ≠ some (ascii '.')) :
    scanFraction (fractionBytes ds ++ rest) = .ok (ds, rest) := by
  cases ds with
  | nil =>
    cases rest with
    | nil => rfl
    | cons b rest =>
      have hb : b ≠ ascii '.' := fun heq => hdot (by rw [heq]; rfl)
      simp [fractionBytes, scanFraction, hb]
  | cons d ds =>
    rw [fractionBytes, List.cons_append, scanFraction, if_pos rfl, takeDigits_of_noDigit h hrest]
    rfl

/-- The letter and the sign of an exponent do not go on with the number in front. -/
theorem scanExponent_of_spells {x : Option (Bool × List Nat)} {e : Bytes}
    (h : ExponentSpells x e) {rest : Bytes} (hrest : Stops rest) :
    scanExponent (e ++ rest) = .ok (x, rest) := by
  cases h with
  | none =>
    cases rest with
    | nil => rfl
    | cons b rest =>
      have hb := hrest b rfl
      simp only [isNumberByte, Bool.or_eq_false_iff, decide_eq_false_iff_not] at hb
      simp [scanExponent, hb]
  | @some negative ds letter sign hds hne hletter hsign =>
    cases ds with
    | nil => exact absurd rfl hne
    | cons d ds =>
      have hd : d < 10 := hds d List.mem_cons_self
      have hscan : scanSign (sign ++ ((d :: ds).map digitByte ++ rest)) =
          (negative, (d :: ds).map digitByte ++ rest) := by
        have hminus : digitByte d ≠ ascii '-' := ne_of_isDigit (isDigit_digitByte hd) rfl
        have hplus : digitByte d ≠ ascii '+' := ne_of_isDigit (isDigit_digitByte hd) rfl
        rcases hsign with rfl | ⟨rfl, rfl⟩
        · cases negative with
          | true => rfl
          | false => simp [scanSign, hminus, hplus]
        · rfl
      rw [List.cons_append, List.cons_append, List.append_assoc, scanExponent, if_pos hletter,
        hscan, List.map_cons, List.cons_append]
      dsimp only
      rw [if_pos (isDigit_digitByte hd),
        takeDigits_of_noDigit (fun d hd => hds d (List.mem_cons_of_mem _ hd)) hrest.noDigit,
        digitValue_digitByte hd]

/-- The sign of a number is read by itself. -/
theorem scanNumber_signed (negative : Bool) {input : Bytes} (h : input.head? ≠ some (ascii '-')) :
    scanNumber ((if negative then [ascii '-'] else []) ++ input) = (do
      let (whole, rest) ← scanWhole input
      let (fraction, rest) ← scanFraction rest
      let (exponent, rest) ← scanExponent rest
      return (⟨negative, whole, fraction, exponent⟩, rest)) := by
  cases negative with
  | true => rfl
  | false => simp [scanNumber, h]

/-- The reader takes every number of the grammar that ends in front of the rest. -/
theorem scanNumber_of_spells {n : Number} {b : Bytes} (h : n.Spells b) {rest : Bytes}
    (hrest : Stops rest) : scanNumber (b ++ rest) = .ok (n, rest) := by
  obtain ⟨negative, whole, fraction, exponent⟩ := n
  obtain ⟨hwhole, hfraction, e, hexponent, rfl⟩ := h
  dsimp only at hwhole hfraction hexponent ⊢
  have hafter : ∀ c ∈ (e ++ rest).head?, isDigit c = false ∧ c ≠ ascii '.' := by
    intro c hc
    cases hexponent with
    | none =>
      have := hrest c hc
      simp only [isNumberByte, Bool.or_eq_false_iff, decide_eq_false_iff_not] at this
      exact ⟨this.1.1.1, this.1.1.2⟩
    | some hds hne hletter hsign =>
      obtain rfl := Option.some.inj hc
      rcases hletter with rfl | rfl <;> decide
  have hbehind : NoDigit (fractionBytes fraction ++ (e ++ rest)) := by
    cases fraction with
    | nil => exact fun c hc => (hafter c hc).1
    | cons d ds =>
      intro c hc
      obtain rfl := Option.some.inj hc
      rfl
  have hhead : (whole.map digitByte ++ (fractionBytes fraction ++ (e ++ rest))).head? ≠
      some (ascii '-') := by
    cases whole with
    | nil => exact absurd rfl hwhole.ne_nil
    | cons d ds =>
      intro heq
      have hdigit := isDigit_digitByte (hwhole.lt d List.mem_cons_self)
      exact ne_of_isDigit hdigit rfl (Option.some.inj heq)
  have hdot : (e ++ rest).head? ≠ some (ascii '.') := fun heq => (hafter _ heq).2 rfl
  rw [List.append_assoc, List.append_assoc, List.append_assoc, scanNumber_signed negative hhead]
  simp only [scanWhole_of_digits hwhole hbehind, Except.ok_bind,
    scanFraction_of_digits hfraction (fun c hc => (hafter c hc).1) hdot,
    scanExponent_of_spells hexponent hrest]
  rfl

/-! ### Integers -/

/-- An integer as a number of JSON. -/
def Number.ofInt (i : Int) : Number :=
  ⟨decide (i < 0), Decimal.digits i.natAbs, [], none⟩

/-- A number in decimal is written digit by digit. -/
theorem utf8_ofNat (n : Nat) : utf8 (Decimal.ofNat n) = (Decimal.digits n).map digitByte := by
  have hdigit : ∀ d < 10, (Decimal.digitChar d).toNat < 128 ∧
      ascii (Decimal.digitChar d) = digitByte d := by
    decide
  rw [Decimal.ofNat, utf8_ofList_of_lt, List.map_map]
  · exact List.map_congr_left fun d hd => (hdigit d (Decimal.lt_of_mem_digits hd)).2
  · intro c hc
    obtain ⟨d, hd, rfl⟩ := List.mem_map.mp hc
    exact (hdigit d (Decimal.lt_of_mem_digits hd)).1

theorem wholeDigits_digits (n : Nat) : WholeDigits (Decimal.digits n) where
  lt _ hd := Decimal.lt_of_mem_digits hd
  ne_nil := by
    by_cases h : n = 0
    · simp [h]
    · obtain ⟨d, ds, -, heq⟩ := Decimal.digits_eq_cons h
      simp [heq]
  zero hhead := by
    by_cases h : n = 0
    · simp [h]
    · obtain ⟨d, ds, hd, heq⟩ := Decimal.digits_eq_cons h
      rw [heq] at hhead
      exact absurd (Option.some.inj hhead) hd

/-- An integer in decimal is a number of the grammar. -/
theorem ofInt_spells (i : Int) : (Number.ofInt i).Spells (utf8 (Decimal.ofInt i)) where
  whole := wholeDigits_digits _
  fraction _ hd := by cases hd
  bytes := by
    refine ⟨[], .none, ?_⟩
    cases i with
    | ofNat n => simp [Number.ofInt, Decimal.ofInt, utf8_ofNat, fractionBytes]
    | negSucc n =>
      have hminus : utf8 "-" = [ascii '-'] := rfl
      simp [Number.ofInt, Decimal.ofInt, utf8_ofNat, fractionBytes, hminus, Int.negSucc_lt_zero]

/-- All digits of a number that fits into a word are taken into its significand. -/
theorem absorb_of_lt {ds : List Nat} {n : Nat}
    (h : ds.foldl (fun n d => n * 10 + d) n < Number.wordLimit) :
    Number.absorb n ds = (ds.foldl (fun n d => n * 10 + d) n, []) := by
  have hmono : ∀ (ds : List Nat) (n : Nat), n ≤ ds.foldl (fun n d => n * 10 + d) n := by
    intro ds
    induction ds with
    | nil => exact fun n => le_refl n
    | cons d ds ih => exact fun n => le_trans (by omega) (ih (n * 10 + d))
  induction ds generalizing n with
  | nil => rfl
  | cons d ds ih =>
    rw [List.foldl_cons] at h ⊢
    rw [Number.absorb, if_pos (lt_of_le_of_lt (hmono ds _) h), ih h]

theorem absorb_digits {n : Nat} (h : n < Number.wordLimit) :
    Number.absorb 0 (Decimal.digits n) = (n, []) := by
  have hdigits : (Decimal.digits n).foldl (fun n d => n * 10 + d) 0 = n :=
    Decimal.ofDigits_digits n
  rw [absorb_of_lt (by rw [hdigits]; exact h), hdigits]

/-- A natural number that fits into a word denotes itself. -/
theorem numeral_ofInt_natural {i : Int} (h : 0 ≤ i) (hlt : i < Number.wordLimit) :
    (Number.ofInt i).numeral = .natural i.toNat := by
  have habs : i.natAbs = i.toNat := by omega
  have hword : i.toNat < Number.wordLimit := by omega
  have hsign : ¬ i < 0 := by omega
  simp [Number.numeral, Number.ofInt, habs, absorb_digits hword, hsign]

/-- A negative integer that fits into a signed word denotes itself. -/
theorem numeral_ofInt_negative {i : Int} (h : i < 0) (hle : -0x8000000000000000 ≤ i) :
    (Number.ofInt i).numeral = .negative i.natAbs := by
  have hword : i.natAbs < Number.wordLimit := by
    show i.natAbs < 0x10000000000000000
    omega
  have hpos : 0 < i.natAbs ∧ i.natAbs ≤ 0x8000000000000000 := by omega
  simp only [Number.numeral, Number.ofInt, absorb_digits hword, h]
  simp [hpos]

/-- Signed words come back unchanged. -/
theorem asInt64_ofInt (x : Int64) : (Value.number (Number.ofInt x.toInt)).asInt64 = .ok x := by
  have hlt : x.toInt < 0x8000000000000000 := x.toInt_lt
  have hle : -0x8000000000000000 ≤ x.toInt := x.le_toInt
  unfold Value.asInt64
  by_cases h : 0 ≤ x.toInt
  · have hword : x.toInt < Number.wordLimit := lt_trans hlt (by decide)
    have hsmall : x.toInt.toNat < 0x8000000000000000 := by omega
    dsimp only
    rw [numeral_ofInt_natural h hword]
    dsimp only
    rw [if_pos hsmall, ← Int64.ofInt_eq_ofNat, Int.toNat_of_nonneg h, Int64.ofInt_toInt]
  · have habs : -(x.toInt.natAbs : Int) = x.toInt := by omega
    dsimp only
    rw [numeral_ofInt_negative (not_le.mp h) hle]
    dsimp only
    rw [habs, Int64.ofInt_toInt]

end BearerAuth.Json
