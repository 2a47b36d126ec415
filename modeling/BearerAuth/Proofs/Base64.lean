import Mathlib
import BearerAuth.Base64

/-!
# Base64 undone

What is written in base64 is read back, with and without padding, and nothing else is: a text that
is read as some bytes is the one that is written for them.

Main statements: `Alphabet.decode_encode`, `Alphabet.decodePadded_encodePadded` and
`Alphabet.eq_encode_of_decode`.
-/

namespace BearerAuth.Base64

/-! ### Groups of six bits -/

theorem lt_of_mem_sextets {b : Bytes} {n : Nat} (h : n ∈ sextets b) : n < 64 := by
  fun_induction sextets b with
  | case1 => cases h
  | case2 x =>
    have hx := x.toNat_lt
    simp only [List.mem_cons, List.not_mem_nil, or_false] at h
    omega
  | case3 x y =>
    have hx := x.toNat_lt
    have hy := y.toNat_lt
    simp only [List.mem_cons, List.not_mem_nil, or_false] at h
    omega
  | case4 x y z rest ih =>
    have hx := x.toNat_lt
    have hy := y.toNat_lt
    have hz := z.toNat_lt
    simp only [List.mem_cons] at h
    rcases h with h | h | h | h | h
    · omega
    · omega
    · omega
    · omega
    · exact ih h

/-- Every byte takes four thirds of a group, rounded up at the end. -/
theorem length_sextets (b : Bytes) : (sextets b).length = (4 * b.length + 2) / 3 := by
  fun_induction sextets b with
  | case1 => rfl
  | case2 x => simp
  | case3 x y => simp
  | case4 x y z rest ih =>
    simp only [List.length_cons, ih]
    omega

/-- The byte whose number is given by its upper and its lower part. -/
theorem ofNat_eq_of_toNat {x : UInt8} {n : Nat} (h : n = x.toNat) : UInt8.ofNat n = x := by
  rw [h, UInt8.ofNat_toNat]

/-- The groups of six bits are joined to the bytes from which they were cut. -/
theorem joinSextets_sextets (b acc : Bytes) :
    joinSextets (sextets b) acc = some (acc.reverse ++ b) := by
  fun_induction sextets b generalizing acc with
  | case1 => simp [joinSextets]
  | case2 x =>
    have hx := x.toNat_lt
    have hlow : x.toNat % 4 * 16 % 16 = 0 := by omega
    have hbyte : UInt8.ofNat (x.toNat / 4 * 4 + x.toNat % 4 * 16 / 16) = x :=
      ofNat_eq_of_toNat (by omega)
    rw [joinSextets, if_pos hlow, hbyte, List.reverse_cons]
  | case3 x y =>
    have hx := x.toNat_lt
    have hy := y.toNat_lt
    have hlow : y.toNat % 16 * 4 % 4 = 0 := by omega
    have hfirst : UInt8.ofNat (x.toNat / 4 * 4 + (x.toNat % 4 * 16 + y.toNat / 16) / 16) = x :=
      ofNat_eq_of_toNat (by omega)
    have hsecond :
        UInt8.ofNat ((x.toNat % 4 * 16 + y.toNat / 16) % 16 * 16 + y.toNat % 16 * 4 / 4) = y :=
      ofNat_eq_of_toNat (by omega)
    rw [joinSextets, if_pos hlow, hfirst, hsecond]
    simp
  | case4 x y z rest ih =>
    have hx := x.toNat_lt
    have hy := y.toNat_lt
    have hz := z.toNat_lt
    have hfirst : UInt8.ofNat (x.toNat / 4 * 4 + (x.toNat % 4 * 16 + y.toNat / 16) / 16) = x :=
      ofNat_eq_of_toNat (by omega)
    have hsecond : UInt8.ofNat ((x.toNat % 4 * 16 + y.toNat / 16) % 16 * 16 +
        (y.toNat % 16 * 4 + z.toNat / 64) / 4) = y :=
      ofNat_eq_of_toNat (by omega)
    have hthird : UInt8.ofNat ((y.toNat % 16 * 4 + z.toNat / 64) % 4 * 64 + z.toNat % 64) = z :=
      ofNat_eq_of_toNat (by omega)
    rw [joinSextets, hfirst, hsecond, hthird, ih]
    simp

/-- The number of a byte that is put together from two parts. -/
theorem toNat_ofNat_of_lt {n : Nat} (h : n < 256) : (UInt8.ofNat n).toNat = n := by
  rw [UInt8.toNat_ofNat']
  exact Nat.mod_eq_of_lt h

/-- Groups of six bits that can be joined are cut from what they are joined to. -/
theorem sextets_of_joinSextets {ns : List Nat} {acc b : Bytes} (hns : ∀ n ∈ ns, n < 64)
    (h : joinSextets ns acc = some b) : ∃ tail, b = acc.reverse ++ tail ∧ sextets tail = ns := by
  fun_induction joinSextets ns acc with
  | case1 acc =>
    cases h
    exact ⟨[], by simp, rfl⟩
  | case2 => cases h
  | case3 x y acc hy =>
    cases h
    have hx : x < 64 := hns x (by simp)
    have hlt : y < 64 := hns y (by simp)
    refine ⟨[UInt8.ofNat (x * 4 + y / 16)], by simp, ?_⟩
    rw [sextets, toNat_ofNat_of_lt (by omega)]
    congr 1
    · omega
    · congr 1
      omega
  | case4 => cases h
  | case5 x y z acc hz =>
    cases h
    have hx : x < 64 := hns x (by simp)
    have hy : y < 64 := hns y (by simp)
    have hlt : z < 64 := hns z (by simp)
    refine ⟨[UInt8.ofNat (x * 4 + y / 16), UInt8.ofNat (y % 16 * 16 + z / 4)], by simp, ?_⟩
    rw [sextets, toNat_ofNat_of_lt (by omega), toNat_ofNat_of_lt (by omega)]
    simp only [List.cons.injEq, and_true]
    omega
  | case6 => cases h
  | case7 x y z w rest acc ih =>
    have hx : x < 64 := hns x (by simp)
    have hy : y < 64 := hns y (by simp)
    have hz : z < 64 := hns z (by simp)
    have hw : w < 64 := hns w (by simp)
    obtain ⟨tail, rfl, htail⟩ := ih (fun n hn => hns n (by simp [hn])) h
    refine ⟨UInt8.ofNat (x * 4 + y / 16) :: UInt8.ofNat (y % 16 * 16 + z / 4) ::
      UInt8.ofNat (z % 4 * 64 + w) :: tail, by simp, ?_⟩
    rw [sextets, htail, toNat_ofNat_of_lt (by omega), toNat_ofNat_of_lt (by omega),
      toNat_ofNat_of_lt (by omega)]
    simp only [List.cons.injEq, and_true]
    omega

/-! ### Symbols -/

namespace Alphabet

/-- Every symbol has the value that it stands for. -/
def Lawful (a : Alphabet) : Prop :=
  ∀ n < 64, a.value? (a.symbol n) = some n

theorem standard_lawful : standard.Lawful := by
  unfold Lawful
  decide

theorem urlSafe_lawful : urlSafe.Lawful := by
  unfold Lawful
  decide

variable {a : Alphabet}

/-- A reading that succeeds knows every symbol. -/
theorem isSome_value?_of_decode {cs : List Char} {b : Bytes}
    (h : a.decode cs = some b) {c : Char} (hc : c ∈ cs) : (a.value? c).isSome := by
  unfold decode at h
  obtain ⟨values, hvalues, -⟩ := Option.bind_eq_some_iff.mp h
  clear h
  induction cs generalizing values with
  | nil => simp at hc
  | cons x rest ih =>
    rw [List.mapM_cons] at hvalues
    obtain ⟨v, hv, hrest⟩ := Option.bind_eq_some_iff.mp hvalues
    obtain ⟨vs, hvs, -⟩ := Option.bind_eq_some_iff.mp hrest
    rcases List.mem_cons.mp hc with rfl | hmem
    · simp [hv]
    · exact ih hmem vs hvs

theorem length_encode (a : Alphabet) (b : Bytes) :
    (a.encode b).length = (4 * b.length + 2) / 3 := by
  rw [encode, List.length_map, length_sextets]

/-- Symbols are read as the values for which they were written. -/
theorem mapM_value?_map_symbol (ha : a.Lawful) {ns : List Nat} (h : ∀ n ∈ ns, n < 64) :
    (ns.map a.symbol).mapM a.value? = some ns := by
  induction ns with
  | nil => rfl
  | cons n ns ih =>
    have hn := ha n (h n List.mem_cons_self)
    have hns := ih fun m hm => h m (List.mem_cons_of_mem n hm)
    rw [List.map_cons, List.mapM_cons, hn, hns]
    rfl

/-- What is written without padding is read back. -/
theorem decode_encode (ha : a.Lawful) (b : Bytes) : a.decode (a.encode b) = some b := by
  rw [decode, encode, mapM_value?_map_symbol ha fun n hn => lt_of_mem_sextets hn,
    Option.bind_some, joinSextets_sextets]
  rfl

/-- Only symbols of the alphabet are written. -/
theorem notMem_encode (ha : a.Lawful) {c : Char} (hc : a.value? c = none) (b : Bytes) :
    c ∉ a.encode b := by
  intro hmem
  have hsome := isSome_value?_of_decode (decode_encode ha b) hmem
  rw [hc] at hsome
  cases hsome

/-- A symbol with a value is the symbol of this value. -/
theorem symbol_of_value? {c : Char} {n : Nat} (h : a.value? c = some n) :
    n < 64 ∧ a.symbol n = c := by
  unfold value? at h
  split at h
  · rename_i hc
    have hlow : 65 ≤ c.toNat := hc.1
    have hhigh : c.toNat ≤ 90 := hc.2
    cases h
    refine ⟨by omega, ?_⟩
    rw [symbol, if_pos (by omega), Nat.add_sub_cancel' hlow, Char.ofNat_toNat]
  · split at h
    · rename_i hc
      have hlow : 97 ≤ c.toNat := hc.1
      have hhigh : c.toNat ≤ 122 := hc.2
      cases h
      refine ⟨by omega, ?_⟩
      rw [symbol, if_neg (by omega), if_pos (by omega), Nat.add_sub_cancel' (by omega),
        Char.ofNat_toNat]
    · split at h
      · rename_i hc
        have hlow : 48 ≤ c.toNat := hc.1
        have hhigh : c.toNat ≤ 57 := hc.2
        cases h
        refine ⟨by omega, ?_⟩
        rw [symbol, if_neg (by omega), if_neg (by omega), if_pos (by omega), Nat.add_sub_cancel,
          Char.ofNat_toNat]
      · split at h
        · rename_i hc
          cases h
          exact ⟨by decide, hc.symm⟩
        · split at h
          · rename_i hc
            cases h
            exact ⟨by decide, hc.symm⟩
          · cases h

/-- What is read as values is written with the symbols of these values. -/
theorem map_symbol_of_mapM_value? {cs : List Char} {ns : List Nat}
    (h : cs.mapM a.value? = some ns) : (∀ n ∈ ns, n < 64) ∧ ns.map a.symbol = cs := by
  induction cs generalizing ns with
  | nil =>
    cases h
    simp
  | cons c cs ih =>
    rw [List.mapM_cons] at h
    obtain ⟨n, hn, h⟩ := Option.bind_eq_some_iff.mp h
    obtain ⟨rest, hrest, h⟩ := Option.bind_eq_some_iff.mp h
    cases h
    obtain ⟨hlt, hsymbol⟩ := symbol_of_value? hn
    obtain ⟨hall, hmap⟩ := ih hrest
    exact ⟨List.forall_mem_cons.mpr ⟨hlt, hall⟩, by rw [List.map_cons, hsymbol, hmap]⟩

/-- Only what is written for the bytes is read as these bytes. -/
theorem eq_encode_of_decode {cs : List Char} {b : Bytes} (h : a.decode cs = some b) :
    cs = a.encode b := by
  obtain ⟨ns, hns, hjoin⟩ := Option.bind_eq_some_iff.mp h
  obtain ⟨hlt, hmap⟩ := map_symbol_of_mapM_value? hns
  obtain ⟨tail, htail, hsextets⟩ := sextets_of_joinSextets hlt hjoin
  obtain rfl : b = tail := by simpa using htail
  rw [encode, hsextets, hmap]

/-! ### Padding -/

/-- With its padding a text consists of groups of four. -/
theorem length_encodePadded_mod (a : Alphabet) (b : Bytes) :
    (a.encodePadded b).length % 4 = 0 := by
  rw [encodePadded, List.length_append, length_encode, List.length_replicate]
  have hrest : b.length % 3 = 0 ∨ b.length % 3 = 1 ∨ b.length % 3 = 2 := by omega
  rcases hrest with h | h | h <;> rw [h] <;> omega

/-- What is written with padding is read back. -/
theorem decodePadded_encodePadded (ha : a.Lawful) (hpad : a.value? '=' = none) (b : Bytes) :
    a.decodePadded (a.encodePadded b) = some b := by
  have hnotMem := notMem_encode ha hpad b
  have hbody : (a.encodePadded b).takeWhile (· ≠ '=') = a.encode b := by
    rw [encodePadded, List.takeWhile_append_of_pos]
    · cases (3 - b.length % 3) % 3 <;> simp [List.replicate_succ]
    · intro c hc
      simpa using fun heq : c = '=' => hnotMem (heq ▸ hc)
  have hpadding : (a.encodePadded b).drop (a.encode b).length =
      List.replicate ((3 - b.length % 3) % 3) '=' := by
    rw [encodePadded, List.drop_left]
  unfold decodePadded
  dsimp only
  rw [hbody, hpadding, if_pos, decode_encode ha]
  refine ⟨?_, ?_, length_encodePadded_mod a b⟩
  · rw [List.length_replicate]
    omega
  · simp

/-- What is read takes fewer bytes than its spelling. -/
theorem length_le_of_decodePadded {a : Alphabet} {cs : List Char} {b : Bytes}
    (h : a.decodePadded cs = some b) : b.length ≤ cs.length := by
  unfold decodePadded at h
  dsimp only at h
  split at h
  · have hbody := congrArg List.length (eq_encode_of_decode h)
    have hle : (cs.takeWhile (· ≠ '=')).length ≤ cs.length := (List.takeWhile_prefix _).length_le
    rw [length_encode] at hbody
    omega
  · cases h

end Alphabet

end BearerAuth.Base64
