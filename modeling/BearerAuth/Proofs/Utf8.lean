import Mathlib
import BearerAuth.Bytes

/-!
# Characters as bytes

UTF-8 writes a text character by character: an ASCII character as the byte of its number, and any
other one with bytes from 128 on.  So whatever looks for ASCII bytes in a text looks for characters,
and the bytes of a text start with those of another one only where a character ends.
-/

namespace BearerAuth

/-- A text is written character by character. -/
theorem utf8_ofList (cs : List Char) :
    utf8 (String.ofList cs) = cs.flatMap String.utf8EncodeChar := by
  simp [utf8, List.utf8Encode]

theorem utf8_eq_flatMap (s : String) : utf8 s = s.toList.flatMap String.utf8EncodeChar := by
  rw [← utf8_ofList, String.ofList_toList]

/-- The byte of an ASCII character has its number. -/
theorem toNat_ascii {c : Char} (h : c.toNat < 128) : (ascii c).toNat = c.toNat := by
  have hval : c.val.toNat = c.toNat := rfl
  simp only [ascii, Char.toUInt8, UInt32.toNat_toUInt8, hval]
  omega

/-- ASCII characters with the same byte are the same. -/
theorem ascii_injOn {c d : Char} (hc : c.toNat < 128) (hd : d.toNat < 128)
    (h : ascii c = ascii d) : c = d := by
  have hnat : c.toNat = d.toNat := by rw [← toNat_ascii hc, ← toNat_ascii hd, h]
  rw [← Char.ofNat_toNat c, ← Char.ofNat_toNat d, hnat]

/-- An ASCII character is one byte. -/
theorem utf8EncodeChar_of_lt {c : Char} (h : c.toNat < 128) :
    String.utf8EncodeChar c = [ascii c] := by
  have hval : c.val.toNat ≤ 127 := Nat.le_of_lt_succ h
  apply String.utf8EncodeChar_eq_singleton
  exact Char.utf8Size_eq_one_iff.mpr (UInt32.le_iff_toNat_le.mpr hval)

/-- A text of ASCII characters has as many bytes as characters. -/
theorem utf8_ofList_of_lt {cs : List Char} (h : ∀ c ∈ cs, c.toNat < 128) :
    utf8 (String.ofList cs) = cs.map ascii := by
  rw [utf8_ofList]
  induction cs with
  | nil => rfl
  | cons c cs ih =>
    have hcs := ih fun d hd => h d (List.mem_cons_of_mem c hd)
    rw [List.flatMap_cons, utf8EncodeChar_of_lt (h c List.mem_cons_self), hcs]
    rfl

/-- No other character has an ASCII byte. -/
theorem le_of_mem_utf8EncodeChar {c : Char} (h : 128 ≤ c.toNat) {b : UInt8}
    (hb : b ∈ String.utf8EncodeChar c) : 128 ≤ b.toNat := by
  have hval : c.val.toNat = c.toNat := rfl
  have hbyte : ∀ n, n < 256 → (UInt8.ofNat n).toNat = n := fun n hn => by
    rw [UInt8.toNat_ofNat', Nat.mod_eq_of_lt hn]
  unfold String.utf8EncodeChar at hb
  dsimp only at hb
  rw [hval, if_neg (by omega)] at hb
  split at hb
  · simp only [List.mem_cons, List.not_mem_nil, or_false] at hb
    rcases hb with rfl | rfl <;> rw [hbyte _ (by omega)] <;> omega
  · split at hb
    · simp only [List.mem_cons, List.not_mem_nil, or_false] at hb
      rcases hb with rfl | rfl | rfl <;> rw [hbyte _ (by omega)] <;> omega
    · simp only [List.mem_cons, List.not_mem_nil, or_false] at hb
      rcases hb with rfl | rfl | rfl | rfl <;> rw [hbyte _ (by omega)] <;> omega

/-- The byte of an ASCII character is in the bytes of a text if the character is in the text. -/
theorem ascii_mem_utf8_iff {c : Char} (h : c.toNat < 128) {s : String} :
    ascii c ∈ utf8 s ↔ c ∈ s.toList := by
  rw [utf8_eq_flatMap, List.mem_flatMap]
  constructor
  · rintro ⟨d, hd, hbyte⟩
    by_cases hsmall : d.toNat < 128
    · rw [utf8EncodeChar_of_lt hsmall, List.mem_singleton] at hbyte
      rwa [ascii_injOn h hsmall hbyte]
    · have hle := le_of_mem_utf8EncodeChar (Nat.not_lt.mp hsmall) hbyte
      rw [toNat_ascii h] at hle
      omega
  · intro hc
    exact ⟨c, hc, by rw [utf8EncodeChar_of_lt h]; exact List.mem_singleton_self _⟩

/-- The bytes of a text start with those of another one where the text falls apart there. -/
theorem utf8_isPrefix_iff {front text : String} :
    utf8 front <+: utf8 text ↔ ∃ back, text = front ++ back := by
  constructor
  · rintro ⟨rest, hrest⟩
    have hbytes : front.toList.utf8Encode ++ rest.toByteArray = text.toList.utf8Encode := by
      apply ByteArray.ext
      apply Array.ext'
      simpa [utf8] using hrest
    obtain ⟨cs, hcs⟩ := List.isPrefix_of_utf8Encode_append_eq_utf8Encode _ hbytes
    refine ⟨String.ofList cs, ?_⟩
    apply String.toList_inj.mp
    rw [String.toList_append, String.toList_ofList, hcs]
  · rintro ⟨back, rfl⟩
    rw [Bytes.utf8_append]
    exact List.prefix_append _ _

end BearerAuth
