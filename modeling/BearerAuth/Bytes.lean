/-!
# Byte strings

Everything that crosses the edge of the library (tokens, key files, JSON documents) is a list of
bytes.  This file holds the passage between bytes and text, which is UTF-8, and the passage between
bytes and natural numbers, which is big-endian.

Main statements: decoding undoes encoding (`Bytes.text?_utf8`), and only the encoding of a text
decodes to it (`Bytes.eq_utf8_of_text?`).
-/

namespace BearerAuth

/-- A string of bytes. -/
abbrev Bytes := List UInt8

/-- The UTF-8 encoding of a text. -/
def utf8 (s : String) : Bytes :=
  s.toUTF8.data.toList

/-- The byte of an ASCII character. -/
abbrev ascii (c : Char) : UInt8 :=
  c.toUInt8

namespace Bytes

/-- The text that a byte string encodes, if it is valid UTF-8. -/
def text? (b : Bytes) : Option String :=
  String.fromUTF8? b.toByteArray

@[simp] theorem utf8_append (s t : String) : utf8 (s ++ t) = utf8 s ++ utf8 t := by
  simp [utf8, String.toUTF8]

@[simp] theorem utf8_empty : utf8 "" = [] := rfl

theorem toByteArray_utf8 (s : String) : (utf8 s).toByteArray = s.toByteArray := by
  apply ByteArray.ext
  simp [utf8, String.toUTF8]

theorem text?_utf8 (s : String) : text? (utf8 s) = some s := by
  have h : s.toByteArray.IsValidUTF8 := s.isValidUTF8
  simp only [text?, toByteArray_utf8, String.fromUTF8?, dif_pos h]
  rfl

theorem eq_utf8_of_text? {b : Bytes} {s : String} (h : text? b = some s) : b = utf8 s := by
  unfold text? String.fromUTF8? at h
  split at h
  · cases h
    change b = (List.toByteArray b).data.toList
    simp
  · cases h

theorem utf8_injective {s t : String} (h : utf8 s = utf8 t) : s = t := by
  have := text?_utf8 s
  rw [h, text?_utf8] at this
  exact (Option.some.inj this).symm

/-- The number that a byte string spells, most significant byte first. -/
def toNat (b : Bytes) : Nat :=
  b.foldl (fun n x => n * 256 + x.toNat) 0

/-- The last `width` bytes of the big-endian spelling of a number. -/
def ofNatPadded (width n : Nat) : Bytes :=
  go width n []
where
  /-- Emits `k` bytes in front of `acc`, least significant first. -/
  go : Nat → Nat → Bytes → Bytes
    | 0, _, acc => acc
    | k + 1, n, acc => go k (n / 256) (UInt8.ofNat (n % 256) :: acc)

/-- The number of bytes that a number needs; zero needs none. -/
def byteLength (n : Nat) : Nat :=
  if n = 0 then 0 else n.log2 / 8 + 1

/-- The shortest big-endian spelling of a number. -/
def ofNat (n : Nat) : Bytes :=
  ofNatPadded (byteLength n) n

end Bytes

/-- The number of binary digits of a number; zero has none. -/
def bitLength (n : Nat) : Nat :=
  if n = 0 then 0 else n.log2 + 1

end BearerAuth
