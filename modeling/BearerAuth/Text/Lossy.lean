import BearerAuth.Bytes

/-!
# Showing bytes that need not be text

A byte string is shown by decoding it as UTF-8, where every longest beginning of a character that
is not continued correctly shows as one replacement character.
-/

namespace BearerAuth.Text

/-- The character shown for bytes that are not text. -/
def replacement : Char := Char.ofNat 0xFFFD

/-- The beginning of a character: its bits so far, the range of the next byte, and how many bytes
are to come after that one. -/
structure Beginning where
  bits : Nat
  low : Nat
  high : Nat
  after : Nat

/-- What a byte begins: a character of its own, a longer one, or nothing. -/
inductive Opening where
  | whole (c : Char)
  | begins (b : Beginning)
  | nothing

/-- What a first byte begins. -/
def opening (n : Nat) : Opening :=
  if n < 0x80 then .whole (Char.ofNat n)
  else if n < 0xC2 then .nothing
  else if n < 0xE0 then .begins ⟨n - 0xC0, 0x80, 0xBF, 0⟩
  else if n = 0xE0 then .begins ⟨0, 0xA0, 0xBF, 1⟩
  else if n = 0xED then .begins ⟨0xD, 0x80, 0x9F, 1⟩
  else if n < 0xF0 then .begins ⟨n - 0xE0, 0x80, 0xBF, 1⟩
  else if n = 0xF0 then .begins ⟨0, 0x90, 0xBF, 2⟩
  else if n < 0xF4 then .begins ⟨n - 0xF0, 0x80, 0xBF, 2⟩
  else if n = 0xF4 then .begins ⟨4, 0x80, 0x8F, 2⟩
  else .nothing

/-- What a first byte shows at once, and what it leaves open. -/
def lossyFirst (x : UInt8) : List Char × Option Beginning :=
  match opening x.toNat with
  | .whole c => ([c], none)
  | .begins b => ([], some b)
  | .nothing => ([replacement], none)

/-- What a byte shows at once, given what the bytes before it left open, and what it leaves open. -/
def lossyNext : Option Beginning → UInt8 → List Char × Option Beginning
  | none, x => lossyFirst x
  | some b, x =>
      if b.low ≤ x.toNat ∧ x.toNat ≤ b.high then
        let bits := b.bits * 64 + (x.toNat - 0x80)
        match b.after with
        | 0 => ([Char.ofNat bits], none)
        | k + 1 => ([], some ⟨bits, 0x80, 0xBF, k⟩)
      else
        let (cs, left) := lossyFirst x
        (replacement :: cs, left)

/-- The characters shown for bytes, given what the bytes before them left open. -/
def lossyChars : Option Beginning → Bytes → List Char
  | none, [] => []
  | some _, [] => [replacement]
  | left, x :: rest =>
      let (cs, left) := lossyNext left x
      cs ++ lossyChars left rest

/-- The text shown for bytes. -/
def lossy (b : Bytes) : String :=
  String.ofList (lossyChars none b)

end BearerAuth.Text
