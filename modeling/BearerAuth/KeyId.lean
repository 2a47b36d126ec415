import BearerAuth.Bytes

/-!
# Key ids

A key id names a key pair.  It comes from the headers of tokens, which anyone can write, and may
end up in a path, so only a conservative set of texts is accepted.

Main statement: `KeyId.check_eq_ok_iff` says which texts those are.
-/

namespace BearerAuth

namespace KeyId

/-- The greatest length of a key id, in bytes. -/
def maxLength : Nat := 256

/-- The first rule that a text breaks. -/
inductive Fault where
  | empty
  | tooLong
  | unprintable
  | pathComponent
deriving DecidableEq, Repr

/-- The wording of a fault. -/
def Fault.message : Fault → String
  | empty => "kid is empty"
  | tooLong => "kid exceeds 256 bytes"
  | unprintable => "kid contains non-printable or non-ASCII characters"
  | pathComponent => "kid contains a path component"

/-- A printable ASCII character other than the space. -/
def isGraphic (c : Char) : Bool :=
  0x21 ≤ c.toNat && c.toNat ≤ 0x7E

/-- Two dots stand next to each other. -/
def hasDoubleDot : List Char → Bool
  | '.' :: '.' :: _ => true
  | _ :: rest => hasDoubleDot rest
  | [] => false

/-- The characters can lead a path out of its directory. -/
def leavesDirectory (cs : List Char) : Bool :=
  cs.any (fun c => c = '/' || c = '\\') || hasDoubleDot cs

/-- Checks a key id. -/
def check (kid : String) : Except Fault Unit :=
  if kid.isEmpty then .error .empty
  else if kid.utf8ByteSize > maxLength then .error .tooLong
  else if ¬ kid.toList.all isGraphic then .error .unprintable
  else if leavesDirectory kid.toList then .error .pathComponent
  else .ok ()

/-- The text is a key id. -/
def Valid (kid : String) : Prop :=
  check kid = .ok ()

instance (kid : String) : Decidable (Valid kid) :=
  match h : check kid with
  | .ok () => isTrue h
  | .error f => isFalse fun h' : check kid = .ok () => by simp [h] at h'

theorem check_eq_ok_iff (kid : String) :
    check kid = .ok () ↔
      kid ≠ "" ∧ kid.utf8ByteSize ≤ maxLength ∧ (∀ c ∈ kid.toList, isGraphic c) ∧
        leavesDirectory kid.toList = false := by
  unfold check
  by_cases h₁ : kid = ""
  · simp [h₁]
  by_cases h₂ : maxLength < kid.utf8ByteSize
  · have hle : ¬ kid.utf8ByteSize ≤ maxLength := Nat.not_le.2 h₂
    simp [h₁, h₂, hle]
  by_cases h₃ : kid.toList.all isGraphic
  · rw [List.all_eq_true] at h₃
    cases h₄ : leavesDirectory kid.toList
    · simp [h₁, h₂, Nat.not_lt.1 h₂]
    · simp [h₁, h₂]
      split <;> simp
  · rw [List.all_eq_true] at h₃
    simp [h₁, h₂, h₃]

end KeyId

end BearerAuth
