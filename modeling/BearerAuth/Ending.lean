/-!
# Steps that break off

Words of 64 bits are added and subtracted with a check.  Where the result is no word, the step
of the program breaks off, and with it the steps around it: whoever waits for an answer gets
neither a value nor a failure.

This is the program as it is built for development and for tests.  Built without the check it would
go on with the result modulo `2 ^ 64`; nothing here is about such a build.
-/

namespace BearerAuth

/-- Why a step breaks off. -/
inductive Overflow where
  | subtraction
  | addition
deriving DecidableEq, Repr

/-- What is said of a step that breaks off. -/
def Overflow.message : Overflow → String
  | subtraction => "attempt to subtract with overflow"
  | addition => "attempt to add with overflow"

/-- How a step ends that may break off. -/
inductive Ending (ε α : Type) where
  | ok (value : α)
  | error (failure : ε)
  | interrupted (reason : Overflow)
deriving DecidableEq, Repr

/-- The value, if there is one. -/
def Ending.toOption {ε α : Type} : Ending ε α → Option α
  | ok value => some value
  | error _ | interrupted _ => none

/-! ### Words -/

namespace Word

/-- The difference of words. -/
def sub (a b : UInt64) : Except Overflow UInt64 :=
  if b ≤ a then .ok (a - b) else .error .subtraction

/-- The sum of words. -/
def add (a b : UInt64) : Except Overflow UInt64 :=
  if a.toNat + b.toNat < 0x10000000000000000 then .ok (a + b) else .error .addition

theorem sub_of_le {a b : UInt64} (h : b ≤ a) : sub a b = .ok (a - b) := if_pos h

theorem sub_of_lt {a b : UInt64} (h : a < b) : sub a b = .error .subtraction :=
  if_neg (UInt64.not_le.mpr h)

theorem add_of_lt {a b : UInt64} (h : a.toNat + b.toNat < 0x10000000000000000) :
    add a b = .ok (a + b) :=
  if_pos h

theorem add_of_le {a b : UInt64} (h : 0x10000000000000000 ≤ a.toNat + b.toNat) :
    add a b = .error .addition :=
  if_neg (Nat.not_lt.mpr h)

end Word

end BearerAuth
