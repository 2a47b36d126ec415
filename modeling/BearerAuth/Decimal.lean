/-!
# Decimal numerals

Writing natural numbers and integers in decimal, and the value of a list of digits.  The writer
recurses on a bound that it computes from the number itself, so it evaluates in the kernel.
-/

namespace BearerAuth.Decimal

/-- The number that a list of digits spells, most significant digit first. -/
def ofDigits (ds : List Nat) : Nat :=
  ds.foldl (fun n d => n * 10 + d) 0

/-- A power of ten. -/
def tenTo (k : Nat) : Nat := Nat.pow 10 k

/-- Puts the last `fuel` digits of `n` in front of `acc`, stopping after the leading one. -/
def digitsAux : Nat → Nat → List Nat → List Nat
  | 0, _, acc => acc
  | fuel + 1, n, acc =>
      if n < 10 then n :: acc else digitsAux fuel (n / 10) (n % 10 :: acc)

/-- The digits of a number, without leading zeros; zero has one digit. -/
def digits (n : Nat) : List Nat :=
  digitsAux (n.log2 + 1) n []

/-- The character of a digit. -/
def digitChar (d : Nat) : Char :=
  Char.ofNat (48 + d)

/-- A number in decimal. -/
def ofNat (n : Nat) : String :=
  String.ofList ((digits n).map digitChar)

/-- An integer in decimal, with a minus sign in front of a negative one. -/
def ofInt : Int → String
  | .ofNat n => ofNat n
  | .negSucc n => "-" ++ ofNat (n + 1)

end BearerAuth.Decimal
