import BearerAuth.Base64

/-!
# Text form of keys

A key file holds base64 between two lines that name what it is.  The strict reading takes only what
the writer could have written, apart from text in front of the block and the choice of line ends.
-/

namespace BearerAuth.Pem

/-- What the first line starts with. -/
abbrev beginMark : String := "-----BEGIN "

/-- What the last line starts with. -/
abbrev endMark : String := "-----END "

/-- What the first and the last line end with. -/
abbrev closingMark : String := "-----"

/-- The greatest length of a line. -/
abbrev lineLength : Nat := 64

/-- A labelled block. -/
structure Block where
  label : String
  content : Bytes
deriving DecidableEq, Repr

/-! ### Writing -/

/-- Ends every line of at most `lineLength` characters with a line feed; `acc` holds the text
before in reverse, and `room` the characters for which the line has room. -/
def wrap : Nat → List Char → List Char → List Char
  | room, [], acc => if room = lineLength then acc.reverse else ('\n' :: acc).reverse
  | 0, c :: rest, acc => wrap (lineLength - 1) rest (c :: '\n' :: acc)
  | room + 1, c :: rest, acc => wrap room rest (c :: acc)

/-- The text of a block. -/
def Block.encode (b : Block) : String :=
  beginMark ++ b.label ++ closingMark ++ "\n" ++
    String.ofList (wrap lineLength (Base64.Alphabet.standard.encodePadded b.content) []) ++
    endMark ++ b.label ++ closingMark ++ "\n"

/-! ### Reading -/

/-- What follows the expected bytes. -/
def after? : Bytes → Bytes → Option Bytes
  | [], input => some input
  | _ :: _, [] => none
  | x :: xs, y :: ys => if x = y then after? xs ys else none

/-- What precedes the expected bytes at the end. -/
def before? (ending input : Bytes) : Option Bytes :=
  (after? ending.reverse input.reverse).map List.reverse

abbrev lineFeed : UInt8 := 10
abbrev carriageReturn : UInt8 := 13

/-- Drops a line end from the front: a line feed, a carriage return, or both in that order
reversed. -/
def dropLineEnd? : Bytes → Option Bytes
  | [] => none
  | x :: rest =>
      if x = lineFeed then some rest
      else if x = carriageReturn then
        if rest.head? = some lineFeed then some rest.tail else some rest
      else none

/-- Drops a line end from the end. -/
def dropFinalLineEnd? (input : Bytes) : Option Bytes :=
  match input.reverse with
  | [] => none
  | x :: rest =>
      if x = lineFeed then
        some (if rest.head? = some carriageReturn then rest.tail else rest).reverse
      else if x = carriageReturn then some rest.reverse
      else none

/-- The text from the first line on that opens a block.  In front of it no null byte may stand. -/
def skipPreamble : Bytes → Option Bytes
  | [] => none
  | x :: rest =>
      if x = 0 then none
      else if x = lineFeed ∧ (utf8 beginMark).isPrefixOf rest then some rest
      else skipPreamble rest

/-- A byte of a label: visible and not a hyphen, or a space or tab. -/
def isLabelByte (b : UInt8) : Bool :=
  (0x21 ≤ b && b ≤ 0x2C) || (0x2E ≤ b && b ≤ 0x7E) || b = 0x20 || b = 0x09

/-- Joins the lines of a body: every line but the last has exactly `lineLength` bytes and a line
end.  The bound is the number of bytes. -/
def joinLines : Nat → Bytes → Option Bytes
  | 0, input => if input.isEmpty then some [] else none
  | fuel + 1, input =>
      match input.drop lineLength with
      | [] => some input
      | rest => do
          let rest ← dropLineEnd? rest
          return input.take lineLength ++ (← joinLines fuel rest)

/-- Reads a text that holds a block and at most one line end behind it. -/
def Block.decode? (input : Bytes) : Option Block := do
  let input ← if (utf8 beginMark).isPrefixOf input then some input else skipPreamble input
  let input ← after? (utf8 beginMark) input
  let label := input.takeWhile isLabelByte
  let body ← after? (utf8 closingMark) (input.drop label.length)
  let body ← dropLineEnd? body
  let body := (dropFinalLineEnd? body).getD body
  let body ← before? (utf8 endMark ++ label ++ utf8 closingMark) body
  let body ← dropFinalLineEnd? body
  guard (¬ body.isEmpty)
  let text ← joinLines body.length body
  let content ← Base64.Alphabet.standard.decodePadded (text.map fun b => Char.ofNat b.toNat)
  return ⟨← Bytes.text? label, content⟩

end BearerAuth.Pem
