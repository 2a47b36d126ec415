import BearerAuth.Pem
import BearerAuth.Text.Blank

/-!
# A lenient reading of key texts

The reading that signing and verification use: the first block counts wherever it stands, lines may
have any length, and what surrounds the block is ignored.
-/

namespace BearerAuth.Pem

/-- Looks for a mark and yields what stands in front of it and behind it; `found` counts the bytes
of the mark that were just matched, and `acc` holds what was passed, in reverse.  After a mismatch
the search goes on behind the byte that did not match, so a hyphen too many in front of a mark
hides it. -/
def findMark (mark : Bytes) : Bytes → Nat → Bytes → Option (Bytes × Bytes)
  | [], _, _ => none
  | x :: rest, found, acc =>
      let found := if mark[found]? = some x then found + 1 else 0
      if found = mark.length then some (((x :: acc).drop mark.length).reverse, rest)
      else findMark mark rest found (x :: acc)

/-- What stands in front of a mark and behind it. -/
def cutAt (mark : String) (input : Bytes) : Option (Bytes × Bytes) :=
  findMark (utf8 mark) input 0 []

/-- Drops spaces, tabs and line ends from the front. -/
def skipSpace (input : Bytes) : Bytes :=
  input.dropWhile fun b => b = 0x20 || b = 0x09 || b = lineFeed || b = carriageReturn

/-- The lines of a text, without their line feeds. -/
def lines (cs : List Char) : List (List Char) :=
  let pieces := cs.splitOn '\n'
  if pieces.getLast? = some [] then pieces.dropLast else pieces

/-- Headers and data of a body: an empty line divides them. -/
def divide (body : Bytes) : Bytes × Bytes :=
  ((cutAt "\n\n" body) <|> (cutAt "\r\n\r\n" body)).getD ([], body)

/-- Reads the first block of a text. -/
def Block.decodeLenient? (input : Bytes) : Option Block := do
  let (_, input) ← cutAt beginMark input
  let (label, input) ← cutAt closingMark input
  let (body, input) ← cutAt endMark (skipSpace input)
  let (endLabel, _) ← cutAt closingMark input
  let (headers, data) := divide body
  let label ← Bytes.text? label
  let endLabel ← Bytes.text? endLabel
  guard (¬ label.isEmpty ∧ label = endLabel)
  let data ← Bytes.text? data
  let content ← Base64.Alphabet.standard.decodePadded
    ((lines data.toList).flatMap Text.trimEnd)
  let headers ← Bytes.text? headers
  guard ((lines headers.toList).all fun line => line.contains ':')
  return ⟨label, content⟩

end BearerAuth.Pem
