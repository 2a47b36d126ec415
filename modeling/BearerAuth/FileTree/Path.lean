import BearerAuth.Text.Lossy

/-!
# Paths

A path is the text by which a program names a place in a file tree: names separated by slashes.
Names need not be valid UTF-8.  Two paths with different texts can have the same steps; the text is
kept because messages show it.
-/

namespace BearerAuth

/-- The name of a place in a file tree, as it is written. -/
abbrev Path := Bytes

/-- A file name: bytes without slashes. -/
abbrev FileName := Bytes

namespace Path

/-- The byte that separates names. -/
abbrev slash : UInt8 := ascii '/'

/-- The path of a text. -/
def ofText (s : String) : Path := utf8 s

/-- A path as messages show it. -/
def display (p : Path) : String := Text.lossy p

/-- The path starts at the root. -/
def isAbsolute (p : Path) : Bool :=
  p.head? = some slash

/-- The path ends with a slash. -/
def endsWithSlash (p : Path) : Bool :=
  p.getLast? = some slash

/-- The path of something named relative to a place. -/
def join (base name : Path) : Path :=
  if isAbsolute name then name
  else if base.isEmpty || endsWithSlash base then base ++ name
  else base ++ slash :: name

/-- Cuts bytes at slashes. -/
def cut (p : Path) : List Bytes :=
  p.splitOn slash

/-- What a path says at one place. -/
inductive Step where
  /-- Stay. -/
  | here
  /-- Go to the parent. -/
  | up
  /-- Go to the entry of that name. -/
  | entry (name : FileName)
deriving DecidableEq, Repr

/-- The step that a piece between slashes stands for; an empty piece stands for none. -/
def Step.ofPiece? (piece : Bytes) : Option Step :=
  if piece.isEmpty then none
  else if piece = utf8 "." then some .here
  else if piece = utf8 ".." then some .up
  else some (.entry piece)

/-- All that a path says, from left to right. -/
def steps (p : Path) : List Step :=
  (cut p).filterMap Step.ofPiece?

/-- The steps that name a place: staying counts only at the start of a relative path. -/
def components (p : Path) : List Step :=
  match steps p with
  | [] => []
  | .here :: rest =>
      if isAbsolute p then rest.filter (· ≠ .here) else .here :: rest.filter (· ≠ .here)
  | rest => rest.filter (· ≠ .here)

/-- A step as it is written. -/
def Step.toBytes : Step → Bytes
  | .here => utf8 "."
  | .up => utf8 ".."
  | .entry name => name

/-- The path with the given steps. -/
def ofSteps (absolute : Bool) (steps : List Step) : Path :=
  (if absolute then [slash] else []) ++ [slash].intercalate (steps.map Step.toBytes)

/-- The path without its last component, unless it has none. -/
def parent? (p : Path) : Option Path :=
  let cs := components p
  if cs.isEmpty then none else some (ofSteps (isAbsolute p) cs.dropLast)

end Path

namespace FileName

/-- A name in front of and behind its last dot, if it has one that is not its first byte. -/
def splitExtension? (name : FileName) : Option (Bytes × Bytes) :=
  let tail := (name.reverse.takeWhile (· ≠ ascii '.')).reverse
  let stem := name.take (name.length - tail.length - 1)
  if tail.length = name.length || stem.isEmpty then none else some (stem, tail)

/-- What follows the last dot. -/
def extension? (name : FileName) : Option Bytes :=
  (splitExtension? name).map (·.2)

/-- What stands in front of the last dot, or the whole name. -/
def stem (name : FileName) : Bytes :=
  match splitExtension? name with
  | some (stem, _) => stem
  | none => name

end FileName

end BearerAuth
