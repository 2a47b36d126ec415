import BearerAuth.FileTree
import BearerAuth.FileTree.IoCause

/-!
# Walking along a path

A path is followed step by step from the root or from the working directory.  Every step but the
last has to end at a directory.  A link on the way is replaced by the path that it holds, which is
followed from the directory of the link; only so many links are followed in one walk, so that a
walk along a cycle of links ends.

A walk may end where nothing stands yet, provided that the last step leaves a directory.
-/

namespace BearerAuth

namespace FileTree

/-- The number of links that are followed in one walk. -/
def maxLinks : Nat := 40

/-- The greatest length of a file name, in bytes. -/
def maxNameLength : Nat := 255

/-- Where a walk ends. -/
structure Destination where
  place : Location
  /-- The path ends with a slash, so that only a directory can be meant. -/
  asDirectory : Bool
deriving DecidableEq, Repr

/-- Follows steps from a directory.  What to do at a link is a parameter: it gets the path that the
link holds, the directory of the link, and the steps behind the link. -/
def walkFrom (t : FileTree) (asDirectory : Bool)
    (follow : Path → Location → List Path.Step → Except IoCause Destination) :
    List Path.Step → Location → Except IoCause Destination
  | [], place => .ok ⟨place, asDirectory⟩
  | .here :: rest, place => walkFrom t asDirectory follow rest place
  | .up :: rest, place => walkFrom t asDirectory follow rest place.dropLast
  | .entry name :: rest, place =>
      if name.length > maxNameLength then .error .nameTooLong
      else
        match t.at? (place ++ [name]) with
        | none => if rest.isEmpty then .ok ⟨place ++ [name], asDirectory⟩ else .error .notFound
        | some (.file ..) =>
            if rest.isEmpty then .ok ⟨place ++ [name], asDirectory⟩ else .error .notADirectory
        | some (.directory _) => walkFrom t asDirectory follow rest (place ++ [name])
        | some (.link target) => follow target place rest

/-- The place where following a path starts. -/
def startOf (path : Path) (place : Location) : Location :=
  if path.isAbsolute then [] else place

/-- Follows steps from a directory; the number bounds the links that may still be followed. -/
def walkSteps (t : FileTree) :
    Nat → Bool → List Path.Step → Location → Except IoCause Destination
  | 0, asDirectory => walkFrom t asDirectory fun _ _ _ => .error .linkLoop
  | links + 1, asDirectory =>
      walkFrom t asDirectory fun target place rest =>
        if target.isEmpty then .error .notFound
        else
          walkSteps t links (asDirectory || (rest.isEmpty && target.endsWithSlash))
            (target.steps ++ rest) (startOf target place)

/-- The byte that no path may hold. -/
def nul : UInt8 := 0

/-- Follows a path. -/
def walk (t : FileTree) (path : Path) : Except IoCause Destination :=
  if nul ∈ path then .error .invalidInput
  else if path.isEmpty then .error .notFound
  else
    walkSteps t maxLinks path.endsWithSlash path.steps (startOf path t.workingDirectory)

end FileTree

end BearerAuth
