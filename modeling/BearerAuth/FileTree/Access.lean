import BearerAuth.FileTree.Walk

/-!
# Access to file trees

Reading, listing and writing by path.  What is decided here is decided by the tree alone: modes
refuse no access, and a file gets all that is written to it.  An access that is refused changes
nothing.  What else can go wrong is up to the host of the tree.
-/

namespace BearerAuth

namespace FileTree

/-- The node to which a path leads. -/
def resolve (t : FileTree) (path : Path) : Except IoCause Node := do
  let destination ← t.walk path
  match t.at? destination.place with
  | none => .error .notFound
  | some (.link _) => .error .linkLoop
  | some (.directory entries) => .ok (.directory entries)
  | some (.file mode content) =>
      if destination.asDirectory then .error .notADirectory else .ok (.file mode content)

/-- The path leads to a directory. -/
def isDirectory (t : FileTree) (path : Path) : Bool :=
  match t.resolve path with
  | .ok node => node.isDirectory
  | .error _ => false

/-- The content of a file. -/
def read (t : FileTree) (path : Path) : Except IoCause Bytes := do
  match ← t.resolve path with
  | .file _ content => .ok content
  | _ => .error .isADirectory

/-- The entries of a directory. -/
def list (t : FileTree) (path : Path) : Except IoCause Entries := do
  match ← t.resolve path with
  | .directory entries => .ok entries
  | _ => .error .notADirectory

/-- Gives a file a content, and makes the file if it is not there.  One that is there keeps its
mode, whatever mode a new one would get. -/
def write (t : FileTree) (path : Path) (mode : FileMode) (content : Bytes) :
    Except IoCause FileTree := do
  let destination ← t.walk path
  if destination.asDirectory then .error .isADirectory
  else
    match t.at? destination.place with
    | none => .ok (t.put destination.place (.file mode content))
    | some (.file old _) => .ok (t.put destination.place (.file old content))
    | some (.directory _) => .error .isADirectory
    | some (.link _) => .error .linkLoop

/-- The directory in which the last step of a path is taken, and the name that it leads to, if it
leads to a name.  A link in the place of the last step is not followed. -/
def walkToParent (t : FileTree) (path : Path) : Except IoCause (Location × Option FileName) := do
  if nul ∈ path then .error .invalidInput
  else if path.isEmpty then .error .notFound
  else
    let steps := path.steps
    let parent ← t.walkSteps maxLinks false steps.dropLast (startOf path t.workingDirectory)
    match t.at? parent.place with
    | some (.directory _) =>
        match steps.getLast? with
        | some (.entry name) =>
            if name.length > maxNameLength then .error .nameTooLong
            else .ok (parent.place, some name)
        | _ => .ok (parent.place, none)
    | some _ => .error .notADirectory
    | none => .error .notFound

/-- Puts a node where nothing stands yet. -/
def create (t : FileTree) (path : Path) (node : Node) : Except IoCause FileTree := do
  match ← t.walkToParent path with
  | (parent, some name) =>
      match t.at? (parent ++ [name]) with
      | none => .ok (t.put (parent ++ [name]) node)
      | some _ => .error .alreadyExists
  | (_, none) => .error .alreadyExists

/-- Makes a directory. -/
def makeDirectory (t : FileTree) (path : Path) : Except IoCause FileTree :=
  t.create path (.directory .nil)

/-- Makes a link that holds a path. -/
def makeLink (t : FileTree) (path target : Path) : Except IoCause FileTree :=
  t.create path (.link target)

end FileTree

end BearerAuth
