import BearerAuth.FileTree.Access

/-!
# Hosts of file trees

Programs get at a tree through a host.  It may refuse an access for reasons of its own, such as
rights that are missing or a disk that is full, and it withholds permissions from the files that are
made.  Writing may break off when the file is open already: then its old content is gone, and it
holds the bytes that were written until then.

What a host does may depend on the state of the tree.  Files, links and directories have no owners
here, and directories have no modes; whom the rights are denied to is for the host to say.
-/

namespace BearerAuth

/-- What a program wants of what a path leads to. -/
inductive Access where
  /-- The content of a file. -/
  | read
  /-- The entries of a directory. -/
  | list
  /-- Whether there is a directory. -/
  | inspect
  /-- A new directory. -/
  | makeDirectory
  /-- A file that is open for writing. -/
  | write
deriving DecidableEq, Repr

/-- The mode without the permissions that are withheld. -/
def FileMode.without (mode withheld : FileMode) : FileMode :=
  mode ^^^ (mode &&& withheld)

/-- What lets programs at a tree. -/
structure Host where
  /-- The permissions that new files do not get. -/
  withheld : FileMode
  /-- Why an access is refused, whatever the path leads to. -/
  refusal? : FileTree → Access → Path → Option IoCause
  /-- How many bytes of a content are written to an open file before the writing breaks
  off, and why it does. -/
  breakOff? : FileTree → Path → Bytes → Option (Nat × IoCause)
  /-- What is written in full does not break off. -/
  breakOff?_lt : ∀ {t path content n cause},
    breakOff? t path content = some (n, cause) → n < content.length

namespace Host

/-- A host that refuses nothing and writes everything.  As is usual, it withholds from new files
that anyone but their owner may write them. -/
def lenient : Host where
  withheld := 0o022
  refusal? _ _ _ := none
  breakOff? _ _ _ := none
  breakOff?_lt h := by cases h

variable (h : Host)

/-! ### Directories -/

/-- A path is seen to lead to a directory. -/
def isDirectory (t : FileTree) (path : Path) : Bool :=
  (h.refusal? t .inspect path).isNone && t.isDirectory path

/-- Makes a directory. -/
def makeDirectory (t : FileTree) (path : Path) : Except IoCause FileTree :=
  match h.refusal? t .makeDirectory path with
  | some cause => .error cause
  | none => t.makeDirectory path

/-- Makes a directory or finds it made. -/
def makeDirectoryIfMissing (t : FileTree) (path : Path) : Except IoCause Unit × FileTree :=
  match h.makeDirectory t path with
  | .ok t => (.ok (), t)
  | .error cause => (if h.isDirectory t path then .ok () else .error cause, t)

/-- Makes a directory with the ones above it, whose number is bounded. -/
def makeDirectoriesWithin : Nat → FileTree → Path → Except IoCause Unit × FileTree
  | 0, t, path => h.makeDirectoryIfMissing t path
  | above + 1, t, path =>
      if path.isEmpty then (.ok (), t)
      else
        match h.makeDirectory t path, path.parent? with
        | .error .notFound, some parent =>
            match makeDirectoriesWithin above t parent with
            | (.ok (), t) => h.makeDirectoryIfMissing t path
            | refused => refused
        | _, _ => h.makeDirectoryIfMissing t path

/-- Makes a directory with the ones above it, as far as they are missing.  Those that were made stay
if a later one is refused. -/
def makeDirectories (t : FileTree) (path : Path) : Except IoCause Unit × FileTree :=
  h.makeDirectoriesWithin (path.components.length + 1) t path

/-! ### Files -/

/-- Writes a file: opens it, which makes it or takes its content away, and writes the content to
it as far as this goes. -/
def write (t : FileTree) (path : Path) (mode : FileMode) (content : Bytes) :
    Except IoCause Unit × FileTree :=
  match h.refusal? t .write path with
  | some cause => (.error cause, t)
  | none =>
      let (result, written) :=
        match h.breakOff? t path content with
        | none => (.ok (), content)
        | some (n, cause) => (.error cause, content.take n)
      match t.write path (mode.without h.withheld) written with
      | .error cause => (.error cause, t)
      | .ok t => (result, t)

end Host

/-- A tree and the host that lets a program at it. -/
structure FileSystem where
  host : Host
  tree : FileTree

/-- Where nothing is said about the host, it is lenient. -/
instance : Coe FileTree FileSystem where
  coe t := ⟨.lenient, t⟩

namespace FileSystem

variable (s : FileSystem)

/-- Why an access is refused in the present state of the tree. -/
def refusal? (access : Access) (path : Path) : Option IoCause :=
  s.host.refusal? s.tree access path

/-- The content of a file. -/
def read (path : Path) : Except IoCause Bytes :=
  match s.refusal? .read path with
  | some cause => .error cause
  | none => s.tree.read path

/-- The entries of a directory. -/
def list (path : Path) : Except IoCause Entries :=
  match s.refusal? .list path with
  | some cause => .error cause
  | none => s.tree.list path

@[simp] theorem read_coe (t : FileTree) (path : Path) :
    (t : FileSystem).read path = t.read path := rfl

@[simp] theorem list_coe (t : FileTree) (path : Path) :
    (t : FileSystem).list path = t.list path := rfl

end FileSystem

/-- Makes a directory with the ones above it, as far as they are missing, where the host is
lenient. -/
def FileTree.makeDirectories (t : FileTree) (path : Path) : Except IoCause Unit × FileTree :=
  Host.lenient.makeDirectories t path

end BearerAuth
