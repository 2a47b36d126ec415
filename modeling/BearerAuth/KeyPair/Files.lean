import BearerAuth.FileTree.Host
import BearerAuth.KeyPair

/-!
# Files of key pairs

A key pair is written to a directory as two files, first the private half and then the public half.
The private file is made so that only its owner may read it; the public one asks for all permissions
that a file which is no program can have, and gets those that are not withheld.  A step that fails
ends the writing, and nothing is taken back.

Each step is taken by a `FileWriter`, which may be a host of trees of this library or the
file system of a running program.  Where a tree is named and no host, the host is lenient:
only the tree refuses, every file is written in full, and a new one gets what `0o022` leaves
of the mode that it asks for.
-/

namespace BearerAuth

/-- What can change files, in the course of some computation. -/
structure FileWriter (m : Type → Type) where
  /-- Makes a directory with the ones above it, as far as they are missing. -/
  makeDirectories : Path → m (Except IoCause Unit)
  /-- Writes a file, which asks for the mode if it is new. -/
  write : Path → FileMode → Bytes → m (Except IoCause Unit)

/-- Writing to a tree as the host lets one do it. -/
def Host.writer (h : Host) : FileWriter (StateM FileTree) where
  makeDirectories path := fun t => h.makeDirectories t path
  write path mode content := fun t => h.write t path mode content

/-- Writing to a tree where the host is lenient. -/
def FileTree.writer : FileWriter (StateM FileTree) :=
  Host.lenient.writer

/-- The mode of a new file that only its owner may read and write. -/
def FileMode.ownerOnly : FileMode := 0o600

/-- The mode that a new file asks for if all may read and write it. -/
def FileMode.shared : FileMode := 0o666

/-- The mode of a file that everyone may read and only its owner may write. -/
def FileMode.readable : FileMode := 0o644

namespace KeyPair

variable {m : Type → Type} [Monad m]

/-- A step on a path, whose refusal is a failure of the source of keys. -/
def onPath (path : Path) (step : m (Except IoCause Unit)) : ExceptT KeyFailure m Unit :=
  ExceptT.mk do return (← step).mapError (.io path)

/-- Writes both halves to a directory, and yields the paths of the two files. -/
def writeFiles (w : FileWriter m) (p : KeyPair) (directory privateName publicName : Path) :
    ExceptT KeyFailure m (Path × Path) := do
  onPath directory (w.makeDirectories directory)
  let privatePath := directory.join privateName
  let privatePem ← ExceptT.mk (pure p.privatePem)
  onPath privatePath (w.write privatePath .ownerOnly (utf8 privatePem))
  let publicPath := directory.join publicName
  onPath publicPath (w.write publicPath .shared (utf8 p.publicPem))
  return (privatePath, publicPath)

/-- Writes both halves to a directory of a tree. -/
def writeToTree (p : KeyPair) (t : FileTree) (directory privateName publicName : Path) :
    Except KeyFailure (Path × Path) × FileTree :=
  (p.writeFiles FileTree.writer directory privateName publicName).run t

end KeyPair

end BearerAuth
