import BearerAuth.Event
import BearerAuth.FileTree.Host
import BearerAuth.KeySource

/-!
# Directories of keys

A store can be loaded from a directory: every file below it whose name ends in `.pem` holds the
private key of the key id in front of that ending.  Files are loaded in the order of their paths,
compared name by name, so that the outcome does not depend on the order in which directories are
listed; of two files for one key id the later one counts, and the first file that cannot be loaded
ends the loading.  Before any file is loaded all directories are listed, and the first one that
cannot be ends the loading too; which one this is does depend on the order of listing.

Links are loaded like files and never entered.
-/

namespace BearerAuth

namespace KeyDirectory

/-- The ending of the names of key files, without its dot. -/
def extension : Bytes := utf8 "pem"

/-- The greatest size of a key file, in bytes. -/
def maxFileSize : Nat := 1048576

/-- A file of that name is a key file. -/
def isKeyFile (name : FileName) : Bool :=
  FileName.extension? name = some extension

mutual

/-- The places of the key files among the entries of a directory and below them, in the order in
which they are listed. -/
def keyFiles : Entries → List Location
  | .nil => []
  | .cons name node rest => keyFilesUnder name node ++ keyFiles rest

/-- The places of the key files that an entry stands for. -/
def keyFilesUnder (name : FileName) : Node → List Location
  | .directory entries => (keyFiles entries).map (name :: ·)
  | .file .. | .link _ => if isKeyFile name then [[name]] else []

end

mutual

/-- What is reported of the first directory below a directory that cannot be listed, in the order in
which they are listed. -/
def unlisted? (s : FileSystem) (directory : Path) : Entries → Option KeyFailure
  | .nil => none
  | .cons name node rest =>
      (unlistedUnder? s (directory.join name) node).or (unlisted? s directory rest)

/-- The same for an entry with its path. -/
def unlistedUnder? (s : FileSystem) (path : Path) : Node → Option KeyFailure
  | .directory entries =>
      match s.refusal? .list path with
      | some cause => some (.io path cause)
      | none => unlisted? s path entries
  | .file .. | .link _ => none

end

/-- The order of paths: name by name, byte by byte. -/
def precedes (a b : Location) : Bool :=
  decide (a ≤ b)

/-- The path of a place below a directory. -/
def pathBelow (directory : Path) (place : Location) : Path :=
  place.foldl Path.join directory

/-- The content of a file, as far as a key file may be long, and one byte more to tell a longer
file. -/
def readFront (s : FileSystem) (path : Path) : Except KeyFailure Bytes :=
  match s.read path with
  | .ok content => .ok (content.take (maxFileSize + 1))
  | .error cause => .error (.io path cause)

/-- The text of a key file. -/
def keyText (s : FileSystem) (kid : String) (path : Path) : Except KeyFailure String := do
  let content ← readFront s path
  match content.text? with
  | none => .error (.io path .invalidData)
  | some text =>
      if content.length > maxFileSize then
        .error (.invalidKey kid ("key file exceeds " ++ Decimal.ofNat maxFileSize ++ " bytes"))
      else .ok text

/-- The key id of the key file in a place, if its name is a text. -/
def kidOf? (place : Location) : Option String :=
  place.getLast?.bind fun name => (FileName.stem name).text?

/-- Loads key files into a store, in order. -/
def loadAll (s : FileSystem) (directory : Path) :
    List Location → KeyStore → Except KeyFailure KeyStore × List Event
  | [], store => (.ok store, [.storeLoaded])
  | place :: rest, store =>
      match kidOf? place with
      | none =>
          let (result, events) := loadAll s directory rest store
          (result, .keyFileSkipped :: events)
      | some kid =>
          match keyText s kid (pathBelow directory place) >>= store.load kid with
          | .error e => (.error e, [])
          | .ok store =>
              let (result, events) := loadAll s directory rest store
              (result, .keyLoaded :: events)

end KeyDirectory

/-- The store of the keys in a directory. -/
def KeyStore.ofDirectory (s : FileSystem) (directory : Path) :
    Except KeyFailure KeyStore × List Event :=
  match s.list directory with
  | .error cause => (.error (.io directory cause), [])
  | .ok entries =>
      match KeyDirectory.unlisted? s directory entries with
      | some e => (.error e, [])
      | none =>
          let places := (KeyDirectory.keyFiles entries).mergeSort KeyDirectory.precedes
          KeyDirectory.loadAll s directory places KeyStore.empty

end BearerAuth
