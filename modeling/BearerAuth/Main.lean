import BearerAuth.KeyPair.Generation
import BearerAuth.Keygen

/-!
# The command `genkey`

Runs the key generator on the file system, with pairs drawn from the randomness of the system.  Log
lines go to the standard output without the time; they are filtered by the environment.
-/

namespace BearerAuth

namespace Keygen

/-- What the system says about a refused access. -/
def causeOf : IO.Error → IoCause
  | .noFileOrDirectory .. => .notFound
  | .alreadyExists .. => .alreadyExists
  | .inappropriateType .. => .notADirectory
  | .permissionDenied _ 13 _ => .permissionDenied
  | .resourceExhausted _ 28 _ => .storageFull
  | e => .other (toString e)

/-- An access to the file system. -/
def access (action : IO Unit) : IO (Except IoCause Unit) := do
  match ← action.toBaseIO with
  | .ok () => return .ok ()
  | .error e => return .error (causeOf e)

/-- The rights that a mode gives to one party, from three bits. -/
def rightsOf (bits : Nat) : IO.AccessRight :=
  { read := bits.testBit 2, write := bits.testBit 1, execution := bits.testBit 0 }

/-- Makes a file, and restricts the access to it before anything is written if it asks for less than
what a new file gets by itself. -/
def makeFile (path : String) (mode : FileMode) : IO IO.FS.Handle := do
  let file ← IO.FS.Handle.mk path .writeNew
  if mode ≠ .shared then
    IO.setAccessRights path
      { user := rightsOf (mode / 64), group := rightsOf (mode / 8), other := rightsOf mode }
  return file

/-- Writes a file, which asks for a mode only if it is new. -/
def putFile (path : String) (mode : FileMode) (content : Bytes) : IO Unit := do
  let file ← try makeFile path mode catch
    | .alreadyExists .. => IO.FS.Handle.mk path .write
    | e => throw e
  file.write content.toByteArray
  file.flush

/-- Writing to the file system. -/
def fileSystem : FileWriter IO where
  makeDirectories path := access (IO.FS.createDirAll path.display)
  write path mode content := access (putFile path.display mode content)

/-- A random number of at least so many binary digits. -/
def drawNumber (bits : Nat) : IO Nat := do
  let bytes ← IO.getRandomBytes (USize.ofNat (bits / 8 + 1))
  return Bytes.toNat bytes.toList

/-- The number of attempts to draw a pair. -/
def maxDraws : Nat := 100

/-- Draws a pair of a size. -/
def drawPair (bits : Nat) : IO (Except KeyFailure KeyPair) := do
  for _ in [0:maxDraws] do
    match KeyPair.ofRandom? bits (← drawNumber bits) (← drawNumber bits) with
    | some pair => return .ok pair
    | none => pure ()
  return .error (.internal "generating RSA key: no primes found")

end Keygen

end BearerAuth

open BearerAuth in
/-- Runs the key generator. -/
def main (arguments : List String) : IO UInt32 := do
  let filter := LogFilter.ofSetting (← IO.getEnv "RUST_LOG")
  let answer ←
    Keygen.run Keygen.fileSystem Keygen.drawPair (Keygen.Command.ofArguments arguments)
  for line in answer.output .brief filter do
    IO.println line
  for line in answer.complaint do
    IO.eprintln line
  return answer.status.code.toUInt32
