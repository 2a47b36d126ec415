import BearerAuth.Keygen.LogFilter
import BearerAuth.Keygen.Options
import BearerAuth.KeyPair.Files

/-!
# The key generator

A program that draws a key pair and writes it to a directory.  With a key id the files are named
after it, as a directory of keys needs it: the private half ends in `.pem` and the public half in
`.pub`.

How a pair is drawn is a parameter, and so is what the files are written to: the program is the same
over a tree of this library and over a file system.
-/

namespace BearerAuth

namespace Keygen

/-- The name of the program, under which it logs. -/
def target : String := "genkey"

/-- The names of the private and of the public file. -/
def fileNames (kid : Option String) : Path × Path :=
  match kid with
  | some kid => (Path.ofText (kid ++ ".pem"), Path.ofText (kid ++ ".pub"))
  | none => (Path.ofText "private.pem", Path.ofText "public.pem")

/-- What a run reports. -/
inductive Report where
  | written (bits : Nat) (privatePath publicPath : Path)
  | failed (cause : KeyFailure)
deriving DecidableEq, Repr

namespace Report

/-- The level at which a report is logged. -/
def level : Report → Level
  | written .. => .info
  | failed _ => .error

/-- A report as a log line, without its time. -/
def line (w : Wording) (r : Report) : String :=
  r.level.name ++ " " ++ target ++ ": " ++
    match r with
    | written bits privatePath publicPath =>
        "private and public key files generated bits=" ++ Decimal.ofNat bits ++
          " private=" ++ privatePath.display ++ " public=" ++ publicPath.display
    | failed cause => "key generation failed error=" ++ cause.message w

end Report

/-- How a run ends. -/
inductive Status where
  | success
  | failure
  | misuse
deriving DecidableEq, Repr

/-- The exit code of a run. -/
def Status.code : Status → UInt8
  | success => 0
  | failure => 1
  | misuse => 2

/-- What a program of this kind says on the way out. -/
inductive Answer where
  | help
  | reported (report : Report)
  | misused (fault : UsageFault)
deriving DecidableEq, Repr

/-- How a run ends that answers so. -/
def Answer.status : Answer → Status
  | help | reported (.written ..) => .success
  | reported (.failed _) => .failure
  | misused _ => .misuse

/-- The log line of an answer, if it has one and the filter shows it. -/
def Answer.logged? (filter : LogFilter) : Answer → Option Report
  | reported report => if filter.shows target report.level then some report else none
  | help | misused _ => none

/-- What an answer writes to the standard output, line by line. -/
def Answer.output (w : Wording) (filter : LogFilter) (a : Answer) : List String :=
  match a with
  | help => helpLines
  | a => ((a.logged? filter).map (Report.line w)).toList

/-- What an answer writes to the standard error, line by line. -/
def Answer.complaint : Answer → List String
  | misused fault =>
      ["error: " ++ fault.message, "", usage, "", "For more information, try '--help'."]
  | help | reported _ => []

variable {m : Type → Type} [Monad m]

/-- Draws a pair of that size and writes it. -/
def generate (w : FileWriter m) (draw : Nat → m (Except KeyFailure KeyPair)) (o : Options) :
    ExceptT KeyFailure m (Path × Path) := do
  match KeyPair.sizeFault? o.bits with
  | some e => throw e
  | none =>
      let pair ← ExceptT.mk (draw o.bits)
      let (privateName, publicName) := fileNames o.kid
      pair.writeFiles w (Path.ofText o.out) privateName publicName

/-- Carries out a command. -/
def run (w : FileWriter m) (draw : Nat → m (Except KeyFailure KeyPair)) (c : Command) :
    m Answer := do
  match c with
  | .help => return .help
  | .misused fault => return .misused fault
  | .generate o =>
      match ← (generate w draw o).run with
      | .ok (privatePath, publicPath) =>
          return .reported (.written o.bits privatePath publicPath)
      | .error e => return .reported (.failed e)

/-- Carries out a command on a tree, with a given pair. -/
def runOnTree (t : FileTree) (pair : KeyPair) (c : Command) : Answer × FileTree :=
  (run FileTree.writer (fun _ => pure (.ok pair)) c).run t

end Keygen

end BearerAuth
