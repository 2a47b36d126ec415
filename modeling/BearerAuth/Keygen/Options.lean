import BearerAuth.KeyPair

/-!
# The options of the key generator

The command line is read from left to right.  Every option may be given once, as two arguments or
as one with an equals sign between name and value; only in the second form may a value start with a
hyphen.  The first argument that is out of place ends the reading, and so does a request for help.
-/

namespace BearerAuth

namespace Keygen

/-- What a run of the key generator is asked for. -/
structure Options where
  bits : Nat
  /-- The directory to which the files are written. -/
  out : String
  /-- The key id after which the files are named. -/
  kid : Option String
deriving DecidableEq, Repr

/-- The options as far as they are given. -/
structure GivenOptions where
  bits : Option Nat
  out : Option String
  kid : Option String
deriving DecidableEq, Repr

/-- Nothing given. -/
def GivenOptions.none : GivenOptions := ⟨.none, .none, .none⟩

/-- The options, where those that are not given have their defaults. -/
def GivenOptions.complete (g : GivenOptions) : Options :=
  ⟨g.bits.getD KeyPair.defaultBits, g.out.getD ".", g.kid⟩

/-- Why a command line cannot be used. -/
inductive UsageFault where
  | unexpectedArgument (argument : String)
  | missingValue (option : String)
  | invalidValue (option value : String)
  | repeated (option : String)
deriving DecidableEq, Repr

/-- The wording of a fault. -/
def UsageFault.message : UsageFault → String
  | unexpectedArgument argument => "unexpected argument '" ++ argument ++ "' found"
  | missingValue option => "a value is required for '--" ++ option ++ "' but none was supplied"
  | invalidValue option value => "invalid value '" ++ value ++ "' for '--" ++ option ++ "'"
  | repeated option => "the argument '--" ++ option ++ "' cannot be used multiple times"

/-- What a command line asks for. -/
inductive Command where
  | help
  | generate (options : Options)
  | misused (fault : UsageFault)
deriving DecidableEq, Repr

/-- The form of a call. -/
def usage : String := "Usage: genkey [OPTIONS]"

/-- What a request for help is answered with, line by line. -/
def helpLines : List String :=
  ["Generate an RSA key pair for token signing", "", usage, "", "Options:",
    "      --bits <BITS>  Modulus size in bits [default: " ++ Decimal.ofNat KeyPair.defaultBits ++
      "]",
    "      --out <OUT>    Directory the PEM files are written to [default: .]",
    "      --kid <KID>    Key id used to name the files",
    "  -h, --help         Print help"]

/-- The greatest size that can be asked for. -/
def maxBits : Nat := 0xFFFFFFFFFFFFFFFF

/-- A number in decimal digits, which a plus sign may precede. -/
def readBits? (value : String) : Option Nat := do
  let digits := match value.toList with
    | '+' :: digits => digits
    | digits => digits
  if digits.isEmpty ∨ ¬ digits.all Char.isDigit then none
  else
    let n := Decimal.ofDigits (digits.map fun d => d.toNat - '0'.toNat)
    if n ≤ maxBits then some n else none

/-- Takes the value of an option. -/
def GivenOptions.give (g : GivenOptions) (option value : String) :
    Except UsageFault GivenOptions :=
  match option with
  | "bits" =>
      if g.bits.isSome then .error (.repeated option)
      else
        match readBits? value with
        | some n => .ok { g with bits := some n }
        | .none => .error (.invalidValue option value)
  | "out" =>
      if g.out.isSome then .error (.repeated option)
      else if value.isEmpty then .error (.invalidValue option value)
      else .ok { g with out := some value }
  | "kid" =>
      if g.kid.isSome then .error (.repeated option) else .ok { g with kid := some value }
  | _ => .error (.unexpectedArgument ("--" ++ option))

/-- The names of the options that take a value. -/
def optionNames : List String := ["bits", "out", "kid"]

/-- An argument taken by itself. -/
inductive Word where
  | help
  /-- Two hyphens, behind which no option is recognised. -/
  | separator
  /-- An option whose value is the next argument. -/
  | option (name : String)
  /-- An option with its value. -/
  | assignment (name value : String)
  | unknown
  | plain
deriving DecidableEq, Repr

/-- What an argument is, taken by itself. -/
def Word.ofArgument (argument : String) : Word :=
  match argument.toList with
  | ['-', '-'] => .separator
  | '-' :: '-' :: long =>
      let name := String.ofList (long.takeWhile (· ≠ '='))
      match long.dropWhile (· ≠ '=') with
      | [] =>
          if name = "help" then .help
          else if name ∈ optionNames then .option name
          else .unknown
      | _ :: value =>
          if name ∈ optionNames then .assignment name (String.ofList value) else .unknown
  | '-' :: 'h' :: _ => .help
  | '-' :: _ :: _ => .unknown
  | _ => .plain

/-- Reads arguments on top of those that are read already. -/
def readFrom : List String → GivenOptions → Command
  | [], g => .generate g.complete
  | argument :: rest, g =>
      match Word.ofArgument argument with
      | .help => .help
      | .unknown | .plain => .misused (.unexpectedArgument argument)
      | .separator =>
          match rest with
          | [] => .generate g.complete
          | extra :: _ => .misused (.unexpectedArgument extra)
      | .assignment name value =>
          match g.give name value with
          | .ok g => readFrom rest g
          | .error fault => .misused fault
      | .option name =>
          match rest with
          | [] => .misused (.missingValue name)
          | value :: rest =>
              if Word.ofArgument value = .plain then
                match g.give name value with
                | .ok g => readFrom rest g
                | .error fault => .misused fault
              else .misused (.missingValue name)

/-- Reads a command line. -/
def Command.ofArguments (arguments : List String) : Command :=
  readFrom arguments GivenOptions.none

end Keygen

end BearerAuth
