import BearerAuth.Decimal
import BearerAuth.Event

/-!
# Filters of log lines

Which log lines a program writes is chosen by a text of directives, separated by commas.  A
directive is a level, or a target with a level, or a target alone, which shows all its lines.  Of
the directives whose target starts the target of a line, the one with the longest target decides;
of two for the same target, the later one.  Lines that no directive reaches are not written.
-/

namespace BearerAuth

/-- How much a directive shows. -/
inductive Verbosity where
  | off
  /-- The level, and those more important. -/
  | upTo (level : Level)
  | everything
deriving DecidableEq, Repr

namespace Verbosity

/-- How far down the levels are, from the most important one on. -/
def depth : Level → Nat
  | .error => 1
  | .warn => 2
  | .info => 3
  | .debug => 4

/-- Lines of the level are shown. -/
def shows (v : Verbosity) (level : Level) : Bool :=
  match v with
  | off => false
  | upTo limit => depth level ≤ depth limit
  | everything => true

/-- The verbosities by their numbers. -/
def ofNat? : Nat → Option Verbosity
  | 0 => some off
  | 1 => some (upTo .error)
  | 2 => some (upTo .warn)
  | 3 => some (upTo .info)
  | 4 => some (upTo .debug)
  | 5 => some everything
  | _ => none

/-- The verbosity of a name or number; letters may be of either case. -/
def ofText? (s : String) : Option Verbosity :=
  match s.toLower with
  | "off" => some off
  | "error" => some (upTo .error)
  | "warn" => some (upTo .warn)
  | "info" => some (upTo .info)
  | "debug" => some (upTo .debug)
  | "trace" => some everything
  | "" => some (upTo .error)
  | _ =>
      let cs := s.toList
      if cs.all Char.isDigit then ofNat? (Decimal.ofDigits (cs.map fun c => c.toNat - '0'.toNat))
      else none

end Verbosity

/-- A directive; without a target it reaches every line. -/
structure LogDirective where
  target : String
  verbosity : Verbosity
deriving DecidableEq, Repr

/-- The directives that choose log lines. -/
structure LogFilter where
  directives : List LogDirective
deriving DecidableEq, Repr

namespace LogDirective

/-- Reads a directive. -/
def ofText? (text : List Char) : Option LogDirective :=
  let target := text.takeWhile (· ≠ '=')
  match text.dropWhile (· ≠ '=') with
  | [] =>
      match Verbosity.ofText? (String.ofList target) with
      | some v => some ⟨"", v⟩
      | none => some ⟨String.ofList target, .everything⟩
  | _ :: level => (Verbosity.ofText? (String.ofList level)).map (⟨String.ofList target, ·⟩)

/-- The directive reaches the lines of a target. -/
def reaches (d : LogDirective) (target : String) : Bool :=
  d.target.toList.isPrefixOf target.toList

end LogDirective

namespace LogFilter

/-- The filter that is used if none is given, or none that can be read. -/
def standard : LogFilter := ⟨[⟨"", .upTo .info⟩]⟩

/-- Reads a filter. -/
def ofText? (text : String) : Option LogFilter :=
  ((text.toList.splitOn ',').filter (!·.isEmpty)).mapM LogDirective.ofText? |>.map LogFilter.mk

/-- The filter of an optional text. -/
def ofSetting (setting : Option String) : LogFilter :=
  (setting.bind ofText?).getD standard

/-- The later of two directives, unless the earlier one has the longer target. -/
def decisive (earlier : Option LogDirective) (later : LogDirective) : Option LogDirective :=
  match earlier with
  | some d => if later.target.length < d.target.length then some d else some later
  | none => some later

/-- Lines of that target and level are written. -/
def shows (f : LogFilter) (target : String) (level : Level) : Bool :=
  match (f.directives.filter (·.reaches target)).foldl decisive none with
  | some d => d.verbosity.shows level
  | none => false

end LogFilter

end BearerAuth
