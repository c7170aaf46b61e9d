import Keybindings.Text.Basic

/-!
How much a run tells about itself.
-/

namespace Keybindings.Cli

inductive Verbosity where
  | quiet
  | normal
  | verbose
  deriving DecidableEq, Repr

inductive LogLevel where
  | error
  | warn
  | info
  | debug
  | trace
  deriving DecidableEq, Repr

namespace LogLevel

def all : List LogLevel := [error, warn, info, debug, trace]

def name : LogLevel → String
  | error => "ERROR"
  | warn => "WARN"
  | info => "INFO"
  | debug => "DEBUG"
  | trace => "TRACE"

/-- The number that digits stand for, behind an optional plus sign. -/
def number? (t : Text) : Option Nat :=
  let digits := match t with
    | '+' :: ds => ds
    | ds => ds
  if digits ≠ [] ∧ digits.all Char.isDigit then
    some (digits.foldl (fun n d => 10 * n + (d.toNat - '0'.toNat)) 0)
  else none

/-- The level with a name, in any mix of cases, or with a number from 1 on. -/
def ofSetting? (s : String) : Option LogLevel :=
  match number? s.toList with
  | some n => if n = 0 then none else all[n - 1]?
  | none => all.find? fun level => s.toList.map Char.toUpper = level.name.toList

end LogLevel

namespace Verbosity

/-- The verbosity that flags ask for: of both, the one for less counts. -/
def ofFlags (verbose quiet : Bool) : Verbosity :=
  if quiet then .quiet else if verbose then .verbose else .normal

def rank : Verbosity → Nat
  | quiet => 0
  | normal => 1
  | verbose => 2

def isShown (current v : Verbosity) : Bool :=
  v.rank ≤ current.rank

/-- The level of log messages.  Only a normal run looks at the settings. -/
def logLevel (v : Verbosity) (configured : String) : LogLevel :=
  match v with
  | quiet => .error
  | verbose => .debug
  | normal => (LogLevel.ofSetting? configured).getD .info

end Verbosity

end Keybindings.Cli
