import Keybindings.Text.LineIndex

/-!
Diagnostics: problems found in a keybindings document.
-/

namespace Keybindings

inductive Severity where
  | error
  | warning
  deriving DecidableEq, Repr

def Severity.name : Severity → String
  | error => "error"
  | warning => "warning"

inductive DiagnosticKind where
  /-- The entry has no command, or an empty one. -/
  | missingCommand
  /-- The entry's command is not registered. -/
  | unknownCommand
  /-- The document is no array of objects. -/
  | invalidJson
  deriving DecidableEq, Repr

namespace DiagnosticKind

def code : DiagnosticKind → String
  | missingCommand => "missing-command"
  | unknownCommand => "unknown-command"
  | invalidJson => "invalid-json"

/-- Whether deleting the entry resolves the problem. -/
def isFixable : DiagnosticKind → Bool
  | missingCommand | unknownCommand => true
  | invalidJson => false

end DiagnosticKind

structure Related where
  span : Span
  message : String
  deriving DecidableEq, Repr

structure Diagnostic where
  span : Span
  severity : Severity
  kind : DiagnosticKind
  message : String
  /-- The label of the tool that found the problem. -/
  source : String
  related : List Related := []
  deriving DecidableEq, Repr

def Diagnostic.range (d : Diagnostic) (ix : LineIndex) : Range :=
  ix.range d.span

end Keybindings
