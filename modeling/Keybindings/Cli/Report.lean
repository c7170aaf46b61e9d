import Keybindings.Diagnostic
import Keybindings.Json.Printer

/-!
Diagnostics as JSON objects for other tools, with places counted from 1.
-/

namespace Keybindings.Cli.Report

/-- The member with the remarks on a diagnostic, if there are any. -/
def remarks (d : Diagnostic) : List (String × Json.Value) :=
  if d.related = [] then []
  else [("related", .array (d.related.map fun r => .string r.message))]

def count (n : Nat) : Json.Value :=
  .number (.int n)

def ofDiagnostic (ix : LineIndex) (d : Diagnostic) : Json.Value :=
  let range := d.range ix
  .object ([
    ("code", .string d.kind.code),
    ("severity", .string d.severity.name),
    ("message", .string d.message),
    ("source", .string d.source),
    ("line", count (range.start.line + 1)),
    ("column", count (range.start.character + 1)),
    ("endLine", count (range.stop.line + 1)),
    ("endColumn", count (range.stop.character + 1))] ++ remarks d)

def ofDiagnostics (t : Text) (ds : List Diagnostic) : Json.Value :=
  .array (ds.map (ofDiagnostic (LineIndex.ofText t)))

end Keybindings.Cli.Report
