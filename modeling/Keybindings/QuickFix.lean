import Keybindings.Diagnostic
import Keybindings.Text.Blank
import Keybindings.Text.Edit

/-!
Quick fixes: deleting one entry together with a comma that separated it.
-/

namespace Keybindings

namespace QuickFix

/-- The end of white space and a comma right after a span, on the line where the span ends. -/
def trailingComma? (t : Text) (ix : LineIndex) (s : Span) : Option Nat := do
  let lineEnd ← ix.lineEnd? t (ix.lineOf s.stop)
  let after ← Text.slice? t s.stop (max lineEnd s.stop)
  match Text.trimStart after with
  | ',' :: _ => return s.stop + (Text.size after - Text.size (Text.trimStart after)) + 1
  | _ => none

/-- The comma that ends the line before the one that a span opens. -/
def previousLineComma? (t : Text) (ix : LineIndex) (s : Span) : Option Nat := do
  let line := ix.lineOf s.start
  if line = 0 then none
  let lineStart ← ix.lineStart? line
  let before ← Text.slice? t lineStart s.start
  if !Text.isAllBlank before then none
  let previous ← ix.lineText? t (line - 1)
  if (Text.trimEnd previous).getLast? ≠ some ',' then none
  let upToComma ← Text.beforeLast ',' previous
  return (← ix.lineStart? (line - 1)) + Text.size upToComma

/-- The comma before a span, on the line where the span starts. -/
def leadingComma? (t : Text) (ix : LineIndex) (s : Span) : Option Nat := do
  let lineStart ← ix.lineStart? (ix.lineOf s.start)
  let before ← Text.slice? t lineStart s.start
  let trimmed := Text.trimEnd before
  if trimmed.getLast? ≠ some ',' then none
  return lineStart + Text.size trimmed - 1

/-- What to delete so that the object at a span leaves the array: the object and, if one is found,
the comma after it, the one at the end of the previous line or the one before it. -/
def planDeletion (t : Text) (s : Span) : Span :=
  let ix := LineIndex.ofText t
  match trailingComma? t ix s with
  | some stop => ⟨s.start, stop⟩
  | none =>
    match previousLineComma? t ix s with
    | some start => ⟨start, s.stop⟩
    | none =>
      match leadingComma? t ix s with
      | some start => ⟨start, s.stop⟩
      | none => s

end QuickFix

structure CodeAction where
  uri : String
  edit : Edit
  diagnostic : Diagnostic
  deriving DecidableEq, Repr

def CodeAction.title : String := "Delete this keybinding"

def codeActions (t : Text) (uri : String) (ds : List Diagnostic) : List CodeAction :=
  (ds.filter (·.kind.isFixable)).map fun d =>
    ⟨uri, .delete (QuickFix.planDeletion t d.span), d⟩

end Keybindings
