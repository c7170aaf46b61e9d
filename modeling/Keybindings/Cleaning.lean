import Keybindings.Document
import Keybindings.Registry

/-!
Removing all invalid entries of a document at once.  The document is written anew, so that its
layout is lost.
-/

namespace Keybindings

def Entry.isValid (e : Entry) (r : Registry) : Bool :=
  match e.commandRef? with
  | some ref => r.resolves ref
  | none => false

def clean (es : List Entry) (r : Registry) : List Entry :=
  es.filter (·.isValid r)

/-- The cleaned text and how many entries were kept and removed. -/
structure CleanOutcome where
  text : Text
  kept : Nat
  removed : Nat
  deriving DecidableEq, Repr

def CleanOutcome.changed (o : CleanOutcome) : Bool :=
  o.removed ≠ 0

def cleanDocument (t : Text) (r : Registry) : Except ParseError CleanOutcome := do
  let es ← Document.parse t
  let kept := clean es r
  return ⟨Document.render kept, kept.length, es.length - kept.length⟩

end Keybindings
