import Keybindings.Diagnostic
import Keybindings.Document
import Keybindings.Location
import Keybindings.Registry

/-!
Checking the entries of a document against a registry.

Diagnostics come in entry order, each on the span of its entry.  A text that is no keybindings
document has a single diagnostic on all of it.
-/

namespace Keybindings

def defaultLabel : String := "keymap-cleaner"

namespace Validation

def missingCommand (label : String) (span : Span) : Diagnostic where
  span := span
  severity := .error
  kind := .missingCommand
  message := "Missing \"command\" property in keybinding"
  source := label

def unknownCommand (label : String) (span : Span) (ref : String) : Diagnostic where
  span := span
  severity := .warning
  kind := .unknownCommand
  message := s!"Unknown command: \"{ref}\". This keybinding will not work."
  source := label
  related := [⟨span, "Command \"" ++ commandId ref ++ "\" is not registered"⟩]

def invalidJson (label : String) (t : Text) (e : ParseError) : Diagnostic where
  span := .whole t
  severity := .error
  kind := .invalidJson
  message := "Invalid JSON: " ++ e.message
  source := label

def problem? (label : String) (r : Registry) (e : Entry) (span : Span) : Option Diagnostic :=
  match e.commandRef? with
  | none => some (missingCommand label span)
  | some ref => if r.contains (commandId ref) then none else some (unknownCommand label span ref)

/-- The diagnostics of the entries of `t`.  Entries that are not found in the text are passed
over. -/
def entries (label : String) (t : Text) (es : List Entry) (r : Registry) : List Diagnostic :=
  (es.zip (locateEntries t es)).filterMap fun (e, span) => span.bind (problem? label r e)

def document (label : String) (t : Text) (r : Registry) : List Diagnostic :=
  match Document.parse t with
  | .ok es => entries label t es r
  | .error e => [invalidJson label t e]

end Validation

end Keybindings
