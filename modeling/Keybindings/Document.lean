import Keybindings.Entry
import Keybindings.Json.Printer

/-!
Reading a keybindings document: an array whose elements are all objects.
-/

namespace Keybindings

inductive ParseError where
  | invalidJson (cause : Json.Cause) (line column : Nat)
  | notAnArray (kind : String)
  | entryNotObject (index : Nat) (kind : String)
  | invalidEntry (index : Nat) (cause : Json.Cause)
  deriving Repr

namespace ParseError

def faultMessage (cause : Json.Cause) (line column : Nat) : String :=
  cause.message ++ s!" at line {line} column {column}"

def message : ParseError → String
  | invalidJson cause line column => faultMessage cause line column
  | notAnArray kind => s!"expected a top-level array of keybinding objects, found {kind}"
  | entryNotObject index kind => s!"keybinding at index {index} is not an object (found {kind})"
  | invalidEntry index cause => s!"keybinding at index {index}: " ++ cause.message

end ParseError

namespace Document

/-- The entries of the elements from the given index on.  The first element that is none is
reported. -/
def entriesFrom (index : Nat) : List Json.Value → Except ParseError (List Entry)
  | [] => .ok []
  | .object members :: vs => do
    let e ← (Entry.ofMembers members).mapError (.invalidEntry index)
    let es ← entriesFrom (index + 1) vs
    return e :: es
  | v :: _ => .error (.entryNotObject index v.kind)

def ofValue : Json.Value → Except ParseError (List Entry)
  | .array items => entriesFrom 0 items
  | v => .error (.notAnArray v.kind)

def parse (t : Text) : Except ParseError (List Entry) :=
  match Json.read t with
  | .ok v => ofValue v
  | .error f =>
    let (line, column) := f.place t
    .error (.invalidJson f.cause line column)

def toValue (entries : List Entry) : Json.Value :=
  .array (entries.map Entry.toValue)

/-- The text of a document with the given entries, on many lines. -/
def render (entries : List Entry) : Text :=
  (toValue entries).pretty

end Document

end Keybindings
