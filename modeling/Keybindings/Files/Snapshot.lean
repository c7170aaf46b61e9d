import Keybindings.Json.Reader

/-!
Command snapshots: a JSON file with the command lists of an editor.
-/

namespace Keybindings

inductive Snapshot where
  /-- One list for both purposes. -/
  | flat (ids : List String)
  | lists (active all : List String)
  deriving DecidableEq, Repr

inductive SnapshotError where
  | malformed (fault : Json.Fault)
  /-- The text is JSON, but neither a list of texts nor an object with such lists. -/
  | mismatch
  deriving Repr

def SnapshotError.message (t : Text) : SnapshotError → String
  | malformed fault => fault.message t
  | mismatch => "data did not match any variant of untagged enum CommandSnapshot"

namespace Snapshot

def active : Snapshot → List String
  | flat ids => ids
  | lists active _ => active

def all : Snapshot → List String
  | flat ids => ids
  | lists _ all => all

def listNames : List String := ["active", "all"]

def watch (s : Json.State) : Option Json.Cause :=
  match s.frames, s.mode with
  | [.object members key], .colon =>
    if listNames.contains key ∧ (members.find? key).isSome then some (.duplicateField key)
    else none
  | _, _ => none

/-- The list of an object, which is empty if it is not given. -/
def list? (members : Json.Members) (name : String) : Option (List String) :=
  match members.find? name with
  | none => some []
  | some (.array items) => items.mapM Json.Value.string?
  | some _ => none

def ofValue? : Json.Value → Option Snapshot
  | .array items => (items.mapM Json.Value.string?).map flat
  | .object members => do return lists (← list? members "active") (← list? members "all")
  | _ => none

/-- A text without anything that follows its value. -/
def front (t : Text) : Text :=
  match Json.read t with
  | .error ⟨.trailingCharacters, offset⟩ => ((Text.splitAt? (offset - 1) t).map (·.1)).getD t
  | _ => t

/-- The snapshot that a text holds.  What follows the value is looked at last. -/
def read (t : Text) : Except SnapshotError Snapshot := do
  let v ← (Json.read (front t)).mapError .malformed
  match Json.readWatched watch (front t), ofValue? v with
  | .ok _, some s =>
    let _ ← (Json.read t).mapError .malformed
    return s
  | _, _ => throw .mismatch

end Snapshot

end Keybindings
