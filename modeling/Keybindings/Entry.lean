import Keybindings.Json.Reader

/-!
Entries of a keybindings document.

Three properties of an entry are interpreted; every other one is carried along unchanged.  A
property that is null counts as absent.
-/

namespace Keybindings

structure Entry where
  key : Option String := none
  command : Option String := none
  when : Option String := none
  extra : Json.Members := []
  deriving Repr, Inhabited

/-- The command that a reference names: one leading minus, which removes a binding instead of
adding one, is taken away. -/
def commandId (ref : String) : String :=
  match ref.toList with
  | '-' :: id => String.ofList id
  | _ => ref

namespace Entry

def fieldNames : List String := ["command", "key", "when"]

def commandRef? (e : Entry) : Option String :=
  e.command.filter (· ≠ "")

def fieldWanted : String := "a string"

def field (members : Json.Members) (name : String) : Except Json.Cause (Option String) :=
  match members.find? name with
  | none | some .null => .ok none
  | some (.string s) => .ok (some s)
  | some v => .error (.wrongType v fieldWanted)

/-- The entry with the given members.  The first interpreted property of a wrong type, in the order
of the names, is reported. -/
def ofMembers (members : Json.Members) : Except Json.Cause Entry := do
  let command ← field members "command"
  let key ← field members "key"
  let when ← field members "when"
  return ⟨key, command, when, members.filter fun m => !fieldNames.contains m.1⟩

/-- A property that is left out when absent. -/
def writtenField (name : String) : Option String → List (String × Json.Value)
  | some s => [(name, .string s)]
  | none => []

def members (e : Entry) : List (String × Json.Value) :=
  writtenField "key" e.key ++ writtenField "command" e.command ++ writtenField "when" e.when ++
    e.extra

def toValue (e : Entry) : Json.Value :=
  .object e.members

def entryWanted : String := "struct KeybindingEntry"

/-- Refuses a text that holds a single entry at its first character that cannot be part of one. -/
def watch (s : Json.State) : Option Json.Cause :=
  match s.frames, s.mode with
  | [], .done (.object _) => none
  | [], .done v => some (.wrongType v entryWanted)
  | [.array _], _ => some (.wrongType (.array []) entryWanted)
  | [.object members key], .colon =>
    if fieldNames.contains key ∧ (members.find? key).isSome then some (.duplicateField key)
    else none
  | [.object members key], .after =>
    if fieldNames.contains key then
      match field members key with
      | .ok _ => none
      | .error cause => some cause
    else none
  | [.array _, .object _ key], _ =>
    if fieldNames.contains key then some (.wrongType (.array []) fieldWanted) else none
  | [.object _ _, .object _ key], _ =>
    if fieldNames.contains key then some (.wrongType (.object []) fieldWanted) else none
  | _, _ => none

/-- The entry that a text holds.  Of several faults the one that comes first in the text is
reported, and an interpreted property may occur only once. -/
def read (t : Text) : Except Json.Cause Entry :=
  match Json.readWatched watch t with
  | .error f => .error f.cause
  | .ok (.object members) => ofMembers members
  | .ok v => .error (.wrongType v entryWanted)

end Entry

end Keybindings
