import Keybindings.Path

/-!
The environment of a run and the directories that follow from it.
-/

namespace Keybindings

structure Environment where
  definitions : List (String × String)
  accountHome : Option String := none
  deriving DecidableEq, Repr

namespace Environment

def definition? (t : Text) : Option (String × String) :=
  (Text.cutFirst ['='] t).map fun (name, value) => (String.ofList name, String.ofList value)

/-- The variables of a block of definitions, each ended by a NUL character. -/
def ofBlock (t : Text) : List (String × String) :=
  (Text.pieces (Char.ofNat 0) t).filterMap definition?

/-- The number of the user in a report on a process, which has a line with a label and tabs. -/
def user? (status : Text) : Option Text :=
  (Text.pieces '\n' status).findSome? fun line =>
    match Text.pieces '\t' line with
    | label :: user :: _ => if label = "Uid:".toList then some user else none
    | _ => none

/-- The home directory of a user in a list of accounts, which has a line of seven fields for each,
with colons between them. -/
def accountHome? (accounts user : Text) : Option String :=
  (Text.pieces '\n' accounts).findSome? fun line =>
    match Text.pieces ':' line with
    | [_, _, number, _, _, home, _] => if number = user then some (String.ofList home) else none
    | _ => none

def get? (env : Environment) (name : String) : Option String :=
  (env.definitions.find? (·.1 == name)).map (·.2)

/-- The user's home directory: the one in the variables, or else the one on record. -/
def home? (env : Environment) : Option String :=
  (env.get? "HOME").filter (· ≠ "") <|> env.accountHome.filter (· ≠ "")

def configDir? (env : Environment) : Option String :=
  match (env.get? "XDG_CONFIG_HOME").filter fun dir => Path.isAbsolute dir.toList with
  | some dir => some dir
  | none => env.home?.map (Path.join · ".config")

end Environment

end Keybindings
