import Keybindings.Files.Tree
import Keybindings.Json.Reader
import Keybindings.Settings.Basic
import Keybindings.Settings.KeyPath
import Keybindings.Settings.TomlReader

/-!
Loading settings: a settings file, if there is one, and over it the environment.

Keys are compared in lower case, and unknown ones are passed over.  A table at the end of a key is
put together from its parts, so that it is not reported with the file it comes from.
-/

namespace Keybindings.Settings

inductive Format where
  | toml
  | json
  deriving DecidableEq, Repr

def Format.ofExtension (e : Text) : Option Format :=
  if e = "toml".toList then some .toml
  else if e = "json".toList then some .json
  else none

/-- The last name in a path, if the path does not end in a step to the parent. -/
def fileName? (path : Text) : Option Text :=
  match (Path.components path).getLast? with
  | some (.name s) => some s
  | _ => none

/-- What follows the last dot of a file name; a dot at its start does not count. -/
def fileExtension (name : Text) : Text :=
  match Text.beforeLast '.' name with
  | none | some [] => []
  | some stem => name.drop (stem.length + 1)

/-- A reversed path without the slashes and single dots behind its last name. -/
def dropTail : Text → Text
  | '/' :: t => dropTail t
  | '.' :: '/' :: t => dropTail t
  | t => t

def withEnding (path : Text) (ending : String) : Text :=
  match fileName? path with
  | none => path
  | some _ => (dropTail path.reverse).reverse ++ ending.toList

/-- The files that a path may stand for: itself, and itself with the ending of each format. -/
def candidates (path : String) : List String :=
  path :: [".toml", ".json"].map fun ending => String.ofList (withEnding path.toList ending)

def findFile (tree : FileTree) (path : String) : Option (String × Format) := do
  let file ← (candidates path).find? tree.isFile
  let format ← Format.ofExtension (fileExtension ((fileName? file.toList).getD []))
  return (file, format)

/-- A file as named in reports: by the way to it from the working directory. -/
def fileLabel (tree : FileTree) (path : String) : String :=
  let here : List Component := .root :: tree.workingDir.map .name
  let absolute := Path.joinText (Path.ofComponents here) path.toList
  String.ofList (Path.ofComponents (Path.wayFrom here (Path.components absolute)))

mutual

/-- A JSON value as a setting.  Integers beyond 63 bits become doubles. -/
def ofJson : Json.Value → Setting
  | .null => .scalar .unit
  | .bool b => .scalar (.boolean b)
  | .number (.int i) =>
    .scalar (if i < 0x8000000000000000 then .integer i else .real (.ofDecimal false i.natAbs 0))
  | .number (.float x) => .scalar (.real (.finite x))
  | .string s => .scalar (.text s)
  | .array vs => .list (ofItems vs)
  | .object ms => .table (ofMembers ms)

def ofItems : List Json.Value → List Setting
  | [] => []
  | v :: vs => ofJson v :: ofItems vs

def ofMembers : List (String × Json.Value) → List (String × Setting)
  | [] => []
  | (k, v) :: ms => (k, ofJson v) :: ofMembers ms

end

def readValue (format : Format) (label : String) (t : Text) : Except SettingsError Setting :=
  match format with
  | .toml =>
    match Toml.read t with
    | some v => .ok v
    | none => .error (.parse s!"malformed TOML in {label}")
  | .json =>
    match Json.read t with
    | .ok v => .ok (ofJson v)
    | .error f => .error (.parse (f.message t ++ " in " ++ label))

def noTable (found label : String) : SettingsError :=
  .parse ("invalid type: " ++ found ++ s!", expected a map in {label} in {label}")

def readFile (format : Format) (label : String) (t : Text) :
    Except SettingsError (List (String × Setting)) := do
  match ← readValue format label t with
  | .table es => return es
  | .list _ => throw (noTable "sequence" label)
  | .scalar v => throw (noTable v.inPlaceOfTable label)

/-- What the names of the environment variables that hold settings begin with, in lower case. -/
def variableStart : String := "keymap_cleaner_"

def ofEnvironment (env : Environment) : List (String × Sourced) :=
  env.definitions.filterMap fun (name, value) =>
    match variableStart.toList.isPrefixOf? (lowerString name).toList with
    | some key => some (String.ofList key, .scalar (.text value) none)
    | none => none

/-- The settings in a file, or none if there is no file that can be read. -/
def ofFile (tree : FileTree) (path : String) : Except SettingsError (List (String × Sourced)) :=
  match findFile tree path with
  | none => .ok []
  | some (file, format) =>
    match tree.readText file with
    | .error _ => .ok []
    | .ok t =>
      let label := fileLabel tree file
      (readFile format label t).map (Sourced.ofEntries (some label))

def notText (found key : String) (file : Option String) : SettingsError :=
  let place := match file with
    | some label => " in " ++ label
    | none => ""
  .parse (s!"invalid type: {found}, expected a string for key `{key}`" ++ place)

def text (key : String) : Sourced → Except SettingsError String
  | .scalar v file => v.asText.mapError (notText · key file)
  | .list _ file => .error (notText "sequence" key file)
  | .table _ file => .error (notText "map" key file)

def textField (d : Dictionary Sourced) (key default : String) : Except SettingsError String :=
  match d.find? key with
  | none => .ok default
  | some v => text key v

def pathField (d : Dictionary Sourced) (key : String) : Except SettingsError (Option String) :=
  match d.find? key with
  | none | some (.scalar .unit _) => .ok none
  | some v => (text key v).map some

def textItems (key : String) (index : Nat) : List Sourced → Except SettingsError (List String)
  | [] => .ok []
  | v :: vs => do
    let s ← text s!"{key}[{index}]" v
    return s :: (← textItems key (index + 1) vs)

def notList (found : String) : SettingsError :=
  .parse ("invalid type: " ++ found ++ ", expected a sequence")

def listField (d : Dictionary Sourced) (key : String) (default : List String) :
    Except SettingsError (List String) :=
  match d.find? key with
  | none => .ok default
  | some (.list items _) => textItems key 0 items
  | some (.table _ _) => .error (notList "map")
  | some (.scalar v _) => .error (notList v.inPlaceOfList)

def ofDictionary (env : Environment) (d : Dictionary Sourced) : Except SettingsError Settings := do
  let base := defaults env
  return {
    appFolder := ← textField d "app_folder" base.appFolder
    keybindingsPath := ← pathField d "keybindings_path"
    commandsFile := ← pathField d "commands_file"
    extensionsDirs := ← listField d "extensions_dirs" base.extensionsDirs
    diagnosticSource := ← textField d "diagnostic_source" base.diagnosticSource
    logLevel := ← textField d "log_level" base.logLevel }

def load (tree : FileTree) (env : Environment) (path : String) : Except SettingsError Settings := do
  let inFile ← ofFile tree path
  let s ← ofDictionary env (KeyPath.setAll (inFile ++ ofEnvironment env))
  validate s
  return s

end Keybindings.Settings
