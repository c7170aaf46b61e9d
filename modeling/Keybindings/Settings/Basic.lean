import Keybindings.Environment
import Keybindings.Settings.TomlPrinter
import Keybindings.Text.Blank
import Keybindings.Validation

/-!
The settings of a run.
-/

namespace Keybindings

inductive SettingsError where
  | parse (reason : String)
  | validation (reason : String)
  | serialization (reason : String)
  deriving DecidableEq, Repr

def SettingsError.message : SettingsError → String
  | parse reason => s!"Parse error: {reason}"
  | validation reason => s!"Validation error: {reason}"
  | serialization reason => s!"Serialization error: {reason}"

structure Settings where
  /-- The editor's folder below the user's settings directory. -/
  appFolder : String
  /-- The keybindings file, in place of the one that follows from the folder. -/
  keybindingsPath : Option String
  /-- The file with the editor's command lists. -/
  commandsFile : Option String
  /-- The directories with the installed extensions. -/
  extensionsDirs : List String
  diagnosticSource : String
  logLevel : String
  deriving DecidableEq, Repr

namespace Settings

/-- Where extensions are installed unless settings say otherwise. -/
def defaultExtensionsDirs (env : Environment) : List String :=
  match env.home? with
  | some home => [Path.join (Path.join home ".vscode") "extensions"]
  | none => []

def defaults (env : Environment) : Settings where
  appFolder := "Code"
  keybindingsPath := none
  commandsFile := none
  extensionsDirs := defaultExtensionsDirs env
  diagnosticSource := defaultLabel
  logLevel := "info"

def defaultPath (env : Environment) : String :=
  Path.join (Path.join (env.configDir?.getD ".") "keymap-cleaner") "config.toml"

def defaultKeybindings? (env : Environment) (appFolder : String) : Option String :=
  env.configDir?.map fun dir =>
    Path.join (Path.join (Path.join dir appFolder) "User") "keybindings.json"

def keybindings? (s : Settings) (env : Environment) : Option String :=
  match s.keybindingsPath with
  | some p => some p
  | none => defaultKeybindings? env s.appFolder

/-- Refuses settings in which a needed text is blank. -/
def validate (s : Settings) : Except SettingsError Unit :=
  if Text.isAllBlank s.appFolder.toList then
    .error (.validation "app_folder must not be empty")
  else if Text.isAllBlank s.diagnosticSource.toList then
    .error (.validation "diagnostic_source must not be empty")
  else .ok ()

def pathLine (key : String) : Option String → Text
  | some p => Toml.printLine key (Toml.printString p)
  | none => []

def toToml (s : Settings) : Text :=
  Toml.printLine "app_folder" (Toml.printString s.appFolder) ++
    pathLine "keybindings_path" s.keybindingsPath ++
    pathLine "commands_file" s.commandsFile ++
    Toml.printLine "extensions_dirs" (Toml.printStrings s.extensionsDirs) ++
    Toml.printLine "diagnostic_source" (Toml.printString s.diagnosticSource) ++
    Toml.printLine "log_level" (Toml.printString s.logLevel)

end Settings

end Keybindings
