import Keybindings.EngineError

/-!
How a run can fail, and what the user is told about it.
-/

namespace Keybindings.Cli

inductive RunError where
  | invalidArgument (reason : String)
  | io (reason : String)
  | settings (reason : String)
  | registry (e : SourceError)
  | host (e : HostError)
  /-- An edit was asked for, but nothing is known about the editor's own commands. -/
  | incompleteRegistry
  | engine (e : EngineError)
  /-- The document was checked and has problems. -/
  | problemsFound (count : Nat)
  | internal (reason : String)
  deriving Repr

namespace RunError

def ofSettings (e : SettingsError) : RunError :=
  settings e.message

def message : RunError → String
  | invalidArgument reason => "Invalid argument: " ++ reason
  | io reason => "IO error: " ++ reason
  | settings reason => "Configuration error: " ++ reason
  | registry e => "Registry error: " ++ e.message
  | host e => "Host error: " ++ e.message
  | incompleteRegistry => "No editor command list was read; built-in commands are unknown"
  | engine e => e.message
  | problemsFound count => s!"{count} problem(s) found"
  | internal reason => "Internal error: " ++ reason

def noCommandsMessage (e : SourceError) : String :=
  "Could not collect known commands: " ++ e.message ++
    "\n\nPass --commands FILE or --extensions-dir DIR."

def userMessage : RunError → String
  | invalidArgument reason =>
    "Invalid argument: " ++ reason ++ "\n\nRun 'keymap-cleaner --help' for usage information."
  | io reason => "File operation failed: " ++ reason
  | settings reason =>
    "Configuration error: " ++ reason ++
      "\n\nRun 'keymap-cleaner config' to check your configuration."
  | registry e => noCommandsMessage e
  | host e => "Could not update the keybindings file: " ++ e.message
  | incompleteRegistry =>
    "No editor command list was read, so every built-in command would look unknown and its " ++
      "keybindings would be deleted.\n\nPass --commands FILE with a snapshot of the editor's " ++
      "commands, or --force to edit anyway."
  | engine (.parse e) =>
    "The keybindings file is not valid JSON: " ++ e.message ++
      "\n\nFix the syntax error before cleaning."
  | engine (.registry e) => noCommandsMessage e
  | engine e => e.message
  | problemsFound count => s!"{count} problem(s) found"
  | internal reason => "Internal error: " ++ reason ++ "\n\nPlease report this issue."

def exitCode : RunError → Nat
  | problemsFound _ => 2
  | _ => 1

end RunError

end Keybindings.Cli
