import Keybindings.Cli.RunError
import Keybindings.Cli.Style
import Keybindings.Engine
import Keybindings.Files.Listing

/-!
What the commands of one run have in common.
-/

namespace Keybindings.Cli

structure Context where
  settings : Settings
  settingsPath : String
  dryRun : Bool
  /-- Whether to edit even if the editor's own commands are not known. -/
  force : Bool
  env : Environment
  tree : FileTree

/-- What a command leaves behind: the lines that it wrote for the user, the files, and why it
failed, if it did. -/
structure Outcome where
  out : List String := []
  err : List String := []
  failure : Option RunError := none
  tree : FileTree

/-- Lines are not coloured, because nothing is known about where they go. -/
def plainStyle : Style := ⟨false⟩

namespace Context

/-- The file to work on: the one that is named, or else the one of the settings. -/
def path (c : Context) (file : Option String) : Except RunError String :=
  match file <|> c.settings.keybindings? c.env with
  | some path => .ok path
  | none =>
    .error (.settings "Could not determine the keybindings file; pass FILE or set keybindings_path")

def document (c : Context) (file : Option String) : Except RunError OpenDocument := do
  let path ← c.path file
  match c.tree.readText path with
  | .ok t => return .ofPath path t
  | .error e => throw (.invalidArgument s!"Cannot read {path}: {e.message}")

def listing (c : Context) : Listing :=
  ⟨c.settings.commandsFile, c.settings.extensionsDirs⟩

def source (c : Context) : Source :=
  c.listing.source c.tree

def engine (c : Context) (path : String) : EngineSetup where
  workingDir := c.tree.workingPath
  target := some path
  label := c.settings.diagnosticSource

def leaves (c : Context) (out err : List String) (failure : Option RunError) : Outcome :=
  ⟨out, err, failure, c.tree⟩

def fails (c : Context) (e : RunError) : Outcome :=
  c.leaves [] [] (some e)

end Context

end Keybindings.Cli
