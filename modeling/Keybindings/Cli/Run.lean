import Keybindings.Cli.Details
import Keybindings.Cli.Editing
import Keybindings.Cli.Verbosity
import Keybindings.Cli.Viewing
import Keybindings.Settings.Load

/-!
A whole run of the program, from the words of the command line to what it writes.
-/

namespace Keybindings.Cli

structure RunResult where
  exitCode : Nat
  out : Text
  err : Text
  tree : FileTree

def Command.file? : Command → Option String
  | .check file _ => file
  | .fix file _ => file
  | .clean file => file
  | .commands _ | .config => none

/-- The files that a command may look at besides those in the extension directories: the one that
it works on, which comes first, and the command snapshot. -/
def Context.files (c : Context) (command : Option Command) : List String :=
  (c.path (command.bind Command.file?)).toOption.toList ++ c.settings.commandsFile.toList

/-- Carries out a command.  Without one the keybindings file is checked. -/
def Context.execute (c : Context) (command : Option Command) : Outcome :=
  match command.getD (.check none .text) with
  | .check file format => c.check file format
  | .fix file all => c.fix file all
  | .clean file => c.clean file
  | .commands list => c.showCommands list
  | .config => c.showSettings

namespace Options

def settingsPath (o : Options) (env : Environment) : String :=
  o.config.getD (Settings.defaultPath env)

def override (o : Options) (s : Settings) : Settings :=
  { s with
    commandsFile := o.commands <|> s.commandsFile
    extensionsDirs := if o.extensionsDirs = [] then s.extensionsDirs else o.extensionsDirs }

def context (o : Options) (env : Environment) (tree : FileTree) :
    Except SettingsError Context := do
  let path := o.settingsPath env
  let s ← Settings.load tree env path
  return ⟨o.override s, path, o.dryRun, o.force, env, tree⟩

def verbosity (o : Options) : Verbosity :=
  .ofFlags o.verbose o.quiet

end Options

/-- The lines about a failure: what the user is told and, in a verbose run, the details. -/
def failureLines (v : Verbosity) (e : RunError) : List String :=
  plainStyle.error e.userMessage ::
    if v.isShown .verbose then [Details.ofRun e] else []

def joinLines (lines : List String) : Text :=
  lines.flatMap fun l => l.toList ++ ['\n']

namespace Outcome

def result (o : Outcome) (v : Verbosity) : RunResult where
  exitCode := (o.failure.map RunError.exitCode).getD 0
  out := joinLines o.out
  err := joinLines (o.err ++ o.failure.toList.flatMap (failureLines v))
  tree := o.tree

end Outcome

/-- Does what a command line asks for.  The verbosity counts from when the settings are loaded. -/
def Invocation.run (i : Invocation) (env : Environment) (tree : FileTree) : RunResult :=
  match i.options.context env tree with
  | .error e => Outcome.result ⟨[], [], some (.ofSettings e), tree⟩ .normal
  | .ok c => (c.execute i.command).result i.options.verbosity

def run (words : List String) (env : Environment) (tree : FileTree) :
    Except UsageError RunResult :=
  (Invocation.read words).map (·.run env tree)

end Keybindings.Cli
