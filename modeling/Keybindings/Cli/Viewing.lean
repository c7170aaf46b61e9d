import Keybindings.Cli.Arguments
import Keybindings.Cli.Context
import Keybindings.Cli.Report

/-!
The commands that only look: at a keybindings file, at the known commands and at the settings.
-/

namespace Keybindings.Cli.Context

def incompleteWarning : String :=
  plainStyle.warning
    ("No editor command list was read (pass --commands FILE); results are incomplete and " ++
      "built-in commands are reported as unknown")

def sourceWarnings (c : Context) : List String :=
  match c.source.registry with
  | .ok r => if r.hostListed then [] else [incompleteWarning]
  | .error _ => []

def textReport (d : OpenDocument) (ds : List Diagnostic) : List String :=
  let ix := LineIndex.ofText d.text
  ds.map (plainStyle.diagnostic d.path · ix) ++
    if ds = [] then [plainStyle.success (d.path ++ ": no problems found")]
    else ["", plainStyle.info
      "Run 'keymap-cleaner fix --all' or 'keymap-cleaner clean' to remove them"]

def jsonReport (d : OpenDocument) (ds : List Diagnostic) : List String :=
  [String.ofList (Report.ofDiagnostics d.text ds).pretty]

def check (c : Context) (file : Option String) (format : ReportFormat) : Outcome :=
  match c.document file with
  | .error e => c.fails e
  | .ok d =>
    match (c.engine d.path).update {} d c.source with
    | (_, .skipped) => c.leaves [] c.sourceWarnings (some (.registry .noSources))
    | (s, _) =>
      let ds := (s.diagnostics? d.uri).getD []
      let lines := match format with
        | .text => textReport d ds
        | .json => jsonReport d ds
      c.leaves lines c.sourceWarnings (if ds = [] then none else some (.problemsFound ds.length))

def summary (c : Context) (r : Registry) : List String :=
  [plainStyle.header "Known commands",
    plainStyle.keyValue "total" (toString r.size),
    plainStyle.keyValue "editor commands"
      (if r.hostListed then "yes" else "no (extension commands only)")] ++
    (c.settings.commandsFile.map (plainStyle.keyValue "snapshot")).toList ++
    c.settings.extensionsDirs.map (plainStyle.keyValue "extensions")

/-- Shows the known commands, all of them or how many there are. -/
def showCommands (c : Context) (list : Bool) : Outcome :=
  match c.source.registry with
  | .error e => c.fails (.registry e)
  | .ok r => c.leaves (if list then r.ids else c.summary r) [] none

def showSettings (c : Context) : Outcome :=
  c.leaves
    [String.ofList c.settings.toToml,
      plainStyle.info
        ("Keybindings file: " ++ (c.settings.keybindings? c.env).getD "<unresolved>"),
      plainStyle.info ("Config file: " ++ c.settingsPath)]
    [] none

end Keybindings.Cli.Context
