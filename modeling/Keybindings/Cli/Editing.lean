import Keybindings.Cli.Context
import Keybindings.Files.Editor

/-!
The commands that edit a keybindings file: fixing, which deletes flagged entries one by one, and
cleaning, which writes the whole file anew.

Without a command list of the editor itself all its own commands would look unknown, so nothing is
edited then unless that is forced.
-/

namespace Keybindings.Cli

structure Fixing where
  engine : EngineSetup
  source : Source
  editor : FileEditor

namespace Fixing

def document (f : Fixing) (t : Text) : OpenDocument :=
  ⟨f.editor.uri, f.editor.path, t⟩

def offers (f : Fixing) (t : Text) : Except RunError (List CodeAction) :=
  let d := f.document t
  match f.engine.update {} d f.source with
  | (_, .skipped) => .error (.registry .noSources)
  | (s, _) => .ok (f.engine.codeActions d ((s.diagnostics? d.uri).getD []))

/-- Applies the first quick fix on offer, and tells which problem it resolves.  There is nothing to
do if none is on offer. -/
def step (f : Fixing) (s : Staged) : Except RunError (Option (String × Staged)) := do
  match ← f.offers s.text with
  | [] => return none
  | action :: _ =>
    match f.editor.apply s f.editor.uri action.edit with
    | (true, s) => return some (action.diagnostic.message, s)
    | (false, _) => throw (.internal s!"Planned fix does not apply to {f.editor.path}")

def run (f : Fixing) : Nat → Staged → List String × Except RunError Staged
  | 0, s => ([], .ok s)
  | n + 1, s =>
    match f.step s with
    | .error e => ([], .error e)
    | .ok none => ([], .ok s)
    | .ok (some (message, s)) =>
      let (messages, result) := run f n s
      (message :: messages, result)

/-- How many quick fixes to apply: every one takes an entry away, so that the first offer bounds
their number. -/
def budget (f : Fixing) (all : Bool) (t : Text) : Except RunError Nat :=
  (f.offers t).map fun actions => if all then actions.length else min 1 actions.length

end Fixing

namespace Context

def forcedWarning : String :=
  plainStyle.warning
    "No editor command list was read; bindings to built-in commands will be removed"

/-- Whether files may be edited, and if so with which warnings. -/
def permission (c : Context) : Except RunError (List String) :=
  match c.source.registry with
  | .error e => .error (.engine (.registry e))
  | .ok r =>
    if r.hostListed then .ok []
    else if c.force then .ok [forcedWarning]
    else .error .incompleteRegistry

def editor (c : Context) (d : OpenDocument) : FileEditor :=
  ⟨d.path, d.uri, c.dryRun⟩

def fixing (c : Context) (d : OpenDocument) : Fixing :=
  ⟨c.engine d.path, c.source, c.editor d⟩

def fixSummary (c : Context) (path : String) (count : Nat) (t : Text) : List String :=
  if c.dryRun then
    [String.ofList t, plainStyle.info s!"Dry run: {count} fix(es) not written"]
  else [plainStyle.success s!"Applied {count} fix(es) to {path}"]

def fixLine (message : String) : String :=
  Style.listItem ("Deleted: " ++ message)

def fixDocument (c : Context) (d : OpenDocument) (all : Bool) (warnings : List String) : Outcome :=
  match (c.fixing d).budget all d.text with
  | .error e => c.leaves [] warnings (some e)
  | .ok n =>
    match (c.fixing d).run n (FileEditor.start d.text c.tree) with
    | (messages, .error e) => c.leaves (messages.map fixLine) warnings (some e)
    | ([], .ok _) => c.leaves [plainStyle.success "Nothing to fix"] warnings none
    | (messages, .ok s) =>
      match (c.editor d).save s d.uri with
      | (.error e, s) => ⟨messages.map fixLine, warnings, some (.host e), s.tree⟩
      | (.ok (), s) =>
        ⟨messages.map fixLine ++ c.fixSummary d.path messages.length s.text, warnings, none, s.tree⟩

/-- Deletes the first flagged entry of a keybindings file, or all of them. -/
def fix (c : Context) (file : Option String) (all : Bool) : Outcome :=
  match c.document file, c.permission with
  | .error e, _ | .ok _, .error e => c.fails e
  | .ok d, .ok warnings => c.fixDocument d all warnings

def cleanSummary (c : Context) (path : String) (o : CleanOutcome) : List String :=
  let summary := s!"Removed {o.removed} invalid keybinding(s), kept {o.kept}"
  if c.dryRun then [String.ofList o.text, plainStyle.info ("Dry run: " ++ summary)]
  else if o.changed then [plainStyle.success (summary ++ " in " ++ path)]
  else [plainStyle.success "No invalid keybindings found"]

def cleanDocument (c : Context) (d : OpenDocument) (warnings : List String) : Outcome :=
  let (_, s, result) := (c.engine d.path).clean (c.editor d).editor {}
    (FileEditor.start d.text c.tree) (some d) c.source (c.listing.source ·.tree)
  match result with
  | .error e => ⟨[], warnings, some (.engine e), s.tree⟩
  | .ok .rejected =>
    ⟨[], warnings, some (.internal s!"Cleaned text could not be applied to {d.path}"), s.tree⟩
  | .ok .notApplicable =>
    ⟨[plainStyle.warning (d.path ++ " is not a keybindings file")], warnings, none, s.tree⟩
  | .ok (.cleaned o) => ⟨c.cleanSummary d.path o, warnings, none, s.tree⟩

def clean (c : Context) (file : Option String) : Outcome :=
  match c.document file, c.permission with
  | .error e, _ | .ok _, .error e => c.fails e
  | .ok d, .ok warnings => c.cleanDocument d warnings

end Context

end Keybindings.Cli
