import Keybindings.Registry

/-!
Where command ids come from: the editor's lists and the manifests of installed extensions.
-/

namespace Keybindings

inductive SourceError where
  | sourceFailed (source reason : String)
  | malformedManifest (extension reason : String)
  /-- None of the listings could be read. -/
  | noSources
  deriving DecidableEq, Repr

def SourceError.message : SourceError → String
  | sourceFailed source reason => s!"Command source '{source}' failed: {reason}"
  | malformedManifest extension reason =>
    s!"Extension manifest for '{extension}' is malformed: {reason}"
  | noSources => "No command source could be read"

structure Manifest where
  id : String
  commands : List String := []
  keybindings : List String := []
  deriving DecidableEq, Repr

namespace Manifest

def commandIds (m : Manifest) : List String :=
  m.commands ++ m.keybindings

/-- The name of an extension as declared in its package, behind its publisher if there is one. -/
def extensionId? (package : Json.Value) : Option String := do
  let name ← (← package.member? "name").string?
  match (package.member? "publisher").bind Json.Value.string? with
  | some publisher => return publisher ++ "." ++ name
  | none => return name

def itemCommand? (item : Json.Value) : Option String :=
  ((item.member? "command").bind Json.Value.string?).filter (· ≠ "")

/-- The command ids of a section, which is a list of items or a single one. -/
def sectionIds (id name : String) : Option Json.Value → Except SourceError (List String)
  | none | some .null => .ok []
  | some (.array items) => .ok (items.filterMap itemCommand?)
  | some (.object members) => .ok ((itemCommand? (.object members)).toList)
  | some _ =>
    .error (.malformedManifest id s!"`contributes.{name}` is neither an array nor an object")

/-- The manifest of a package.  A section of a wrong type spoils all of it. -/
def ofPackage (id : String) (package : Json.Value) : Except SourceError Manifest :=
  match package.member? "contributes" with
  | none | some .null => .ok { id }
  | some (.object contributes) => do
    let commands ← sectionIds id "commands" (Dictionary.find? "commands" contributes)
    let keybindings ← sectionIds id "keybindings" (Dictionary.find? "keybindings" contributes)
    return ⟨id, commands, keybindings⟩
  | some _ => .error (.malformedManifest id "`contributes` is not an object")

end Manifest

structure Source where
  /-- The commands that can be called now. -/
  active : Except SourceError (List String)
  /-- All commands, also those that are loaded late. -/
  all : Except SourceError (List String)
  /-- The manifests of the installed extensions, each read on its own. -/
  manifests : Except SourceError (List (Except SourceError Manifest))

namespace Source

def ofCommands (ids : List String) : Source :=
  ⟨.ok ids, .ok ids, .ok []⟩

def addHostList (r : Registry) : Except SourceError (List String) → Registry
  | .ok ids => (r.extend ids).withHostCommands
  | .error _ => r

def addManifest (r : Registry) : Except SourceError Manifest → Registry
  | .ok m => r.extend m.commandIds
  | .error _ => r

def addManifests (r : Registry) : Except SourceError (List (Except SourceError Manifest)) → Registry
  | .ok ms => ms.foldl addManifest r
  | .error _ => r

/-- The union of everything that can be read; it fails only if nothing can. -/
def registry (s : Source) : Except SourceError Registry :=
  match s.active, s.all, s.manifests with
  | .error _, .error _, .error _ => .error .noSources
  | active, all, manifests =>
    .ok (addManifests (addHostList (addHostList {} active) all) manifests)

end Source

end Keybindings
