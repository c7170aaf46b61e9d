import Keybindings.Files.Snapshot
import Keybindings.Files.Tree
import Keybindings.Source

/-!
Command ids from files: a snapshot of the editor's lists and the directories in which extensions
are installed.
-/

namespace Keybindings

structure Listing where
  commandsFile : Option String
  extensionsDirs : List String
  deriving DecidableEq, Repr

namespace Listing

def snapshotFailed (reason : String) : SourceError :=
  .sourceFailed "command snapshot" reason

def extensionsFailed (reason : String) : SourceError :=
  .sourceFailed "extensions" reason

def snapshot (l : Listing) (tree : FileTree) : Except SourceError Snapshot :=
  match l.commandsFile with
  | none => .error (snapshotFailed "no commands file configured")
  | some path =>
    match tree.readText path with
    | .error e => .error (snapshotFailed (path ++ ": " ++ e.message))
    | .ok t => (Snapshot.read t).mapError fun e => snapshotFailed (path ++ ": " ++ e.message t)

/-- The manifest in a package file.  Until the package is read the extension goes by the name of
its directory. -/
def manifest (tree : FileTree) (path directory : String) : Except SourceError Manifest :=
  match tree.readText path with
  | .error e => .error (.malformedManifest directory e.message)
  | .ok t =>
    match Json.read t with
    | .error f => .error (.malformedManifest directory (f.message t))
    | .ok package =>
      Manifest.ofPackage ((Manifest.extensionId? package).getD directory) package

/-- The manifests of the extensions in a directory, one for each subdirectory with a package
file. -/
def directory (tree : FileTree) (dir : String) :
    Except FileError (List (Except SourceError Manifest)) := do
  let names ← tree.list dir
  return names.filterMap fun name =>
    let name := String.ofList name
    let path := Path.join (Path.join dir name) "package.json"
    if tree.isFile path then some (manifest tree path name) else none

/-- The manifests of all directories that can be read, of which there must be one. -/
def manifests (l : Listing) (tree : FileTree) :
    Except SourceError (List (Except SourceError Manifest)) :=
  if l.extensionsDirs = [] then .error (extensionsFailed "no extensions directory configured")
  else
    let listed := (l.extensionsDirs.map (directory tree)).filterMap Except.toOption
    if listed = [] then .error (extensionsFailed "no extensions directory is readable")
    else .ok listed.flatten

def source (l : Listing) (tree : FileTree) : Source where
  active := (l.snapshot tree).map Snapshot.active
  all := (l.snapshot tree).map Snapshot.all
  manifests := l.manifests tree

end Listing

end Keybindings
