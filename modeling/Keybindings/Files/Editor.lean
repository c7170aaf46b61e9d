import Keybindings.Engine
import Keybindings.Files.Tree

/-!
The editor of a single file.

Edits are staged and reach the file when the document is saved.  In a dry run the file is never
written.
-/

namespace Keybindings

structure FileEditor where
  path : String
  uri : String
  dryRun : Bool
  deriving DecidableEq, Repr

/-- The staged text, whether it differs from what was saved, and the files. -/
structure Staged where
  text : Text
  dirty : Bool
  tree : FileTree
  deriving DecidableEq, Repr

namespace FileEditor

def start (t : Text) (tree : FileTree) : Staged :=
  ⟨t, false, tree⟩

def apply (ed : FileEditor) (s : Staged) (uri : String) (e : Edit) : Bool × Staged :=
  if uri = ed.uri then
    match e.apply s.text with
    | .ok t => (true, { s with text := t, dirty := true })
    | .error _ => (false, s)
  else (false, s)

/-- Writes the staged text to the file, if there is something to write and it may be written. -/
def save (ed : FileEditor) (s : Staged) (uri : String) : Except HostError Unit × Staged :=
  if uri = ed.uri then
    if !s.dirty || ed.dryRun then (.ok (), s)
    else
      match s.tree.writeText ed.path s.text with
      | .ok tree => (.ok (), { s with dirty := false, tree := tree })
      | .error e => (.error (.saveFailed uri e.message), s)
  else (.error (.documentUnavailable uri), s)

def editor (ed : FileEditor) : Editor Staged :=
  ⟨ed.apply, ed.save⟩

end FileEditor

end Keybindings
