import Keybindings.Cli.Run
import Keybindings.Cli.Usage

/-!
The program.  It takes what a run may look at from the disk into a file tree, computes the run, and
puts on the disk what the run changed.
-/

namespace Keybindings.Disk

def pathOf (p : Place) : String :=
  String.ofList (Path.ofComponents (.root :: p.map .name))

/-- Adds what is found at a place itself.  A link stands for the place that it leads to in the
end. -/
def lookAt (tree : FileTree) (p : Place) : IO FileTree := do
  if (tree.node? p).isSome then return tree
  let root ← IO.currentDir
  let path := root / pathOf p
  match ← path.symlinkMetadata.toBaseIO with
  | .error _ => return tree
  | .ok found =>
    if found.type == .symlink then
      match ← (IO.FS.realPath path).toBaseIO with
      | .ok target => return tree.set p (.link target.toString.toList)
      | .error _ => return tree
    if found.type == .dir then return tree.addDirectory p
    match ← (IO.FS.readBinFile path).toBaseIO with
    | .ok bytes => return tree.set p (.file (.ofBytes bytes))
    | .error _ => return tree

def lookWith (follow : FileTree → Place → List Text → IO FileTree) (tree : FileTree)
    (here : Place) : List Text → IO FileTree
  | [] => do
    let tree ← lookAt tree here
    match tree.node? here with
    | some (.link target) =>
      follow tree (FileTree.startAt here.dropLast target) (Path.segments target)
    | _ => return tree
  | s :: ss => do
    let tree ← lookAt tree here
    match tree.node? here with
    | some (.link target) =>
      follow tree (FileTree.startAt here.dropLast target) (Path.segments target ++ s :: ss)
    | some .directory => lookWith follow tree (FileTree.enter here s) ss
    | _ => return tree

def lookAlong : Nat → FileTree → Place → List Text → IO FileTree
  | 0 => lookWith fun tree _ _ => return tree
  | links + 1 => lookWith (lookAlong links)

def lookUp (tree : FileTree) (path : String) : IO FileTree :=
  lookAlong FileTree.maxLinks tree (tree.origin path.toList) (Path.segments path.toList)

def lookInto (tree : FileTree) (path : String) : IO FileTree := do
  let tree ← lookUp tree path
  match tree.locate path.toList with
  | .error _ => return tree
  | .ok p =>
    let root ← IO.currentDir
    match ← (root / pathOf p).readDir.toBaseIO with
    | .error _ => return tree
    | .ok entries =>
      entries.toList.foldlM
        (fun tree e => do
          let tree ← lookAt tree (p ++ [e.fileName.toList])
          lookUp tree (Path.join (Path.join path e.fileName) "package.json"))
        tree

def protect (tree : FileTree) (path : String) : IO FileTree := do
  if !tree.isFile path then return tree
  match tree.locate path.toList with
  | .error _ => return tree
  | .ok p =>
    match ← (IO.FS.Handle.mk (pathOf p) .append).toBaseIO with
    | .ok _ => return tree
    | .error _ => return { tree with readOnly := p :: tree.readOnly }

def start : IO FileTree := do
  let here ← IO.currentDir
  return .empty ((Path.segments here.toString.toList).filter (· ≠ []))

/-- The text of a file, or an empty one if it cannot be read. -/
def textOf (path : String) : IO Text := do
  match ← (IO.FS.readBinFile path).toBaseIO with
  | .ok bytes => return ((String.fromUTF8? bytes).getD "").toList
  | .error _ => return []

def environment : IO Environment := do
  let user := Environment.user? (← textOf "/proc/self/status")
  let accounts ← textOf "/etc/passwd"
  return {
    definitions := Environment.ofBlock (← textOf "/proc/self/environ")
    accountHome := user.bind (Environment.accountHome? accounts) }

def write (before after : FileTree) : IO Unit :=
  for (p, n) in after.nodes do
    if before.node? p ≠ some n then
      if let .file (.text t) := n then
        IO.FS.writeFile (pathOf p) (String.ofList t)

end Keybindings.Disk

namespace Keybindings.Cli

def Invocation.runOnDisk (i : Invocation) : IO UInt32 := do
  let env ← Disk.environment
  let tree ← (Settings.candidates (i.options.settingsPath env)).foldlM Disk.lookUp (← Disk.start)
  let tree ← match i.options.context env tree with
    | .error _ => pure tree
    | .ok c => do
      let tree ← (c.files i.command).foldlM Disk.lookUp tree
      let tree ← ((c.files i.command).take 1).foldlM Disk.protect tree
      c.settings.extensionsDirs.foldlM Disk.lookInto tree
  let r := i.run env tree
  Disk.write tree r.tree
  IO.print (String.ofList r.out)
  IO.eprint (String.ofList r.err)
  return r.exitCode.toUInt32

end Keybindings.Cli

def main (args : List String) : IO UInt32 := do
  match Keybindings.Cli.Invocation.read args with
  | .ok i => i.runOnDisk
  | .error e =>
    if e.isAnswer then
      IO.print e.message
      return 0
    else
      IO.eprint e.message
      return 2
