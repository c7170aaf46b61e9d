import Keybindings.Path

/-!
File trees as values.

A tree knows the directories, files and symbolic links by the names on their way from the root.
Looking a path up walks along its segments, follows the links that it comes to, and fails as the
operating system would.  Only writing can be forbidden: whatever is found can be read and listed.
-/

namespace Keybindings

/-- The content of a file: the UTF-8 form of a text, or bytes that are none. -/
inductive Content where
  | text (t : Text)
  | bytes (b : List UInt8)
  deriving DecidableEq, Repr

def Content.ofBytes (b : ByteArray) : Content :=
  match String.fromUTF8? b with
  | some s => .text s.toList
  | none => .bytes b.toList

inductive FileNode where
  | directory
  | file (content : Content)
  /-- A symbolic link with the path that it stands for. -/
  | link (target : Text)
  deriving DecidableEq, Repr

inductive FileError where
  | notFound
  | notADirectory
  | isADirectory
  | nameTooLong
  | nulInName
  | tooManyLinks
  | notUtf8
  | permissionDenied
  deriving DecidableEq, Repr

def FileError.message : FileError → String
  | notFound => "No such file or directory (os error 2)"
  | notADirectory => "Not a directory (os error 20)"
  | isADirectory => "Is a directory (os error 21)"
  | nameTooLong => "File name too long (os error 36)"
  | nulInName => "file name contained an unexpected NUL byte"
  | tooManyLinks => "Too many levels of symbolic links (os error 40)"
  | notUtf8 => "stream did not contain valid UTF-8"
  | permissionDenied => "Permission denied (os error 13)"

/-- The names on the way from the root to a place. -/
abbrev Place := List Text

/-- The places that are taken, apart from the root, and the working directory. -/
structure FileTree where
  nodes : List (Place × FileNode)
  workingDir : Place
  /-- The places that must not be written to. -/
  readOnly : List Place := []
  deriving DecidableEq, Repr

namespace FileTree

def node? (tree : FileTree) (p : Place) : Option FileNode :=
  if p = [] then some .directory else (tree.nodes.find? (·.1 = p)).map (·.2)

def maxName : Nat := 255

def maxPath : Nat := 4095

def maxLinks : Nat := 40

/-- The place where a path starts that is read at `here`. -/
def startAt (here : Place) (path : Text) : Place :=
  if Path.isAbsolute path then [] else here

def enter (here : Place) (s : Text) : Place :=
  if s = [] ∨ s = ['.'] then here
  else if s = ['.', '.'] then here.dropLast
  else here ++ [s]

/-- The place reached from `here` along the given segments.  Every place that is left behind must
be a directory; at a link, `follow` goes on with the segments of its target put in front. -/
def walkWith (tree : FileTree) (follow : Place → List Text → Except FileError Place)
    (here : Place) : List Text → Except FileError Place
  | [] =>
    match tree.node? here with
    | some (.link target) => follow (startAt here.dropLast target) (Path.segments target)
    | _ => .ok here
  | s :: ss =>
    match tree.node? here with
    | none => .error .notFound
    | some (.file _) => .error .notADirectory
    | some (.link target) =>
      follow (startAt here.dropLast target) (Path.segments target ++ s :: ss)
    | some .directory =>
      if maxName < Text.size s then .error .nameTooLong
      else walkWith tree follow (enter here s) ss

/-- The place reached from `here` along the given segments, by way of so many links at most. -/
def walk (tree : FileTree) : Nat → Place → List Text → Except FileError Place
  | 0 => tree.walkWith fun _ _ => .error .tooManyLinks
  | links + 1 => tree.walkWith (tree.walk links)

def origin (tree : FileTree) (path : Text) : Place :=
  startAt tree.workingDir path

/-- The segments of a path, unless it is refused as a whole. -/
def segments (path : Text) : Except FileError (List Text) :=
  if path.contains (Char.ofNat 0) then .error .nulInName
  else if path = [] then .error .notFound
  else if maxPath < Text.size path then .error .nameTooLong
  else .ok (Path.segments path)

def locate (tree : FileTree) (path : Text) : Except FileError Place := do
  tree.walk maxLinks (tree.origin path) (← segments path)

def look (tree : FileTree) (path : String) : Except FileError FileNode := do
  match tree.node? (← tree.locate path.toList) with
  | some n => return n
  | none => throw .notFound

def isFile (tree : FileTree) (path : String) : Bool :=
  match tree.look path with
  | .ok (.file _) => true
  | _ => false

def readText (tree : FileTree) (path : String) : Except FileError Text := do
  match ← tree.look path with
  | .directory => throw .isADirectory
  -- no walk ends at a link
  | .link _ => throw .tooManyLinks
  | .file (.text t) => return t
  | .file (.bytes _) => throw .notUtf8

def list (tree : FileTree) (path : String) : Except FileError (List Text) := do
  let here ← tree.locate path.toList
  match tree.node? here with
  | none => throw .notFound
  | some .directory =>
    return tree.nodes.filterMap fun (p, _) =>
      if p.dropLast = here then p.getLast? else none
  | some _ => throw .notADirectory

def setNode (p : Place) (n : FileNode) : List (Place × FileNode) → List (Place × FileNode)
  | [] => [(p, n)]
  | (q, m) :: nodes => if q = p then (p, n) :: nodes else (q, m) :: setNode p n nodes

def set (tree : FileTree) (p : Place) (n : FileNode) : FileTree :=
  { tree with nodes := setNode p n tree.nodes }

/-- The segments in front of the last name, if slashes behind the name tell that it is meant as a
directory. -/
def parentOfDirectory? (ss : List Text) : Option (List Text) :=
  match ss.reverse with
  | [] :: behind =>
    match behind.dropWhile (· = []) with
    | [] | ['.'] :: _ | ['.', '.'] :: _ => none
    | _ :: parent => some parent.reverse
  | _ => none

/-- The place reached along segments to write to.  Where they mean a directory, what they lead to
does not matter as long as its parent is one. -/
def walkForWriting (tree : FileTree) (links : Nat) (here : Place) (ss : List Text) :
    Except FileError Place :=
  match parentOfDirectory? ss with
  | some parent => do
    let _ ← tree.walk links here (parent ++ [[]])
    throw .isADirectory
  | none =>
    match links with
    | 0 => tree.walkWith (fun _ _ => .error .tooManyLinks) here ss
    | links + 1 => tree.walkWith (tree.walkForWriting links) here ss

def locateForWriting (tree : FileTree) (path : Text) : Except FileError Place := do
  tree.walkForWriting maxLinks (tree.origin path) (← segments path)

/-- The tree after a text was written to the file that a path leads to; the file is created if it
is not there. -/
def writeText (tree : FileTree) (path : String) (t : Text) : Except FileError FileTree := do
  let here ← tree.locateForWriting path.toList
  match tree.node? here with
  | some .directory => throw .isADirectory
  | _ =>
    if tree.readOnly.contains here then throw .permissionDenied
    return tree.set here (.file (.text t))

def addDirectory (tree : FileTree) (p : Place) : FileTree :=
  if (tree.node? p).isSome then tree else tree.set p .directory

def addParents (tree : FileTree) (p : Place) : FileTree :=
  ((List.range p.length).map p.take).foldl addDirectory tree

def addFile (tree : FileTree) (p : Place) (content : Content) : FileTree :=
  (tree.addParents p).set p (.file content)

def workingPath (tree : FileTree) : String :=
  String.ofList (Path.ofComponents (.root :: tree.workingDir.map .name))

def empty (workingDir : Place) : FileTree :=
  (({ nodes := [], workingDir } : FileTree).addParents workingDir).addDirectory workingDir

end FileTree

end Keybindings
