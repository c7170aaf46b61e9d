import Keybindings.Text.Basic

/-!
Paths with slashes, taken apart without looking at any file.
-/

namespace Keybindings

inductive Component where
  | root
  | current
  | parent
  | name (s : Text)
  deriving DecidableEq, Repr

namespace Path

def segments (p : Text) : List Text :=
  Text.pieces '/' p

def isAbsolute (p : Text) : Bool :=
  p.head? == some '/'

def component (s : Text) : Component :=
  if s = ['.'] then .current
  else if s = ['.', '.'] then .parent
  else .name s

/-- The steps of a path.  Empty segments do not count, and a single dot only counts at the start of
a relative path. -/
def components (p : Text) : List Component :=
  let ss := (segments p).filter (· ≠ [])
  if isAbsolute p then .root :: (ss.filter (· ≠ ['.'])).map component
  else
    match ss with
    | [] => []
    | s :: ss => component s :: (ss.filter (· ≠ ['.'])).map component

/-- One more step on a stack of steps: a step to the parent takes a name away and stays at the
root. -/
def push (stack : List Component) : Component → List Component
  | .current => stack
  | .parent =>
    match stack with
    | .name _ :: below => below
    | .root :: _ => stack
    | _ => .parent :: stack
  | c => c :: stack

def collapse (cs : List Component) : List Component :=
  (cs.foldl push []).reverse

/-- The way from one directory to another place: up to what they share, and down again. -/
def wayFrom : List Component → List Component → List Component
  | [], cs => cs
  | b :: bs, [] => (b :: bs).map fun _ => .parent
  | b :: bs, c :: cs =>
    if b = c then wayFrom bs cs else (b :: bs).map (fun _ => .parent) ++ c :: cs

def componentText : Component → Text
  | .root => []
  | .current => ['.']
  | .parent => ['.', '.']
  | .name s => s

def ofComponents : List Component → Text
  | .root :: cs => '/' :: List.intercalate ['/'] (cs.map componentText)
  | cs => List.intercalate ['/'] (cs.map componentText)

/-- The path `p` as seen from the directory `dir`. -/
def joinText (dir p : Text) : Text :=
  if isAbsolute p ∨ dir = [] then p
  else if dir.getLast? = some '/' then dir ++ p
  else dir ++ '/' :: p

def join (dir p : String) : String :=
  String.ofList (joinText dir.toList p.toList)

end Path

end Keybindings
