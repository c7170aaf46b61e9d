import Keybindings.Entry

/-!
The commands an editor knows.
-/

namespace Keybindings

/-- Command ids in ascending order, each once and none empty, and whether one of the editor's own
command lists is among their origins. -/
structure Registry where
  ids : List String := []
  hostListed : Bool := false
  deriving DecidableEq, Repr, Inhabited

def insertSorted (s : String) : List String → List String
  | [] => [s]
  | x :: xs => if s = x then x :: xs else if s < x then s :: x :: xs else x :: insertSorted s xs

@[simp] theorem mem_insertSorted {a s : String} {xs : List String} :
    a ∈ insertSorted s xs ↔ a = s ∨ a ∈ xs := by
  induction xs with
  | nil => simp [insertSorted]
  | cons x xs ih =>
    simp only [insertSorted]
    split
    · simp_all
    · split
      · simp
      · simp only [List.mem_cons, ih]
        grind

namespace Registry

def contains (r : Registry) (id : String) : Bool :=
  r.ids.contains id

def resolves (r : Registry) (ref : String) : Bool :=
  r.contains (commandId ref)

/-- Adds an id; the empty one is passed over. -/
def insert (r : Registry) (id : String) : Registry :=
  if id = "" then r else { r with ids := insertSorted id r.ids }

def isNew (r : Registry) (id : String) : Bool :=
  id ≠ "" && !r.contains id

def extend (r : Registry) (ids : List String) : Registry :=
  ids.foldl insert r

/-- The registry of a list of ids, of which nothing is known about the origin. -/
def ofList (ids : List String) : Registry :=
  extend {} ids

def withHostCommands (r : Registry) : Registry :=
  { r with hostListed := true }

def size (r : Registry) : Nat :=
  r.ids.length

def isEmpty (r : Registry) : Bool :=
  r.ids.isEmpty

end Registry

end Keybindings
