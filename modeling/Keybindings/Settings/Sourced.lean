import Keybindings.Dictionary
import Keybindings.Settings.Setting

/-!
Settings in use, put together from a file and the environment.

Every part knows the file it comes from.  What is made only to hold other parts comes from none.
-/

namespace Keybindings

inductive Sourced where
  | scalar (v : Scalar) (file : Option String)
  | list (items : List Sourced) (file : Option String)
  | table (entries : List (String × Sourced)) (file : Option String)
  deriving Repr, Inhabited

namespace Sourced

mutual

def ofSetting (file : Option String) : Setting → Sourced
  | .scalar v => .scalar v file
  | .list items => .list (ofItems file items) file
  | .table es => .table (ofEntries file es) file

def ofItems (file : Option String) : List Setting → List Sourced
  | [] => []
  | v :: vs => ofSetting file v :: ofItems file vs

def ofEntries (file : Option String) : List (String × Setting) → List (String × Sourced)
  | [] => []
  | (k, v) :: es => (k, ofSetting file v) :: ofEntries file es

end

def gap : Sourced := .scalar .unit none

/-- The setting as a table: an empty one in place of anything else. -/
def asTable : Option Sourced → List (String × Sourced) × Option String
  | some (.table es f) => (es, f)
  | _ => ([], none)

/-- The setting as a list: an empty one in place of anything else. -/
def asList : Option Sourced → List Sourced × Option String
  | some (.list items f) => (items, f)
  | _ => ([], none)

def changeEntry (old : Option Sourced) (key : String) (change : Option Sourced → Sourced) :
    Sourced :=
  let (es, f) := asTable old
  .table (Dictionary.insert key (change (Dictionary.find? key es)) es) f

/-- The place of an item in a list; a negative index counts from the list's end. -/
def itemIndex (length : Nat) : Int → Nat
  | .ofNat i => i
  | .negSucc i => length - (i + 1)

/-- A list with one item changed, and long enough to have it. -/
def changeItem (old : Option Sourced) (index : Int) (change : Sourced → Sourced) : Sourced :=
  let (items, f) := asList old
  let i := itemIndex items.length index
  let items := items ++ List.replicate (i + 1 - items.length) gap
  .list (items.modify i change) f

mutual

/-- Puts a setting in the place of an old one.  A table is put in entry by entry, so that what it
does not name stays. -/
def merge (old : Option Sourced) : Sourced → Sourced
  | .table es _ => mergeEntries (old.getD (.table [] none)) es
  | v => v

def mergeEntries (target : Sourced) : List (String × Sourced) → Sourced
  | [] => target
  | (k, v) :: es => mergeEntries (changeEntry (some target) k fun old => merge old v) es

end

end Sourced

end Keybindings
