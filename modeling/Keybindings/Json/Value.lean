import Keybindings.Dictionary
import Keybindings.Number.Binary64

/-!
JSON values.

A number without fraction and exponent that fits into 64 bits is an integer; every other number is
a double.  The members of an object that was read are in ascending order of their keys.
-/

namespace Keybindings.Json

inductive Number where
  | int (i : Int)
  | float (x : Binary64)
  deriving DecidableEq, Repr

inductive Value where
  | null
  | bool (b : Bool)
  | number (n : Number)
  | string (s : String)
  | array (items : List Value)
  | object (members : List (String × Value))
  deriving Repr, Inhabited

abbrev Members := Dictionary Value

namespace Value

/-- The member of an object with the given key; other values have no members. -/
def member? (v : Value) (key : String) : Option Value :=
  match v with
  | object members => Dictionary.find? key members
  | _ => none

def string? : Value → Option String
  | string s => some s
  | _ => none

def kind : Value → String
  | null => "null"
  | bool _ => "a boolean"
  | number _ => "a number"
  | string _ => "a string"
  | array _ => "an array"
  | object _ => "an object"

end Value

end Keybindings.Json
