import Keybindings.Settings.Sourced
import Keybindings.Text.LowerCase

/-!
Keys that lead into settings: a name, and from there on steps to the entries of tables, `.name`, and
to the items of lists, `[index]`.  A step makes the table or the list that it needs.
-/

namespace Keybindings

inductive KeyStep where
  | entry (name : String)
  | item (index : Int)
  deriving DecidableEq, Repr

structure KeyPath where
  name : String
  steps : List KeyStep
  deriving DecidableEq, Repr

namespace KeyPath

def isNameChar (c : Char) : Bool :=
  c.isAlphanum || c == ' ' || c == '_' || c == '-'

def readName (t : Text) : Option (String × Text) :=
  match t.takeWhile isNameChar with
  | [] => none
  | name => some (String.ofList name, t.dropWhile isNameChar)

/-- Whether a character may surround an index. -/
def isIndexSpace (c : Char) : Bool :=
  c == ' ' || c == '\t'

/-- The index with the given sign and digits, if it has 64 bits. -/
def index? (negative : Bool) (digits : List Char) : Option Int :=
  match (String.ofList digits).toNat? with
  | none => none
  | some n =>
    if negative then if n ≤ 0x8000000000000000 then some (-n) else none
    else if n < 0x8000000000000000 then some n else none

def readIndex (t : Text) : Option (Int × Text) :=
  let t := t.dropWhile isIndexSpace
  let (negative, t) :=
    match t with
    | '-' :: t => (true, t)
    | t => (false, t)
  match index? negative (t.takeWhile Char.isDigit),
      (t.dropWhile Char.isDigit).dropWhile isIndexSpace with
  | some i, ']' :: t => some (i, t)
  | _, _ => none

def readStep : Text → Option (KeyStep × Text)
  | '.' :: t => (readName t).map fun (name, t) => (.entry name, t)
  | '[' :: t => (readIndex t).map fun (i, t) => (.item i, t)
  | _ => none

def readSteps : Nat → Text → Option (List KeyStep)
  | _, [] => some []
  | 0, _ => none
  | fuel + 1, t => do
    let (step, t) ← readStep t
    return step :: (← readSteps fuel t)

def read (t : Text) : Option KeyPath := do
  let (name, t) ← readName t
  return ⟨name, ← readSteps t.length t⟩

/-- The way to the setting with a key, in lower case.  A key that describes none is a name. -/
def ofKey (key : String) : KeyPath :=
  let key := lowerString key
  (read key.toList).getD ⟨key, []⟩

/-- What stands at the start of some steps once a setting was put at their end. -/
def place (value : Sourced) : List KeyStep → Option Sourced → Sourced
  | [], old => .merge old value
  | .entry name :: steps, old => .changeEntry old name (place value steps)
  | [.item i], old => .changeItem old i fun _ => value
  | .item i :: steps, old => .changeItem old i fun item => place value steps (some item)

def set (d : Dictionary Sourced) (p : KeyPath) (value : Sourced) : Dictionary Sourced :=
  d.insert p.name (place value p.steps (d.find? p.name))

def setAll (settings : List (String × Sourced)) : Dictionary Sourced :=
  settings.foldl (fun d (key, value) => set d (ofKey key) value) []

end KeyPath

end Keybindings
