import Keybindings.Number.Shortest
import Keybindings.Text.Quoted

/-!
Values of settings, as they come from files and from the environment.
-/

namespace Keybindings

/-- A double that may be infinite or no number at all. -/
inductive Real where
  | finite (x : Binary64)
  | infinite (negative : Bool)
  | notANumber
  deriving DecidableEq, Repr

namespace Real

def plainText : Real → String
  | finite x => String.ofList x.plainText
  | infinite negative => if negative then "-inf" else "inf"
  | notANumber => "NaN"

def pointText : Real → String
  | finite x => String.ofList x.pointText
  | x => x.plainText

def ofDecimal (negative : Bool) (digits : Nat) (exponent : Int) : Real :=
  let magnitude : Int := exponent + (Nat.toDigits 10 digits).length
  if digits = 0 ∨ magnitude < -400 then finite ⟨negative, 0⟩
  else if 400 < magnitude then infinite negative
  else
    let rounded :=
      match exponent with
      | .ofNat e => Binary64.nearest? (digits * Nat.pow 10 e) 1
      | .negSucc e => Binary64.nearest? digits (Nat.pow 10 (e + 1))
    match rounded with
    | some u => finite ⟨negative, u⟩
    | none => infinite negative

end Real

inductive Scalar where
  | unit
  | boolean (b : Bool)
  | integer (i : Int)
  | real (x : Real)
  | text (s : String)
  /-- A date or a time, as it is written out. -/
  | moment (s : String)
  deriving DecidableEq, Repr, Inhabited

namespace Scalar

/-- A scalar where text is wanted: numbers and truth values are written out. -/
def asText : Scalar → Except String String
  | boolean b => .ok (toString b)
  | integer i => .ok (toString i)
  | real x => .ok x.plainText
  | text s | moment s => .ok s
  | unit => .error "unit value"

/-- A scalar that stands where a list is wanted, as it is reported. -/
def inPlaceOfList : Scalar → String
  | unit => "unit value"
  | boolean b => s!"boolean `{b}`"
  | integer i => s!"integer `{i}`"
  | real x => "floating point `" ++ x.pointText ++ "`"
  | text s | moment s => "string " ++ quoted s

def inPlaceOfTable : Scalar → String
  | integer i => s!"64-bit integer `{i}`"
  | real x => "floating point `" ++ x.plainText ++ "`"
  | v => v.inPlaceOfList

end Scalar

inductive Setting where
  | scalar (v : Scalar)
  | list (items : List Setting)
  | table (entries : List (String × Setting))
  deriving Repr, Inhabited

end Keybindings
