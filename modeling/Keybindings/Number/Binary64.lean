/-!
Finite double-precision numbers, computed exactly.

A magnitude is a whole number of units of `2 ^ -1074`, the smallest positive double.  Every
operation forms the exact quotient and rounds it once, to 53 significant bits, halves going to the
even neighbour.
-/

namespace Keybindings

/-- A finite double: its sign and its magnitude in units of `2 ^ -1074`. -/
structure Binary64 where
  negative : Bool
  units : Nat
  deriving DecidableEq, Repr, Inhabited

namespace Binary64

def unitsPerOne : Nat := Nat.pow 2 1074

def unitsLimit : Nat := Nat.pow 2 2098

/-- `num / den` rounded to a whole number, a half to the even neighbour. -/
def roundHalfEven (num den : Nat) : Nat :=
  let q := num / den
  let r := num % den
  if den < 2 * r then q + 1
  else if 2 * r = den then q + q % 2
  else q

/-- The place of the last significant bit of a magnitude: the size of its spacing is
`2 ^ spacing u` units. -/
def spacing (u : Nat) : Nat :=
  Nat.log2 u - 52

def roundUnits (num den : Nat) : Nat :=
  let s := spacing (num / den)
  roundHalfEven num (den * Nat.pow 2 s) * Nat.pow 2 s

def nearest? (num den : Nat) : Option Nat :=
  let u := roundUnits (num * unitsPerOne) den
  if u < unitsLimit then some u else none

def powerOfTen (e : Nat) : Nat :=
  roundUnits (Nat.pow 10 e * unitsPerOne) 1

def mulPower? (u e : Nat) : Option Nat :=
  nearest? (u * powerOfTen e) (unitsPerOne * unitsPerOne)

def divPower (u e : Nat) : Nat :=
  roundUnits (u * unitsPerOne) (powerOfTen e)

def maxPower : Nat := 308

/-- `u * 10 ^ -e`, taking away at most 308 places at a time. -/
def scaleDown (u e : Nat) : Nat :=
  if u = 0 then 0
  else if _h : e ≤ maxPower then divPower u e
  else scaleDown (divPower u maxPower) (e - maxPower)
termination_by e
decreasing_by
  have : maxPower = 308 := rfl
  omega

/-- `significand * 10 ^ exponent`, unless that is too large.  The significand is rounded first and
every multiplication or division rounds again. -/
def scale? (significand : Nat) (exponent : Int) : Option Nat := do
  let u ← nearest? significand 1
  match exponent with
  | .ofNat e =>
    if e ≤ maxPower then mulPower? u e
    else if u = 0 then some 0
    else none
  | .negSucc e => some (scaleDown u (e + 1))

end Binary64

end Keybindings
