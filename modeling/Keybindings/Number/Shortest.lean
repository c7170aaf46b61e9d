import Keybindings.Number.Binary64

/-!
The shortest decimal that reads back as a given double.

Among the decimals that round to a double, those with the fewest digits are taken, and of these
the one nearest to it.  Where two are equally near, positional text takes the larger and JSON the
one with the even last digit.
-/

namespace Keybindings

/-- The decimal `digits * 10 ^ exponent`. -/
structure Decimal where
  digits : Nat
  exponent : Int
  deriving DecidableEq, Repr

inductive Tie where
  | larger
  | even
  deriving DecidableEq, Repr

def Tie.resolve : Tie → Nat → Nat
  | larger, k => k + 1
  | even, k => k + k % 2

namespace Binary64

/-- The decimals that round to a magnitude, as bounds in quarters of a unit, and whether the bounds
themselves belong to it. -/
structure Interval where
  lower : Nat
  upper : Nat
  closed : Bool

/-- The interval of a magnitude.  The spacing below a power of two is half of the one above. -/
def interval (u : Nat) : Interval :=
  let s := spacing u
  let m := u / Nat.pow 2 s
  let below := if m = Nat.pow 2 52 ∧ s ≠ 0 then Nat.pow 2 s else 2 * Nat.pow 2 s
  ⟨4 * u - below, 4 * u + 2 * Nat.pow 2 s, m % 2 == 0⟩

/-- Compares `k * 10 ^ x` with quarters of a unit by multiplying both sides out. -/
def quarters (k : Nat) (x : Int) : Nat × Nat :=
  match x with
  | .ofNat e => (k * Nat.pow 10 e * (4 * unitsPerOne), 1)
  | .negSucc e => (k * (4 * unitsPerOne), Nat.pow 10 (e + 1))

def Interval.holds (i : Interval) (k : Nat) (x : Int) : Bool :=
  let (num, den) := quarters k x
  if i.closed then i.lower * den ≤ num && num ≤ i.upper * den
  else i.lower * den < num && num < i.upper * den

/-- The best multiple of `10 ^ x` in the interval of a magnitude, if there is one. -/
def onGrid? (tie : Tie) (u : Nat) (x : Int) : Option Nat :=
  let (num, den) :=
    match x with
    | .ofNat e => (u, unitsPerOne * Nat.pow 10 e)
    | .negSucc e => (u * Nat.pow 10 (e + 1), unitsPerOne)
  let k := num / den
  let rest := num % den
  let i := interval u
  match i.holds k x, i.holds (k + 1) x with
  | true, true =>
    if 2 * rest < den then some k
    else if den < 2 * rest then some (k + 1)
    else some (tie.resolve k)
  | true, false => some k
  | false, true => some (k + 1)
  | false, false => none

def searchDown (tie : Tie) (u : Nat) : Nat → Int → Decimal
  | 0, x => ⟨u, x⟩
  | fuel + 1, x =>
    match onGrid? tie u x with
    | some k => ⟨k, x⟩
    | none => searchDown tie u fuel (x - 1)

/-- The shortest decimal of a magnitude.  The search begins above the first digit, and seventeen
digits are always enough. -/
def shortest (tie : Tie) (u : Nat) : Decimal :=
  if u = 0 then ⟨0, 0⟩
  else searchDown tie u 22 (((Nat.log2 u : Int) - 1074) * 30103 / 100000 + 2)

def decimalDigits (n : Nat) : List Char :=
  Nat.toDigits 10 n

def positional (d : Decimal) : List Char :=
  let ds := decimalDigits d.digits
  match d.exponent with
  | .ofNat e => ds ++ List.replicate e '0'
  | .negSucc e =>
    let places := e + 1
    let ds := List.replicate (places + 1 - ds.length) '0' ++ ds
    ds.take (ds.length - places) ++ '.' :: ds.drop (ds.length - places)

def signed (x : Binary64) (magnitude : List Char) : List Char :=
  if x.negative then '-' :: magnitude else magnitude

def plainText (x : Binary64) : List Char :=
  x.signed (positional (shortest .larger x.units))

def withPoint (t : List Char) : List Char :=
  if t.contains '.' then t else t ++ ['.', '0']

def pointText (x : Binary64) : List Char :=
  withPoint x.plainText

def leastPlainExponent : Int := -5

def greatestPlainExponent : Int := 15

/-- A double in JSON: positional with a point for moderate exponents, and otherwise one digit, the
rest behind a point, and a signed exponent. -/
def jsonText (x : Binary64) : List Char :=
  let d := shortest .even x.units
  let ds := decimalDigits d.digits
  let e := d.exponent + (ds.length - 1 : Nat)
  if x.units = 0 ∨ (leastPlainExponent ≤ e ∧ e ≤ greatestPlainExponent) then
    x.signed (withPoint (positional d))
  else
    let mantissa :=
      match ds with
      | first :: [] => [first]
      | first :: rest => first :: '.' :: rest
      | [] => []
    let sign := if e < 0 then '-' else '+'
    x.signed (mantissa ++ 'e' :: sign :: decimalDigits e.natAbs)

end Binary64

end Keybindings
