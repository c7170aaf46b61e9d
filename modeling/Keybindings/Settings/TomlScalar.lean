import Keybindings.Settings.Setting
import Keybindings.Text.Basic

/-!
The numbers, dates and times of TOML.

Dates and times are kept as they are written out again: with a `T` between the two, a capital `Z`,
and no zeros at the end of a fraction.
-/

namespace Keybindings.Toml

def hexValue? (c : Char) : Option Nat :=
  if c.isDigit then some (c.toNat - '0'.toNat)
  else if 'a' ≤ c ∧ c ≤ 'f' then some (c.toNat - 'a'.toNat + 10)
  else if 'A' ≤ c ∧ c ≤ 'F' then some (c.toNat - 'A'.toNat + 10)
  else none

/-! ### Numbers -/

/-- More digits, with single underscores between digits. -/
def moreDigits (isDigit : Char → Bool) : Text → List Char × Text
  | [] => ([], [])
  | '_' :: c :: t =>
    if isDigit c then
      let (ds, rest) := moreDigits isDigit t
      (c :: ds, rest)
    else ([], '_' :: c :: t)
  | c :: t =>
    if isDigit c then
      let (ds, rest) := moreDigits isDigit t
      (c :: ds, rest)
    else ([], c :: t)

def readDigits (isDigit : Char → Bool) : Text → Option (List Char × Text)
  | [] => none
  | c :: t =>
    if isDigit c then
      let (ds, rest) := moreDigits isDigit t
      some (c :: ds, rest)
    else none

/-- A sign, if there is one; a minus is true. -/
def readSign : Text → Bool × Text
  | '-' :: t => (true, t)
  | '+' :: t => (false, t)
  | t => (false, t)

/-- The digits of a whole number, of which the first is zero only if it is the only one. -/
def readWhole : Text → Option (List Char × Text)
  | '0' :: t => some (['0'], t)
  | t => readDigits Char.isDigit t

def digitsValue (base : Nat) (ds : List Char) : Nat :=
  ds.foldl (fun n c => n * base + (hexValue? c).getD 0) 0

def integer64 (negative : Bool) (n : Nat) : Option Scalar :=
  if negative then if n ≤ 0x8000000000000000 then some (.integer (-n)) else none
  else if n < 0x8000000000000000 then some (.integer n) else none

/-- An integer in another base, from behind the letter that tells the base. -/
def readBased (base : Nat) (t : Text) : Option (Scalar × Text) := do
  let isDigit c := match hexValue? c with
    | some d => d < base
    | none => false
  let (ds, t) ← readDigits isDigit t
  return (← integer64 false (digitsValue base ds), t)

def readInteger (t : Text) : Option (Scalar × Text) :=
  match t with
  | '0' :: 'x' :: t => readBased 16 t
  | '0' :: 'o' :: t => readBased 8 t
  | '0' :: 'b' :: t => readBased 2 t
  | t => do
    let (negative, t) := readSign t
    let (ds, t) ← readWhole t
    return (← integer64 negative (digitsValue 10 ds), t)

def readExponent (t : Text) : Option (Int × Text) :=
  match t with
  | c :: rest =>
    if c = 'e' ∨ c = 'E' then do
      let (negative, rest) := readSign rest
      let (ds, rest) ← readDigits Char.isDigit rest
      let e : Int := digitsValue 10 ds
      return (if negative then -e else e, rest)
    else none
  | [] => none

def readFloat (t : Text) : Option (Scalar × Text) := do
  let (negative, t) := readSign t
  match t with
  | 'i' :: 'n' :: 'f' :: t => return (.real (.infinite negative), t)
  | 'n' :: 'a' :: 'n' :: t => return (.real .notANumber, t)
  | _ =>
    let (whole, t) ← readWhole t
    let (fraction, exponent, t) ←
      match t with
      | '.' :: t => do
        let (fraction, t) ← readDigits Char.isDigit t
        match readExponent t with
        | some (e, t) => some (fraction, e, t)
        | none => some (fraction, 0, t)
      | t => do
        let (e, t) ← readExponent t
        some ([], e, t)
    let x := Real.ofDecimal negative (digitsValue 10 (whole ++ fraction))
      (exponent - fraction.length)
    if x = .infinite false then none
    return (.real x, t)

/-! ### Dates and times -/

def readFixed (n least greatest : Nat) (t : Text) : Option (Nat × Text) := do
  let ds := t.take n
  if ds.length < n || !ds.all Char.isDigit then none
  let v := digitsValue 10 ds
  if v < least || greatest < v then none
  return (v, t.drop n)

def expect (c : Char) : Text → Option Text
  | c' :: t => if c' = c then some t else none
  | [] => none

def daysIn (year month : Nat) : Nat :=
  if month = 2 then
    if year % 4 = 0 ∧ (year % 100 ≠ 0 ∨ year % 400 = 0) then 29 else 28
  else if month = 4 ∨ month = 6 ∨ month = 9 ∨ month = 11 then 30
  else 31

def padded (n v : Nat) : String :=
  let ds := Nat.toDigits 10 v
  String.ofList (List.replicate (n - ds.length) '0' ++ ds)

def readDate (t : Text) : Option (String × Text) := do
  let (year, t) ← readFixed 4 0 9999 t
  let t ← expect '-' t
  let (month, t) ← readFixed 2 1 12 t
  let t ← expect '-' t
  let (day, t) ← readFixed 2 1 31 t
  if daysIn year month < day then none
  return (padded 4 year ++ "-" ++ padded 2 month ++ "-" ++ padded 2 day, t)

/-- The fraction of a second: nine digits count, and zeros at the end are not written. -/
def secondFraction (ds : List Char) : String :=
  let ds := ((ds.take 9).reverse.dropWhile (· == '0')).reverse
  if ds = [] then "" else String.ofList ('.' :: ds)

def readTime (t : Text) : Option (String × Text) := do
  let (hour, t) ← readFixed 2 0 23 t
  let t ← expect ':' t
  let (minute, t) ← readFixed 2 0 59 t
  let t ← expect ':' t
  let (second, t) ← readFixed 2 0 60 t
  let time := padded 2 hour ++ ":" ++ padded 2 minute ++ ":" ++ padded 2 second
  match t with
  | '.' :: rest =>
    let ds := rest.takeWhile Char.isDigit
    if ds = [] then none
    return (time ++ secondFraction ds, rest.dropWhile Char.isDigit)
  | t => return (time, t)

def readOffset : Text → Option (String × Text)
  | c :: t =>
    if c = 'Z' ∨ c = 'z' then some ("Z", t)
    else if c = '+' ∨ c = '-' then do
      let (hour, t) ← readFixed 2 0 23 t
      let t ← expect ':' t
      let (minute, t) ← readFixed 2 0 59 t
      let sign := if c = '-' ∧ (hour ≠ 0 ∨ minute ≠ 0) then "-" else "+"
      return (sign ++ padded 2 hour ++ ":" ++ padded 2 minute, t)
    else none
  | [] => none

/-- The time of day behind a date, from the mark between the two on. -/
def readDayTime : Text → Option (String × Text)
  | c :: t => if c = 'T' ∨ c = 't' ∨ c = ' ' then readTime t else none
  | [] => none

def readMoment (t : Text) : Option (Scalar × Text) :=
  match readDate t with
  | some (date, rest) =>
    match readDayTime rest with
    | some (time, rest) =>
      match readOffset rest with
      | some (offset, rest) => some (.moment (date ++ "T" ++ time ++ offset), rest)
      | none => some (.moment (date ++ "T" ++ time), rest)
    | none => some (.moment date, rest)
  | none => (readTime t).map fun (time, rest) => (.moment time, rest)

def moment? (t : Text) : Option Scalar :=
  match readMoment t with
  | some (v, []) => some v
  | _ => none

end Keybindings.Toml
