import Keybindings.Json.Cause

/-!
Reading a JSON number, one character at a time.

The digits are gathered in a significand of 64 bits.  From the first digit that does not fit, the
remaining digits of the whole part only raise the exponent, and those of the fraction are ignored.
-/

namespace Keybindings.Json

inductive Numeral where
  | minus
  | zero (negative : Bool)
  | whole (negative : Bool) (significand : Nat)
  /-- A whole part with more digits than the significand holds. -/
  | long (negative : Bool) (significand : Nat) (exponent : Int)
  /-- After the point, before its first digit. -/
  | point (negative : Bool) (significand : Nat) (exponent : Int)
  | fraction (negative : Bool) (significand : Nat) (exponent : Int)
  /-- Fraction digits that no longer count. -/
  | surplus (negative : Bool) (significand : Nat) (exponent : Int)
  /-- After the letter that announces the exponent. -/
  | mark (negative : Bool) (significand : Nat) (exponent : Int)
  /-- After the sign of the exponent; `down` means a minus. -/
  | sign (negative : Bool) (significand : Nat) (exponent : Int) (down : Bool)
  | power (negative : Bool) (significand : Nat) (exponent : Int) (down : Bool) (digits : Nat)
  /-- The exponent has too many digits, and the number is zero. -/
  | vanished (negative : Bool)
  deriving DecidableEq, Repr

namespace Numeral

def maxSignificand : Nat := 0xFFFFFFFFFFFFFFFF

def maxExponent : Nat := 0x7FFFFFFF

def digit? (c : Char) : Option Nat :=
  if c.isDigit then some (c.toNat - '0'.toNat) else none

def first (negative : Bool) (d : Nat) : Numeral :=
  if d = 0 then zero negative else whole negative d

def fits (significand d : Nat) : Bool :=
  significand * 10 + d ≤ maxSignificand

def isExponentMark (c : Char) : Bool :=
  c == 'e' || c == 'E'

def fractionDigit (negative : Bool) (significand : Nat) (exponent : Int) (d : Nat) : Numeral :=
  if fits significand d then fraction negative (significand * 10 + d) (exponent - 1)
  else surplus negative significand exponent

def powerDigit (negative : Bool) (significand : Nat) (exponent : Int) (down : Bool)
    (digits d : Nat) : Except Cause Numeral :=
  let digits := digits * 10 + d
  if digits ≤ maxExponent then .ok (power negative significand exponent down digits)
  else if significand ≠ 0 ∧ !down then .error .numberOutOfRange
  else .ok (vanished negative)

/-- The state after the character `c`, or nothing if `c` does not belong to the number. -/
def advance (n : Numeral) (c : Char) : Except Cause (Option Numeral) :=
  match n with
  | minus =>
    match digit? c with
    | some d => .ok (some (first true d))
    | none => .error .invalidNumber
  | zero neg =>
    if c.isDigit then .error .invalidNumber
    else if c = '.' then .ok (some (point neg 0 0))
    else if isExponentMark c then .ok (some (mark neg 0 0))
    else .ok none
  | whole neg sig =>
    match digit? c with
    | some d => .ok (some (if fits sig d then whole neg (sig * 10 + d) else long neg sig 1))
    | none =>
      if c = '.' then .ok (some (point neg sig 0))
      else if isExponentMark c then .ok (some (mark neg sig 0))
      else .ok none
  | long neg sig exp =>
    if c.isDigit then .ok (some (long neg sig (exp + 1)))
    else if c = '.' then .ok (some (point neg sig exp))
    else if isExponentMark c then .ok (some (mark neg sig exp))
    else .ok none
  | point neg sig exp =>
    match digit? c with
    | some d => .ok (some (fractionDigit neg sig exp d))
    | none => .error .invalidNumber
  | fraction neg sig exp =>
    match digit? c with
    | some d => .ok (some (fractionDigit neg sig exp d))
    | none => if isExponentMark c then .ok (some (mark neg sig exp)) else .ok none
  | surplus neg sig exp =>
    if c.isDigit then .ok (some (surplus neg sig exp))
    else if isExponentMark c then .ok (some (mark neg sig exp))
    else .ok none
  | mark neg sig exp =>
    if c = '+' then .ok (some (sign neg sig exp false))
    else if c = '-' then .ok (some (sign neg sig exp true))
    else
      match digit? c with
      | some d => (powerDigit neg sig exp false 0 d).map some
      | none => .error .invalidNumber
  | sign neg sig exp down =>
    match digit? c with
    | some d => (powerDigit neg sig exp down 0 d).map some
    | none => .error .invalidNumber
  | power neg sig exp down digits =>
    match digit? c with
    | some d => (powerDigit neg sig exp down digits d).map some
    | none => .ok none
  | vanished neg => if c.isDigit then .ok (some (vanished neg)) else .ok none

/-- A double with the given sign, `significand * 10 ^ exponent` in size. -/
def float (negative : Bool) (significand : Nat) (exponent : Int) : Except Cause Number :=
  match Binary64.scale? significand exponent with
  | some u => .ok (.float ⟨negative, u⟩)
  | none => .error .numberOutOfRange

/-- A whole number: an integer if it fits into 64 bits, and otherwise a double. -/
def integer (negative : Bool) (significand : Nat) : Except Cause Number :=
  if !negative then .ok (.int significand)
  else if significand = 0 ∨ 0x8000000000000000 < significand then float true significand 0
  else .ok (.int (-significand))

def finish : Numeral → Except Cause Number
  | minus => .error .valueCutOff
  | zero neg => integer neg 0
  | whole neg sig => integer neg sig
  | long neg sig exp => float neg sig exp
  | point _ _ _ => .error .valueCutOff
  | fraction neg sig exp => float neg sig exp
  | surplus neg sig exp => float neg sig exp
  | mark _ _ _ => .error .valueCutOff
  | sign _ _ _ _ => .error .valueCutOff
  | power neg sig exp down digits => float neg sig (if down then exp - digits else exp + digits)
  | vanished neg => .ok (.float ⟨neg, 0⟩)

end Numeral

end Keybindings.Json
