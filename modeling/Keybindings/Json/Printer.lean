import Keybindings.Json.Value
import Keybindings.Number.Shortest
import Keybindings.Text.Basic

/-!
Writing JSON, either without any white space or on many lines with two spaces per level.

In strings only the quote, the backslash and the control characters below U+0020 are escaped.
Members are written in the order in which the object holds them.
-/

namespace Keybindings.Json

def hexDigit (n : Nat) : Char :=
  (Nat.digitChar (n % 16))

def escapeChar (c : Char) : Text :=
  if c = '"' then ['\\', '"']
  else if c = '\\' then ['\\', '\\']
  else if c.toNat = 0x08 then ['\\', 'b']
  else if c.toNat = 0x09 then ['\\', 't']
  else if c.toNat = 0x0A then ['\\', 'n']
  else if c.toNat = 0x0C then ['\\', 'f']
  else if c.toNat = 0x0D then ['\\', 'r']
  else if c.toNat < 0x20 then ['\\', 'u', '0', '0', hexDigit (c.toNat / 16), hexDigit c.toNat]
  else [c]

def printString (s : String) : Text :=
  '"' :: s.toList.flatMap escapeChar ++ ['"']

def printInt (i : Int) : Text :=
  if i < 0 then '-' :: Nat.toDigits 10 i.natAbs else Nat.toDigits 10 i.natAbs

def Number.print : Number → Text
  | .int i => printInt i
  | .float x => x.jsonText

namespace Value

mutual

def compact : Value → Text
  | .null => ['n', 'u', 'l', 'l']
  | .bool true => ['t', 'r', 'u', 'e']
  | .bool false => ['f', 'a', 'l', 's', 'e']
  | .number n => n.print
  | .string s => printString s
  | .array [] => ['[', ']']
  | .array (v :: vs) => '[' :: compact v ++ compactItems vs
  | .object [] => ['{', '}']
  | .object ((k, v) :: ms) => '{' :: printString k ++ ':' :: compact v ++ compactMembers ms

/-- The items after the first, each behind a comma, and the closing bracket. -/
def compactItems : List Value → Text
  | [] => [']']
  | v :: vs => ',' :: compact v ++ compactItems vs

def compactMembers : List (String × Value) → Text
  | [] => ['}']
  | (k, v) :: ms => ',' :: printString k ++ ':' :: compact v ++ compactMembers ms

end

def newLine (level : Nat) : Text :=
  '\n' :: List.replicate (2 * level) ' '

mutual

/-- A value whose first line is already indented, at the given level. -/
def prettyAt (level : Nat) : Value → Text
  | .null => ['n', 'u', 'l', 'l']
  | .bool true => ['t', 'r', 'u', 'e']
  | .bool false => ['f', 'a', 'l', 's', 'e']
  | .number n => n.print
  | .string s => printString s
  | .array [] => ['[', ']']
  | .array (v :: vs) => '[' :: newLine (level + 1) ++ prettyAt (level + 1) v ++ prettyItems level vs
  | .object [] => ['{', '}']
  | .object ((k, v) :: ms) =>
    '{' :: newLine (level + 1) ++ printString k ++ ':' :: ' ' :: prettyAt (level + 1) v ++
      prettyMembers level ms

/-- The items after the first and the closing bracket of an array at the given level. -/
def prettyItems (level : Nat) : List Value → Text
  | [] => newLine level ++ [']']
  | v :: vs => ',' :: newLine (level + 1) ++ prettyAt (level + 1) v ++ prettyItems level vs

def prettyMembers (level : Nat) : List (String × Value) → Text
  | [] => newLine level ++ ['}']
  | (k, v) :: ms =>
    ',' :: newLine (level + 1) ++ printString k ++ ':' :: ' ' :: prettyAt (level + 1) v ++
      prettyMembers level ms

end

def pretty (v : Value) : Text :=
  v.prettyAt 0

end Value

end Keybindings.Json
