import Keybindings.Text.Basic

/-!
Writing TOML.

A string is written in the plainest of five forms that can hold it, so that escapes are used only
for control characters and where both kinds of quotes rule the other forms out.
-/

namespace Keybindings.Toml

inductive StringForm where
  | basic
  | literal
  | linesBasic
  | linesLiteral
  deriving DecidableEq, Repr

def isControl (c : Char) : Bool :=
  (c.toNat < 0x20 && c != '\t' && c != '\n') || c.toNat == 0x7F

/-- The length of the longest run of `q`, of which `current` ended right before the text. -/
def longestRun (q : Char) (current longest : Nat) : Text → Nat
  | [] => max current longest
  | c :: t =>
    if c = q then longestRun q (current + 1) longest t
    else longestRun q 0 (max current longest) t

def stringForm (t : Text) : StringForm :=
  let control := t.any isControl
  let backslash := t.contains '\\'
  let newline := t.contains '\n'
  let doubles := longestRun '"' 0 0 t
  let singles := longestRun '\'' 0 0 t
  if !control && !backslash && doubles == 0 && !newline then .basic
  else if !control && singles == 0 && !newline then .literal
  else if !control && !backslash && doubles ≤ 2 then .linesBasic
  else if !control && singles ≤ 2 then .linesLiteral
  else if newline then .linesBasic
  else .basic

/-- The characters of a string with escapes, of which `quotes` before the text are double quotes in
a row.  On many lines newlines are kept, and only the third quote in a row is escaped. -/
def escapeText (manyLines : Bool) (quotes : Nat) : Text → Text
  | [] => []
  | c :: t =>
    if c = '"' then
      if manyLines ∧ quotes < 2 then c :: escapeText manyLines (quotes + 1) t
      else '\\' :: '"' :: escapeText manyLines 0 t
    else
      let written :=
        if c.toNat = 0x08 then ['\\', 'b']
        else if c = '\t' then ['\\', 't']
        else if c = '\n' then if manyLines then ['\n'] else ['\\', 'n']
        else if c.toNat = 0x0C then ['\\', 'f']
        else if c = '\r' then ['\\', 'r']
        else if c = '\\' then ['\\', '\\']
        else if c.toNat < 0x20 ∨ c.toNat = 0x7F then
          ['\\', 'u', '0', '0'] ++
            [(Nat.digitChar (c.toNat / 16)).toUpper, (Nat.digitChar (c.toNat % 16)).toUpper]
        else [c]
      written ++ escapeText manyLines 0 t

def openingBreak (t : Text) : Text :=
  if t.contains '\n' then ['\n'] else []

def printString (s : String) : Text :=
  let t := s.toList
  match stringForm t with
  | .basic => '"' :: escapeText false 0 t ++ ['"']
  | .literal => '\'' :: t ++ ['\'']
  | .linesBasic =>
    let quotes := List.replicate 3 '"'
    quotes ++ openingBreak t ++ escapeText true 0 t ++ quotes
  | .linesLiteral =>
    let quotes := List.replicate 3 '\''
    quotes ++ openingBreak t ++ t ++ quotes

/-- A list of strings: on one line up to one item, and otherwise one item on each line. -/
def printStrings : List String → Text
  | [] => ['[', ']']
  | [s] => '[' :: printString s ++ [']']
  | ss =>
    '[' :: '\n' :: ss.flatMap (fun s => "    ".toList ++ printString s ++ [',', '\n']) ++ [']']

def printLine (key : String) (value : Text) : Text :=
  key.toList ++ [' ', '=', ' '] ++ value ++ ['\n']

end Keybindings.Toml
