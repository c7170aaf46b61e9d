import Keybindings.Text.Span

/-!
Line starts of a text, for turning byte offsets into lines and columns.

A line ends at a newline; a carriage return before it is not part of the line's text.  Columns
count UTF-16 code units.  The index keeps for each line where it starts and which of its
characters take more than one byte.
-/

namespace Keybindings

def utf16Units (c : Char) : Nat :=
  if c.toNat < 0x10000 then 1 else 2

/-- A character of more than one byte, `column` bytes after the start of its line. -/
structure WideChar where
  column : Nat
  bytes : Nat
  units : Nat
  deriving DecidableEq, Repr

structure Line where
  start : Nat
  wide : List WideChar
  deriving DecidableEq, Repr

/-- A place in a text, both parts counted from 0 and capped at the largest 32-bit number. -/
structure Position where
  line : Nat
  character : Nat
  deriving DecidableEq, Repr

structure Range where
  start : Position
  stop : Position
  deriving DecidableEq, Repr

structure LineIndex where
  lines : List Line
  size : Nat
  deriving DecidableEq, Repr

namespace LineIndex

/-- The lines from the one on that started at `start`, of a text that goes on at `offset`. -/
def scan (start offset : Nat) : Text → List Line
  | [] => [⟨start, []⟩]
  | c :: t =>
    if c = '\n' then ⟨start, []⟩ :: scan (offset + 1) (offset + 1) t
    else if c.utf8Size = 1 then scan start (offset + 1) t
    else
      (scan start (offset + c.utf8Size) t).modifyHead fun l =>
        { l with wide := ⟨offset - start, c.utf8Size, utf16Units c⟩ :: l.wide }

def ofText (t : Text) : LineIndex :=
  ⟨scan 0 0 t, Text.size t⟩

/-- The line that holds `offset`; an offset past the end is taken as the end. -/
def lineOf (ix : LineIndex) (offset : Nat) : Nat :=
  (ix.lines.takeWhile (·.start ≤ min offset ix.size)).length - 1

def lineStart? (ix : LineIndex) (line : Nat) : Option Nat :=
  ix.lines[line]?.map (·.start)

/-- Where a line of `t` ends, its line break not counted. -/
def lineEnd? (ix : LineIndex) (t : Text) (line : Nat) : Option Nat := do
  let start ← ix.lineStart? line
  let stop := ((ix.lineStart? (line + 1)).map (· - 1)).getD ix.size
  let content ← Text.slice? t start stop
  return start + Text.size (Text.dropReturn content)

def lineText? (ix : LineIndex) (t : Text) (line : Nat) : Option Text := do
  let start ← ix.lineStart? line
  let stop ← ix.lineEnd? t line
  Text.slice? t start stop

def maxCount : Nat := 0xFFFFFFFF

def utf16Column (wide : List WideChar) (column : Nat) : Nat :=
  (wide.takeWhile (·.column < column)).foldl (fun col w => col - (w.bytes - w.units)) column

def position (ix : LineIndex) (offset : Nat) : Position :=
  let offset := min offset ix.size
  let line := ix.lineOf offset
  let character :=
    match ix.lines[line]? with
    | some l => utf16Column l.wide (offset - l.start)
    | none => 0
  ⟨min line maxCount, min character maxCount⟩

def range (ix : LineIndex) (s : Span) : Range :=
  ⟨ix.position s.start, ix.position s.stop⟩

end LineIndex

end Keybindings
