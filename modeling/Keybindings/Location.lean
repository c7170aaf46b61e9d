import Keybindings.Entry
import Keybindings.Json.Printer
import Keybindings.Text.Span

/-!
Where the entries of a document stand in its text.

`elementSpans` walks through any text and notes the objects that lie directly inside an outermost
container.  `locate?` searches for the command property of one entry, for texts in which the
walk and the entries do not match.
-/

namespace Keybindings

inductive Quoting where
  | outside
  | inside
  | escaped
  deriving DecidableEq, Repr

structure Walk where
  depth : Nat := 0
  quoting : Quoting := .outside
  opened : Option Nat := none
  deriving DecidableEq, Repr

namespace Walk

/-- The state after the character `c` at offset `i`, and the span of an element that ends there.
Closing brackets without an opening one do nothing. -/
def step (w : Walk) (i : Nat) (c : Char) : Walk × Option Span :=
  match w.quoting with
  | .escaped => ({ w with quoting := .inside }, none)
  | .inside =>
    if c = '\\' then ({ w with quoting := .escaped }, none)
    else if c = '"' then ({ w with quoting := .outside }, none)
    else (w, none)
  | .outside =>
    if c = '"' then ({ w with quoting := .inside }, none)
    else if c = '{' then
      ({ w with depth := w.depth + 1, opened := if w.depth = 1 then some i else w.opened }, none)
    else if c = '[' then ({ w with depth := w.depth + 1 }, none)
    else if c = ']' then ({ w with depth := w.depth - 1 }, none)
    else if c = '}' then
      if w.depth - 1 = 1 then
        ({ w with depth := 1, opened := none }, w.opened.map fun start => ⟨start, i + 1⟩)
      else ({ w with depth := w.depth - 1 }, none)
    else (w, none)

def spans (w : Walk) (i : Nat) : Text → List Span
  | [] => []
  | c :: t =>
    let (w, ended) := w.step i c
    ended.toList ++ spans w (i + c.utf8Size) t

end Walk

/-- The spans of the objects directly inside the outermost array, in document order. -/
def elementSpans (t : Text) : List Span :=
  Walk.spans {} 0 t

def commandNeedle (command : String) : Text :=
  "\"command\": ".toList ++ Json.printString command

/-- The span from the last opening brace before the first command property of the entry to the
first closing brace after it. -/
def locate? (t : Text) (e : Entry) : Option Span := do
  let command ← e.commandRef?
  let needle := commandNeedle command
  let (before, after) ← Text.cutFirst needle t
  let outer ← Text.beforeLast '{' before
  let inner ← Text.beforeFirst '}' after
  return ⟨Text.size outer, Text.size before + Text.size needle + Text.size inner + 1⟩

/-- The spans of the entries of a document: by position if there is one element for each entry,
and otherwise by search. -/
def locateEntries (t : Text) (entries : List Entry) : List (Option Span) :=
  let spans := elementSpans t
  if spans.length = entries.length then spans.map some else entries.map (locate? t)

end Keybindings
