import Keybindings.Text.Span

/-!
Replacing one span of a text.
-/

namespace Keybindings

structure Edit where
  span : Span
  newText : Text
  deriving DecidableEq, Repr

inductive EditError where
  /-- The span is the wrong way round or ends after the text's last byte. -/
  | outOfBounds (span : Span) (size : Nat)
  /-- One end of the span lies inside a character. -/
  | notCharBoundary (span : Span)
  deriving DecidableEq, Repr

namespace EditError

def message : EditError → String
  | outOfBounds ⟨start, stop⟩ size =>
    s!"Edit range {start}..{stop} is out of bounds for a document of {size} bytes"
  | notCharBoundary ⟨start, stop⟩ =>
    s!"Edit range {start}..{stop} does not fall on character boundaries"

end EditError

namespace Edit

def delete (span : Span) : Edit :=
  ⟨span, []⟩

def apply (e : Edit) (t : Text) : Except EditError Text :=
  if e.span.stop < e.span.start ∨ Text.size t < e.span.stop then
    .error (.outOfBounds e.span (Text.size t))
  else
    match Text.splitAt? e.span.start t, Text.splitAt? e.span.stop t with
    | some (before, _), some (_, after) => .ok (before ++ e.newText ++ after)
    | _, _ => .error (.notCharBoundary e.span)

end Edit

end Keybindings
