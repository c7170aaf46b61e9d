import Keybindings.Text.Basic

/-!
Half-open byte ranges of a text.
-/

namespace Keybindings

/-- The bytes from `start` up to, but not including, `stop`. -/
structure Span where
  start : Nat
  stop : Nat
  deriving DecidableEq, Repr, Inhabited

namespace Span

def whole (t : Text) : Span :=
  ⟨0, Text.size t⟩

/-- Number of bytes covered; none if the ends are the wrong way round. -/
def size (s : Span) : Nat :=
  s.stop - s.start

def isEmpty (s : Span) : Bool :=
  s.size == 0

/-- The covered part of `t`, if both ends are character boundaries of `t` in order. -/
def slice? (s : Span) (t : Text) : Option Text :=
  Text.slice? t s.start s.stop

end Span

end Keybindings
