/-!
Sets of characters given by their boundaries.
-/

namespace Keybindings

/-- A set of characters: the code points at which membership changes, in ascending order. -/
structure CharSet where
  boundaries : List Nat

namespace CharSet

/-- A character is a member if an odd number of boundaries lie at or before it. -/
def contains (s : CharSet) (c : Char) : Bool :=
  s.boundaries.countP (· ≤ c.toNat) % 2 == 1

end CharSet

end Keybindings
