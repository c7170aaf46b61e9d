import Keybindings.Path
import Keybindings.Text.LowerCase

/-!
Whether a path names the keybindings file.

Paths are compared by name only: relative ones are taken from the working directory, detours are
collapsed, both kinds of slashes and both cases of letters are the same.
-/

namespace Keybindings.Target

def unifySlashes (p : Text) : Text :=
  p.map fun c => if c = '\\' then '/' else c

/-- What is compared of a path. -/
def comparable (workingDir p : String) : Text :=
  let absolute := Path.joinText workingDir.toList (unifySlashes p.toList)
  Text.lower (unifySlashes (Path.ofComponents (Path.collapse (Path.components absolute))))

def isSame (workingDir candidate target : String) : Bool :=
  comparable workingDir candidate = comparable workingDir target

end Keybindings.Target
