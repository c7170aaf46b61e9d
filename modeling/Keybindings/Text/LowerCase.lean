import Keybindings.Text.Basic
import Keybindings.Text.CaseTables

/-!
Lower-casing of whole texts.

Every character has one lower-case form, with two exceptions of the standard: the dotted capital
I becomes two characters, and a capital sigma takes its final form at the end of a word.
-/

namespace Keybindings

/-- The lower-case form of a character, for all but the dotted capital I and the sigma. -/
def lowerChar (c : Char) : Char :=
  if c.toNat < 0x80 then c.toLower
  else
    match capitalRuns.find? fun (first, last, step, _) =>
        first ≤ c.toNat && c.toNat ≤ last && (c.toNat - first) % step == 0 with
    | some (first, _, _, target) => Char.ofNat (target + (c.toNat - first))
    | none => c

/-- Whether a cased character comes next, characters without influence on case passed over. -/
def casedNext (t : Text) : Bool :=
  match t.dropWhile caseIgnorableChars.contains with
  | [] => false
  | c :: _ => casedChars.contains c

namespace Text

/-- Lower-cases a text, `before` being what precedes it in reverse. -/
def lowerAfter (before : Text) : Text → Text
  | [] => []
  | c :: t =>
    let lowered :=
      if c.toNat = 0x130 then ['i', Char.ofNat 0x307]
      else if c.toNat = 0x3A3 then
        if casedNext before && !casedNext t then [Char.ofNat 0x3C2] else [Char.ofNat 0x3C3]
      else [lowerChar c]
    lowered ++ lowerAfter (c :: before) t

def lower (t : Text) : Text :=
  lowerAfter [] t

end Text

def lowerString (s : String) : String :=
  String.ofList (Text.lower s.toList)

end Keybindings
