/-!
Texts and byte offsets into them.

A text is a list of characters.  Positions in a text are byte offsets of its UTF-8 form, so an
offset may fall inside a character; `splitAt?` and `slice?` answer only at character boundaries.
-/

namespace Keybindings

abbrev Text := List Char

namespace Text

/-- Number of bytes of the UTF-8 form. -/
def size : Text → Nat
  | [] => 0
  | c :: t => c.utf8Size + size t

@[simp] theorem size_nil : size [] = 0 := rfl

@[simp] theorem size_cons (c : Char) (t : Text) : size (c :: t) = c.utf8Size + size t := rfl

@[simp] theorem size_append (a b : Text) : size (a ++ b) = size a + size b := by
  induction a with
  | nil => simp
  | cons c a ih => simp only [List.cons_append, size_cons, ih, Nat.add_assoc]

/-- The text before and the text from byte offset `n`, if a character starts there. -/
def splitAt? : Nat → Text → Option (Text × Text)
  | 0, t => some ([], t)
  | _ + 1, [] => none
  | n + 1, c :: t =>
    if c.utf8Size ≤ n + 1 then
      (splitAt? (n + 1 - c.utf8Size) t).map fun (before, after) => (c :: before, after)
    else none

def slice? (t : Text) (start stop : Nat) : Option Text := do
  if stop < start then none
  let (_, rest) ← splitAt? start t
  let (content, _) ← splitAt? (stop - start) rest
  return content

/-- The text before and the text after the first occurrence of `needle`. -/
def cutFirst (needle : Text) : Text → Option (Text × Text)
  | [] => if needle = [] then some ([], []) else none
  | c :: t =>
    match needle.isPrefixOf? (c :: t) with
    | some after => some ([], after)
    | none => (cutFirst needle t).map fun (before, after) => (c :: before, after)

def beforeLast (c : Char) (t : Text) : Option Text :=
  match t.reverse.dropWhile (· != c) with
  | [] => none
  | _ :: before => some before.reverse

def beforeFirst (c : Char) (t : Text) : Option Text :=
  if t.contains c then some (t.takeWhile (· != c)) else none

def pieces (separator : Char) : Text → List Text
  | [] => [[]]
  | c :: t =>
    if c = separator then [] :: pieces separator t
    else
      match pieces separator t with
      | [] => [[c]]
      | p :: ps => (c :: p) :: ps

/-- A line without one carriage return at its end. -/
def dropReturn (l : Text) : Text :=
  if l.getLast? = some '\r' then l.dropLast else l

end Text

end Keybindings
