import Keybindings.Settings.Toml
import Keybindings.Settings.TomlScalar

/-!
Reading TOML 1.0.

Each reader takes the text from where it stands and answers what it read and the rest, or nothing
if the text does not fit.
-/

namespace Keybindings.Toml

def isSpace (c : Char) : Bool :=
  c == ' ' || c == '\t'

def isPlain (c : Char) : Bool :=
  c == '\t' || (0x20 ≤ c.toNat && c.toNat ≠ 0x7F)

def skipSpaces (t : Text) : Text :=
  t.dropWhile isSpace

def newline? : Text → Option Text
  | '\n' :: t => some t
  | '\r' :: '\n' :: t => some t
  | _ => none

def skipComment (t : Text) : Text :=
  match skipSpaces t with
  | '#' :: t => t.dropWhile isPlain
  | t => t

def endLine? (t : Text) : Option Text :=
  match skipComment t with
  | [] => some []
  | t => newline? t

def skipLines : Nat → Text → Text
  | 0, t => t
  | fuel + 1, t =>
    match newline? (skipComment t) with
    | some rest => skipLines fuel rest
    | none => skipComment t

def skipGaps (t : Text) : Text :=
  match newline? (skipComment t) with
  | some rest => skipLines rest.length rest
  | none => skipComment t

/-! ### Strings -/

def hexNumber? (ds : List Char) : Option Nat :=
  ds.foldlM (fun n c => do return n * 16 + (← hexValue? c)) 0

def scalar? (n : Nat) : Option Char :=
  if n.isValidChar then some (Char.ofNat n) else none

/-- The character of an escape sequence, from behind its backslash. -/
def readEscape : Text → Option (Char × Text)
  | 'b' :: t => some (Char.ofNat 0x08, t)
  | 't' :: t => some ('\t', t)
  | 'n' :: t => some ('\n', t)
  | 'f' :: t => some (Char.ofNat 0x0C, t)
  | 'r' :: t => some ('\r', t)
  | '"' :: t => some ('"', t)
  | '\\' :: t => some ('\\', t)
  | 'u' :: t => do
    if t.length < 4 then none
    return (← scalar? (← hexNumber? (t.take 4)), t.drop 4)
  | 'U' :: t => do
    if t.length < 8 then none
    return (← scalar? (← hexNumber? (t.take 8)), t.drop 8)
  | _ => none

def readBasic (fuel : Nat) (chars : List Char) (t : Text) : Option (String × Text) :=
  match fuel, t with
  | fuel + 1, c :: t =>
    if c = '"' then some (String.ofList chars.reverse, t)
    else if c = '\\' then do
      let (c, t) ← readEscape t
      readBasic fuel (c :: chars) t
    else if isPlain c then readBasic fuel (c :: chars) t
    else none
  | _, _ => none

def readLiteral (t : Text) : Option (String × Text) :=
  match t.dropWhile fun c => isPlain c && c != '\'' with
  | '\'' :: rest => some (String.ofList (t.takeWhile fun c => isPlain c && c != '\''), rest)
  | _ => none

/-- The text after spaces and line breaks, of which there must be one on the line at hand. -/
def skipLineGap (t : Text) : Option Text := do
  let t ← newline? (skipSpaces t)
  return blankLines t.length t
where
  blankLines : Nat → Text → Text
    | 0, t => t
    | fuel + 1, t =>
      match newline? (skipSpaces t) with
      | some rest => blankLines fuel rest
      | none => skipSpaces t

/-- The quotes that stand right before the three closing ones: none, one or two. -/
def extraQuotes (q : Char) (t : Text) : List Char × Text :=
  match t with
  | a :: b :: rest =>
    if a = q then if b = q then ([q, q], rest) else ([q], b :: rest) else ([], t)
  | [a] => if a = q then ([q], []) else ([], t)
  | [] => ([], [])

/-- The rest of a string on many lines, with escapes if `escapes` holds. -/
def readLines (q : Char) (escapes : Bool) (fuel : Nat) (chars : List Char) (t : Text) :
    Option (String × Text) :=
  match fuel, t with
  | fuel + 1, c :: t =>
    if c = q then
      match t with
      | a :: b :: rest =>
        if a = q ∧ b = q then
          let (extra, rest) := extraQuotes q rest
          some (String.ofList (chars.reverse ++ extra), rest)
        else readLines q escapes fuel (q :: chars) t
      | _ => none
    else if escapes ∧ c = '\\' then
      match readEscape t with
      | some (c, t) => readLines q escapes fuel (c :: chars) t
      | none => do
        let t ← skipLineGap t
        readLines q escapes fuel chars t
    else
      match newline? (c :: t) with
      | some t => readLines q escapes fuel ('\n' :: chars) t
      | none => if isPlain c then readLines q escapes fuel (c :: chars) t else none
  | _, _ => none

def dropNewline (t : Text) : Text :=
  (newline? t).getD t

def readString : Text → Option (String × Text)
  | '"' :: '"' :: '"' :: t => readLines '"' true (t.length + 1) [] (dropNewline t)
  | '\'' :: '\'' :: '\'' :: t => readLines '\'' false (t.length + 1) [] (dropNewline t)
  | '"' :: t => readBasic (t.length + 1) [] t
  | '\'' :: t => readLiteral t
  | _ => none

/-! ### Keys -/

def isBare (c : Char) : Bool :=
  c.isAlphanum || c == '_' || c == '-'

def readKey : Text → Option (String × Text)
  | '"' :: t => readBasic (t.length + 1) [] t
  | '\'' :: t => readLiteral t
  | t =>
    let bare := t.takeWhile isBare
    if bare = [] then none else some (String.ofList bare, t.dropWhile isBare)

/-- The greatest number of dotted keys, and of arrays and inline tables inside each other. -/
def maxNesting : Nat := 79

def readKeys : Nat → Text → Option (List String × Text)
  | 0, _ => none
  | fuel + 1, t => do
    let (k, t) ← readKey (skipSpaces t)
    match skipSpaces t with
    | '.' :: t =>
      let (ks, t) ← readKeys fuel t
      return (k :: ks, t)
    | t => return ([k], t)

/-! ### Values -/

/-- The items of an array, from behind its bracket or a comma. -/
def readItems (item : Text → Option (Setting × Text)) : Nat → Text → Option (List Setting × Text)
  | 0, _ => none
  | fuel + 1, t =>
    match skipGaps t with
    | ']' :: t => some ([], t)
    | t => do
      let (v, t) ← item t
      match skipGaps t with
      | ',' :: t =>
        let (vs, t) ← readItems item fuel t
        return (v :: vs, t)
      | ']' :: t => return ([v], t)
      | _ => none

def readPair (item : Text → Option (Setting × Text)) (t : Text) :
    Option ((List String × Setting) × Text) := do
  let (ks, t) ← readKeys maxNesting t
  let t ← expect '=' t
  let (v, t) ← item (skipSpaces t)
  return ((ks, v), skipSpaces t)

def readPairs (item : Text → Option (Setting × Text)) :
    Nat → Text → Option (List (List String × Setting) × Text)
  | 0, _ => none
  | fuel + 1, t => do
    let (p, t) ← readPair item t
    match t with
    | ',' :: t =>
      let (ps, t) ← readPairs item fuel t
      return (p :: ps, t)
    | '\x7d' :: t => return ([p], t)
    | _ => none

def inlineTable (pairs : List (List String × Setting)) : Option Setting := do
  let es ← pairs.foldlM (fun (es : Entries) (ks, v) => es.define ks v) []
  return .table (entrySettings es)

def readValue (depth : Nat) (t : Text) : Option (Setting × Text) :=
  match t with
  | [] => none
  | c :: rest =>
    if c = '"' ∨ c = '\'' then (readString t).map fun (s, t) => (.scalar (.text s), t)
    else if c = '[' then
      match depth with
      | 0 => none
      | depth + 1 =>
        (readItems (readValue depth) (rest.length + 1) rest).map fun (vs, t) => (.list vs, t)
    else if c = '\x7b' then
      match depth with
      | 0 => none
      | depth + 1 =>
        match skipSpaces rest with
        | '\x7d' :: t => some (.table [], t)
        | inner => do
          let (ps, t) ← readPairs (readValue depth) (inner.length + 1) inner
          return (← inlineTable ps, t)
    else
      match t with
      | 't' :: 'r' :: 'u' :: 'e' :: t => some (.scalar (.boolean true), t)
      | 'f' :: 'a' :: 'l' :: 's' :: 'e' :: t => some (.scalar (.boolean false), t)
      | t =>
        (readMoment t <|> readFloat t <|> readInteger t).map fun (v, t) => (.scalar v, t)

/-! ### Documents -/

def readHeader (closing : Nat) (t : Text) : Option (List String × Text) := do
  let (ks, t) ← readKeys maxNesting t
  if t.take closing ≠ List.replicate closing ']' then none
  return (ks, ← endLine? (t.drop closing))

/-- The entries of the lines of a document, of which `opened` is the table at hand. -/
def readDocument (fuel : Nat) (opened : List String) (es : Entries) (t : Text) : Option Entries :=
  match fuel with
  | 0 => none
  | fuel + 1 =>
    match skipSpaces t with
    | [] => some es
    | '[' :: '[' :: t => do
      let (ks, t) ← readHeader 2 t
      readDocument fuel ks (← es.openElement ks) t
    | '[' :: t => do
      let (ks, t) ← readHeader 1 t
      readDocument fuel ks (← es.openTable ks) t
    | c :: t =>
      if c = '#' ∨ c = '\n' ∨ c = '\r' then do
        readDocument fuel opened es (← endLine? (c :: t))
      else do
        let (ks, t) ← readKeys maxNesting (c :: t)
        let t ← expect '=' t
        let (v, t) ← readValue maxNesting (skipSpaces t)
        let t ← endLine? t
        readDocument fuel opened (← es.inOpenTable (·.define ks v) opened) t

/-- A document without the mark that may stand before its first character. -/
def dropMark : Text → Text
  | c :: t => if c.toNat = 0xFEFF then t else c :: t
  | [] => []

/-- The key whose string stands for a date or a time, if it is the first one of its table. -/
def momentKey : String := "$__toml_private_datetime"

mutual

def withMoments : Setting → Option Setting
  | .scalar v => some (.scalar v)
  | .list items => (itemsWithMoments items).map .list
  | .table es =>
    match es with
    | [] => some (.table [])
    | (k, v) :: es =>
      if k = momentKey then
        match v with
        | .scalar (.text s) => (moment? s.toList).map .scalar
        | _ => none
      else do
        let v ← withMoments v
        return .table ((k, v) :: (← entriesWithMoments es))

def itemsWithMoments : List Setting → Option (List Setting)
  | [] => some []
  | v :: vs => do
    let v ← withMoments v
    return v :: (← itemsWithMoments vs)

def entriesWithMoments : List (String × Setting) → Option (List (String × Setting))
  | [] => some []
  | (k, v) :: es => do
    let v ← withMoments v
    return (k, v) :: (← entriesWithMoments es)

end

/-- The value of a document: a table, unless it stands for a date or a time. -/
def read (t : Text) : Option Setting := do
  let t := dropMark t
  withMoments (.table (entrySettings (← readDocument (t.length + 1) [] [] t)))

end Keybindings.Toml
