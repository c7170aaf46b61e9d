import Keybindings.Settings.Setting

/-!
The tables of a TOML document while it is read.

A table may be opened by its header only once, and a table that was made by dotted keys, or written
inline, may not be opened or extended afterwards.
-/

namespace Keybindings.Toml

inductive Node where
  /-- A value, which cannot be extended. -/
  | leaf (v : Setting)
  /-- A table: whether it was only mentioned so far, and whether dotted keys made it. -/
  | table (mentioned dotted : Bool) (entries : List (String × Node))
  /-- Tables of one name, the last one open. -/
  | tables (elements : List (List (String × Node)))

abbrev Entries := List (String × Node)

namespace Entries

def entry? (es : Entries) (k : String) : Option Node :=
  (List.find? (·.1 == k) es).map (·.2)

def set (es : Entries) (k : String) (n : Node) : Entries :=
  if es.any (·.1 == k) then es.map fun e => if e.1 == k then (k, n) else e else es ++ [(k, n)]

/-- Changes the table at the end of a path; `byDots` tells that the path is one of dotted keys.  The
change is told whether dotted keys made the table. -/
def update (byDots : Bool) (change : Bool → Entries → Option Entries) (dotted : Bool)
    (es : Entries) : List String → Option Entries
  | [] => change dotted es
  | k :: ks =>
    match es.entry? k with
    | none => do
      let inner ← update byDots change byDots [] ks
      return es.set k (.table true byDots inner)
    | some (.leaf _) => none
    | some (.table mentioned dotted inner) => do
      if byDots && !mentioned then none
      let inner ← update byDots change dotted inner ks
      return es.set k (.table mentioned dotted inner)
    | some (.tables elements) => do
      let last ← elements.getLast?
      let last ← update byDots change false last ks
      return es.set k (.tables (elements.dropLast ++ [last]))

def define (keys : List String) (v : Setting) (es : Entries) : Option Entries := do
  let path := keys.dropLast
  let key ← keys.getLast?
  update true (fun dotted es =>
    if dotted == path.isEmpty || (es.entry? key).isSome then none
    else some (es.set key (.leaf v))) false es path

/-- Opens a table by its header.  One that was only mentioned so far moves behind the others. -/
def openTable (keys : List String) (es : Entries) : Option Entries := do
  let key ← keys.getLast?
  update false (fun _ es =>
    match es.entry? key with
    | none => some (es.set key (.table false false []))
    | some (.table true false inner) =>
      some (Entries.set (es.filter (·.1 != key)) key (.table false false inner))
    | some _ => none) false es keys.dropLast

def openElement (keys : List String) (es : Entries) : Option Entries := do
  let key ← keys.getLast?
  update false (fun _ es =>
    match es.entry? key with
    | none => some (es.set key (.tables [[]]))
    | some (.tables elements) => some (es.set key (.tables (elements ++ [[]])))
    | some _ => none) false es keys.dropLast

/-- Changes the table that was opened last. -/
def inOpenTable (change : Entries → Option Entries) (es : Entries) : List String → Option Entries
  | [] => change es
  | k :: ks =>
    match es.entry? k with
    | some (.table mentioned dotted inner) => do
      let inner ← inOpenTable change inner ks
      return es.set k (.table mentioned dotted inner)
    | some (.tables elements) => do
      let last ← elements.getLast?
      let last ← inOpenTable change last ks
      return es.set k (.tables (elements.dropLast ++ [last]))
    | _ => none

end Entries

mutual

def Node.toSetting : Node → Setting
  | .leaf v => v
  | .table _ _ es => .table (entrySettings es)
  | .tables elements => .list (tableSettings elements)

def entrySettings : List (String × Node) → List (String × Setting)
  | [] => []
  | (k, n) :: es => (k, n.toSetting) :: entrySettings es

def tableSettings : List (List (String × Node)) → List Setting
  | [] => []
  | es :: elements => .table (entrySettings es) :: tableSettings elements

end

end Keybindings.Toml
