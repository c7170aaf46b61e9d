import Keybindings.Text.Basic

/-!
The command line.

The words before the name of a command and those after it are read one by one, each side on its
own.  An option that takes a value stays pending until the next option, the next operand or the end
of its side, and only then is its value looked at.  Of two faults the first one met in this way is
reported.
-/

namespace Keybindings.Cli

inductive ReportFormat where
  | text
  | json
  deriving DecidableEq, Repr

inductive CommandName where
  | check
  | fix
  | clean
  | commands
  | config
  deriving DecidableEq, Repr

inductive Command where
  | check (file : Option String) (format : ReportFormat)
  | fix (file : Option String) (all : Bool)
  | clean (file : Option String)
  | commands (list : Bool)
  | config
  deriving DecidableEq, Repr

structure Options where
  config : Option String := none
  commands : Option String := none
  extensionsDirs : List String := []
  verbose : Bool := false
  quiet : Bool := false
  dryRun : Bool := false
  force : Bool := false
  deriving DecidableEq, Repr

structure Invocation where
  command : Option Command
  options : Options
  deriving DecidableEq, Repr

inductive UsageError where
  | unknownArgument
  | invalidSubcommand
  | invalidValue
  | argumentConflict
  | tooManyValues
  | displayHelp
  | displayVersion
  deriving DecidableEq, Repr

/-- What takes a value: the options with one, and the operand of a command. -/
inductive Slot where
  | config
  | commands
  | extensionsDir
  | format
  | file
  deriving DecidableEq, Repr

inductive Flag where
  | verbose
  | quiet
  | dryRun
  | force
  | all
  | list
  | help
  | version
  deriving DecidableEq, Repr

namespace CommandName

def ofWord? (w : String) : Option CommandName :=
  if w = "check" then some check
  else if w = "fix" then some fix
  else if w = "clean" then some clean
  else if w = "commands" then some commands
  else if w = "config" then some config
  else none

def takesFile : CommandName → Bool
  | check | fix | clean => true
  | commands | config => false

end CommandName

/-- The two kinds of sides: before any command name, and after one. -/
inductive Side where
  | top
  | after (command : CommandName)
  deriving DecidableEq, Repr

namespace Side

def knowsSlot (side : Side) : Slot → Bool
  | .format => side = .after .check
  | .file => false
  | _ => true

def knowsFlag (side : Side) : Flag → Bool
  | .all => side = .after .fix
  | .list => side = .after .commands
  | .version => side = .top
  | _ => true

def hasFile : Side → Bool
  | .top => false
  | .after command => command.takesFile

end Side

inductive Known where
  | slot (s : Slot)
  | flag (f : Flag)
  deriving DecidableEq, Repr

def longOption? (side : Side) (name : String) : Option Known :=
  let slots : List (String × Slot) :=
    [("config", .config), ("commands", .commands), ("extensions-dir", .extensionsDir),
      ("format", .format)]
  let flags : List (String × Flag) :=
    [("verbose", .verbose), ("quiet", .quiet), ("dry-run", .dryRun), ("force", .force),
      ("all", .all), ("list", .list), ("help", .help), ("version", .version)]
  match slots.lookup name, flags.lookup name with
  | some s, _ => if side.knowsSlot s then some (.slot s) else none
  | none, some f => if side.knowsFlag f then some (.flag f) else none
  | none, none => none

/-- The option with a short name.  None of them takes a value. -/
def shortFlag? (side : Side) (letter : Char) : Option Flag :=
  let flags : List (Char × Flag) :=
    [('v', .verbose), ('q', .quiet), ('h', .help), ('V', .version)]
  (flags.lookup letter).filter side.knowsFlag

inductive Word where
  /-- Two dashes alone, behind which there are only operands. -/
  | escape
  | long (name : Text) (value : Option Text)
  | short (letters : Text)
  | plain
  deriving DecidableEq, Repr

namespace Word

def ofLong (t : Text) : Word :=
  match Text.cutFirst ['='] t with
  | some (name, value) => long name (some value)
  | none => long t none

/-- The shape of a word.  A single dash is plain. -/
def ofText : Text → Word
  | ['-', '-'] => escape
  | '-' :: '-' :: t => ofLong t
  | '-' :: c :: t => short (c :: t)
  | _ => plain

end Word

structure Given where
  config : Option String := none
  commands : Option String := none
  extensionsDirs : List String := []
  format : Option ReportFormat := none
  file : Option String := none
  flags : List Flag := []
  deriving DecidableEq, Repr

namespace Given

/-- A value that may be given once.  That it is given twice is noticed before its value is looked
at. -/
def once {α : Type} (old : Option α) (value : Except UsageError α) : Except UsageError (Option α) :=
  match old with
  | some _ => .error .argumentConflict
  | none => value.map some

def path (value : String) : Except UsageError String :=
  if value = "" then .error .invalidValue else .ok value

def formatOf (value : String) : Except UsageError ReportFormat :=
  if value = "text" then .ok .text
  else if value = "json" then .ok .json
  else .error .invalidValue

def assign (g : Given) (s : Slot) (value : String) : Except UsageError Given :=
  match s with
  | .config => (once g.config (path value)).map ({ g with config := · })
  | .commands => (once g.commands (path value)).map ({ g with commands := · })
  | .extensionsDir =>
    (path value).map fun dir => { g with extensionsDirs := g.extensionsDirs ++ [dir] }
  | .format => (once g.format (formatOf value)).map ({ g with format := · })
  | .file => (once g.file (path value)).map ({ g with file := · })

/-- Sets a flag.  Asking for help or the version ends the reading. -/
def raise (g : Given) : Flag → Except UsageError Given
  | .help => .error .displayHelp
  | .version => .error .displayVersion
  | f => if g.flags.contains f then .error .argumentConflict
    else .ok { g with flags := f :: g.flags }

def has (g : Given) (f : Flag) : Bool :=
  g.flags.contains f

end Given

structure Reading where
  given : Given := {}
  /-- What waits to be set, and its value once that was met. -/
  pending : Option (Slot × Option String) := none
  /-- Whether the operands were marked by two dashes. -/
  trailing : Bool := false
  deriving DecidableEq, Repr

namespace Reading

def settle (r : Reading) : Except UsageError Reading :=
  match r.pending with
  | none => .ok r
  | some (_, none) => .error .invalidValue
  | some (s, some value) =>
    (r.given.assign s value).map fun g => { r with given := g, pending := none }

def awaits (r : Reading) : Bool :=
  match r.pending with
  | some (_, none) => !r.trailing
  | _ => false

def fileMet (r : Reading) : Bool :=
  r.given.file.isSome || r.pending.any (·.1 = .file)

/-- Sets a flag after what is pending. -/
def raise (r : Reading) (f : Flag) : Except UsageError Reading := do
  let r ← r.settle
  return { r with given := ← r.given.raise f }

def letters (side : Side) (r : Reading) : Text → Except UsageError Reading
  | [] => .ok r
  | c :: t =>
    match shortFlag? side c with
    | none => .error .unknownArgument
    | some f => do letters side (← r.raise f) t

def long (side : Side) (r : Reading) (name : Text) (value : Option Text) :
    Except UsageError Reading :=
  match longOption? side (String.ofList name), value with
  | none, _ => .error .unknownArgument
  | some (.flag f), none => r.raise f
  | some (.flag _), some _ => .error .tooManyValues
  | some (.slot s), none => do return { (← r.settle) with pending := some (s, none) }
  | some (.slot s), some value => do
    let r ← r.settle
    return { r with given := ← r.given.assign s (String.ofList value) }

/-- Reads a word that is no option.  In front of any command a word that has no place counts as an
unknown command, and the name of a command behind two dashes as an operand too many. -/
def operand (side : Side) (r : Reading) (w : String) : Except UsageError Reading :=
  if side.hasFile && !r.fileMet then do
    return { (← r.settle) with pending := some (.file, some w) }
  else if side = .top ∧ (CommandName.ofWord? w).isNone then .error .invalidSubcommand
  else .error .unknownArgument

def step (side : Side) (r : Reading) (w : String) : Except UsageError Reading :=
  if r.trailing then r.operand side w
  else
    match Word.ofText w.toList with
    | .escape => .ok { r with trailing := true }
    | .long name value => r.long side name value
    | .short ls => r.letters side ls
    | .plain =>
      match r.pending with
      | some (s, none) => .ok { r with pending := some (s, some w) }
      | _ => r.operand side w

def run (side : Side) (r : Reading) (words : List String) : Except UsageError Given := do
  return (← (← words.foldlM (step side) r).settle).given

end Reading

def Command.ofGiven (g : Given) : CommandName → Command
  | .check => .check g.file (g.format.getD .text)
  | .fix => .fix g.file (g.has .all)
  | .clean => .clean g.file
  | .commands => .commands (g.has .list)
  | .config => .config

/-- The options of both sides.  A value behind the command name counts more than one before it. -/
def Options.ofGiven (top sub : Given) : Options where
  config := sub.config <|> top.config
  commands := sub.commands <|> top.commands
  extensionsDirs := if sub.extensionsDirs = [] then top.extensionsDirs else sub.extensionsDirs
  verbose := top.has .verbose || sub.has .verbose
  quiet := top.has .quiet || sub.has .quiet
  dryRun := top.has .dryRun || sub.has .dryRun
  force := top.has .force || sub.has .force

namespace Invocation

/-- Reads the words from a point before any command name on.  What is pending there is set after
the words behind the name were read. -/
def readFrom (r : Reading) : List String → Except UsageError Invocation
  | [] => do return ⟨none, Options.ofGiven (← r.settle).given {}⟩
  | w :: ws =>
    match if r.trailing || r.awaits then none else CommandName.ofWord? w with
    | some command => do
      let sub ← Reading.run (.after command) {} ws
      let top ← r.settle
      return ⟨some (.ofGiven sub command), Options.ofGiven top.given sub⟩
    | none => do readFrom (← r.step .top w) ws

def read (words : List String) : Except UsageError Invocation :=
  readFrom {} words

end Invocation

end Keybindings.Cli
