import Keybindings.Diagnostic

/-!
How lines for the user look, with or without colours.
-/

namespace Keybindings.Cli

structure Style where
  colors : Bool
  deriving DecidableEq, Repr

/-- The colours and weights in use, as numbers of a terminal. -/
inductive Paint where
  | bold
  | boldGreen
  | boldRed
  | boldYellow
  | yellow
  | blue
  deriving DecidableEq, Repr

namespace Paint

def numbers : Paint → Text
  | bold => ['1']
  | boldGreen => ['1', ';', '3', '2']
  | boldRed => ['1', ';', '3', '1']
  | boldYellow => ['1', ';', '3', '3']
  | yellow => ['3', '3']
  | blue => ['3', '4']

def start (p : Paint) : Text :=
  '\x1b' :: '[' :: p.numbers ++ ['m']

def reset : Text :=
  ['\x1b', '[', '0', 'm']

/-- A text in which the paint goes on wherever it would be switched off. -/
def resume (p : Paint) : Text → Text
  | '\x1b' :: '[' :: '0' :: 'm' :: t => reset ++ p.start ++ resume p t
  | c :: t => c :: resume p t
  | [] => []

end Paint

namespace Style

def paint (style : Style) (p : Paint) (s : String) : String :=
  if style.colors then String.ofList (p.start ++ p.resume s.toList ++ Paint.reset) else s

def success (style : Style) (s : String) : String :=
  style.paint .boldGreen "✓" ++ " " ++ s

def error (style : Style) (s : String) : String :=
  style.paint .boldRed "✗" ++ " " ++ s

def warning (style : Style) (s : String) : String :=
  style.paint .yellow "⚠" ++ " " ++ s

def info (style : Style) (s : String) : String :=
  style.paint .blue "ℹ" ++ " " ++ s

def header (style : Style) (s : String) : String :=
  style.paint .bold s

def listItem (s : String) : String :=
  "  • " ++ s

def keyValue (style : Style) (key value : String) : String :=
  "  " ++ style.paint .bold key ++ ": " ++ value

def severityPaint : Severity → Paint
  | .error => .boldRed
  | .warning => .boldYellow

/-- A diagnostic with the place where it starts, counted from 1, and a line for each remark. -/
def diagnostic (style : Style) (file : String) (d : Diagnostic) (ix : LineIndex) : String :=
  let start := (d.range ix).start
  let label := d.severity.name ++ "[" ++ d.kind.code ++ "]"
  style.header s!"{file}:{start.line + 1}:{start.character + 1}" ++ ": " ++
    style.paint (severityPaint d.severity) label ++ ": " ++ d.message ++
    "".intercalate (d.related.map fun r => "\n    note: " ++ r.message)

end Style

end Keybindings.Cli
