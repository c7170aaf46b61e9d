import Keybindings.Json.Value
import Keybindings.Text.Quoted
import Keybindings.Number.Shortest
import Keybindings.Text.Basic

/-!
Why a JSON text, or what it holds, is refused.
-/

namespace Keybindings.Json

inductive Cause where
  | valueCutOff
  | listCutOff
  | objectCutOff
  | stringCutOff
  | expectedValue
  | expectedIdent
  | expectedColon
  | expectedListEnd
  | expectedObjectEnd
  | keyNotString
  | trailingComma
  | trailingCharacters
  | invalidNumber
  | numberOutOfRange
  | invalidEscape
  | loneSurrogate
  | hexEscapeCutOff
  | controlCharacter
  | tooDeep
  /-- A value stands where something else was wanted. -/
  | wrongType (found : Value) (wanted : String)
  | duplicateField (name : String)
  deriving Repr

def Value.typeName : Value → String
  | .null => "null"
  | .bool b => s!"boolean `{b}`"
  | .number (.int i) => s!"integer `{i}`"
  | .number (.float x) => "floating point `" ++ String.ofList x.jsonText ++ "`"
  | .string s => "string " ++ quoted s
  | .array _ => "sequence"
  | .object _ => "map"

def Cause.message : Cause → String
  | valueCutOff => "EOF while parsing a value"
  | listCutOff => "EOF while parsing a list"
  | objectCutOff => "EOF while parsing an object"
  | stringCutOff => "EOF while parsing a string"
  | expectedValue => "expected value"
  | expectedIdent => "expected ident"
  | expectedColon => "expected `:`"
  | expectedListEnd => "expected `,` or `]`"
  | expectedObjectEnd => "expected `,` or `\x7d`"
  | keyNotString => "key must be a string"
  | trailingComma => "trailing comma"
  | trailingCharacters => "trailing characters"
  | invalidNumber => "invalid number"
  | numberOutOfRange => "number out of range"
  | invalidEscape => "invalid escape"
  | loneSurrogate => "lone leading surrogate in hex escape"
  | hexEscapeCutOff => "unexpected end of hex escape"
  | controlCharacter => "control character (\\u0000-\\u001F) found while parsing a string"
  | tooDeep => "recursion limit exceeded"
  | wrongType found wanted => "invalid type: " ++ found.typeName ++ ", expected " ++ wanted
  | duplicateField name => s!"duplicate field `{name}`"

/-- A refusal after the first `offset` bytes of a text. -/
structure Fault where
  cause : Cause
  offset : Nat
  deriving Repr

/-- The line, counted from 1, and the column reached after `n` bytes, from the given ones on. -/
def advancePlace (line column : Nat) : Nat → Text → Nat × Nat
  | n, [] => (line, column + n)
  | n, c :: t =>
    if n < c.utf8Size then (line, column + n)
    else if c = '\n' then advancePlace (line + 1) 0 (n - 1) t
    else advancePlace line (column + c.utf8Size) (n - c.utf8Size) t

def Fault.place (f : Fault) (t : Text) : Nat × Nat :=
  advancePlace 1 0 f.offset t

def Fault.message (f : Fault) (t : Text) : String :=
  let (line, column) := f.place t
  f.cause.message ++ s!" at line {line} column {column}"

end Keybindings.Json
