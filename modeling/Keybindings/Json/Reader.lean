import Keybindings.Json.Numeral

/-!
Reading JSON as a machine that takes one character at a time.

The state holds the containers that are open, the innermost first, and what the text may go on
with.  A refusal says how many bytes of the character at hand count as read.  A reader may also be
watched: the watch looks at every state passed through and can refuse it.
-/

namespace Keybindings.Json

/-- A container that is open: an array with its items so far, the last one first, or an object with
its members so far and the key last read. -/
inductive Frame where
  | array (items : List Value)
  | object (members : Members) (key : String)
  deriving Repr

inductive Escape where
  | none
  | slash
  /-- Among the four bytes after `u`: how many were read, and their value unless one is no digit.
  `high` is the first half of a surrogate pair. -/
  | hex (high : Option Nat) (bytes : Nat) (value : Option Nat)
  /-- The backslash before the second half of a surrogate pair is due. -/
  | pair (high : Nat)
  /-- The `u` of the second half of a surrogate pair is due. -/
  | pairMark (high : Nat)
  deriving DecidableEq, Repr

inductive Mode where
  /-- A value, at the start of the text or after a colon. -/
  | value
  /-- The first item of an array, or its end. -/
  | firstItem
  | item
  /-- The first key of an object, or its end. -/
  | firstKey
  | key
  | colon
  /-- A comma or the end of the container. -/
  | after
  /-- The rest of a word that stands for a value. -/
  | word (rest : List Char) (v : Value)
  | numeral (n : Numeral)
  /-- A string with its characters so far, the last one first. -/
  | string (asKey : Bool) (chars : List Char) (escape : Escape)
  /-- Nothing but white space. -/
  | done (v : Value)
  deriving Repr

structure State where
  frames : List Frame
  mode : Mode
  deriving Repr

/-- A refusal, with the number of bytes of the character at hand that count as read. -/
structure Refusal where
  cause : Cause
  bytes : Nat

def maxDepth : Nat := 127

def isGap (c : Char) : Bool :=
  c == ' ' || c == '\t' || c == '\n' || c == '\r'

namespace State

def start : State := ⟨[], .value⟩

def refuse {α : Type} (cause : Cause) : Except Refusal α :=
  .error ⟨cause, 1⟩

def complete (frames : List Frame) (v : Value) : State :=
  match frames with
  | [] => ⟨[], .done v⟩
  | .array items :: fs => ⟨.array (v :: items) :: fs, .after⟩
  | .object members key :: fs => ⟨.object (members.insert key v) key :: fs, .after⟩

def openFrame (frames : List Frame) (f : Frame) (m : Mode) : Except Refusal State :=
  if frames.length < maxDepth then .ok ⟨f :: frames, m⟩ else refuse .tooDeep

def beginValue (frames : List Frame) (c : Char) : Except Refusal State :=
  if c = 'n' then .ok ⟨frames, .word ['u', 'l', 'l'] .null⟩
  else if c = 't' then .ok ⟨frames, .word ['r', 'u', 'e'] (.bool true)⟩
  else if c = 'f' then .ok ⟨frames, .word ['a', 'l', 's', 'e'] (.bool false)⟩
  else if c = '-' then .ok ⟨frames, .numeral .minus⟩
  else if c = '"' then .ok ⟨frames, .string false [] .none⟩
  else if c = '[' then openFrame frames (.array []) .firstItem
  else if c = '{' then openFrame frames (.object [] "") .firstKey
  else
    match Numeral.digit? c with
    | some d => .ok ⟨frames, .numeral (.first false d)⟩
    | none => refuse .expectedValue

def separate (s : State) (c : Char) : Except Refusal State :=
  if isGap c then .ok s
  else
    match s.frames with
    | [] => refuse .trailingCharacters
    | .array items :: fs =>
      if c = ',' then .ok ⟨.array items :: fs, .item⟩
      else if c = ']' then .ok (complete fs (.array items.reverse))
      else refuse .expectedListEnd
    | .object members key :: fs =>
      if c = ',' then .ok ⟨.object members key :: fs, .key⟩
      else if c = '}' then .ok (complete fs (.object members))
      else refuse .expectedObjectEnd

def closeString (frames : List Frame) (asKey : Bool) (chars : List Char) : State :=
  let s := String.ofList chars.reverse
  if asKey then
    match frames with
    | .object members _ :: fs => ⟨.object members s :: fs, .colon⟩
    | _ => ⟨frames, .colon⟩
  else complete frames (.string s)

def hexValue? (c : Char) : Option Nat :=
  if c.isDigit then some (c.toNat - '0'.toNat)
  else if 'a' ≤ c ∧ c ≤ 'f' then some (c.toNat - 'a'.toNat + 10)
  else if 'A' ≤ c ∧ c ≤ 'F' then some (c.toNat - 'A'.toNat + 10)
  else none

/-- What a string goes on with after the four digits of a `u` escape. -/
def closeHex (chars : List Char) (high : Option Nat) (n : Nat) :
    Except Cause (List Char × Escape) :=
  match high with
  | some h =>
    if 0xDC00 ≤ n ∧ n ≤ 0xDFFF then
      .ok (Char.ofNat ((h - 0xD800) * 0x400 + (n - 0xDC00) + 0x10000) :: chars, .none)
    else .error .loneSurrogate
  | none =>
    if 0xDC00 ≤ n ∧ n ≤ 0xDFFF then .error .loneSurrogate
    else if 0xD800 ≤ n ∧ n ≤ 0xDBFF then .ok (chars, .pair n)
    else .ok (Char.ofNat n :: chars, .none)

def unescape? (c : Char) : Option Char :=
  if c = '"' ∨ c = '\\' ∨ c = '/' then some c
  else if c = 'b' then some (Char.ofNat 0x08)
  else if c = 'f' then some (Char.ofNat 0x0C)
  else if c = 'n' then some '\n'
  else if c = 'r' then some '\r'
  else if c = 't' then some '\t'
  else none

def inString (frames : List Frame) (asKey : Bool) (chars : List Char) (esc : Escape) (c : Char) :
    Except Refusal State :=
  match esc with
  | .none =>
    if c = '"' then .ok (closeString frames asKey chars)
    else if c = '\\' then .ok ⟨frames, .string asKey chars .slash⟩
    else if c.toNat < 0x20 then refuse .controlCharacter
    else .ok ⟨frames, .string asKey (c :: chars) .none⟩
  | .slash =>
    if c = 'u' then .ok ⟨frames, .string asKey chars (.hex none 0 (some 0))⟩
    else
      match unescape? c with
      | some c' => .ok ⟨frames, .string asKey (c' :: chars) .none⟩
      | none => refuse .invalidEscape
  | .hex high bytes value =>
    let value := do return (← value) * 16 + (← hexValue? c)
    if bytes + c.utf8Size < 4 then
      .ok ⟨frames, .string asKey chars (.hex high (bytes + c.utf8Size) value)⟩
    else
      match value with
      | none => .error ⟨.invalidEscape, 4 - bytes⟩
      | some n =>
        match closeHex chars high n with
        | .ok (chars, esc) => .ok ⟨frames, .string asKey chars esc⟩
        | .error cause => refuse cause
  | .pair high =>
    if c = '\\' then .ok ⟨frames, .string asKey chars (.pairMark high)⟩
    else refuse .hexEscapeCutOff
  | .pairMark high =>
    if c = 'u' then .ok ⟨frames, .string asKey chars (.hex (some high) 0 (some 0))⟩
    else refuse .hexEscapeCutOff

/-- The state after one more character, which does not end a number. -/
def take (s : State) (c : Char) : Except Refusal State :=
  match s.mode with
  | .value => if isGap c then .ok s else beginValue s.frames c
  | .firstItem =>
    if isGap c then .ok s
    else if c = ']' then separate s c
    else beginValue s.frames c
  | .item =>
    if isGap c then .ok s
    else if c = ']' then refuse .trailingComma
    else beginValue s.frames c
  | .firstKey =>
    if isGap c then .ok s
    else if c = '"' then .ok ⟨s.frames, .string true [] .none⟩
    else if c = '}' then separate s c
    else refuse .keyNotString
  | .key =>
    if isGap c then .ok s
    else if c = '"' then .ok ⟨s.frames, .string true [] .none⟩
    else if c = '}' then refuse .trailingComma
    else refuse .keyNotString
  | .colon =>
    if isGap c then .ok s
    else if c = ':' then .ok ⟨s.frames, .value⟩
    else refuse .expectedColon
  | .after | .done _ => separate s c
  | .word [] v => .ok (complete s.frames v)
  | .word (w :: ws) v =>
    if c ≠ w then refuse .expectedIdent
    else if ws = [] then .ok (complete s.frames v)
    else .ok ⟨s.frames, .word ws v⟩
  | .numeral n =>
    match n.advance c with
    | .ok (some n') => .ok ⟨s.frames, .numeral n'⟩
    | .ok none => .ok s
    | .error cause => refuse cause
  | .string asKey chars esc => inString s.frames asKey chars esc c

/-- What may be refused about a state, whatever comes next. -/
abbrev Watch := State → Option Cause

def pass (watch : Watch) (s : State) : Except Refusal State :=
  match watch s with
  | some cause => refuse cause
  | none => .ok s

/-- The state before the character `c` is taken: if it does not belong to the number that is being
read, the number is complete. -/
def settle (watch : Watch) (s : State) (c : Char) : Except Refusal State :=
  match s.mode with
  | .numeral n =>
    match n.advance c with
    | .ok none =>
      match n.finish with
      | .ok v => pass watch (complete s.frames (.number v))
      | .error cause => .error ⟨cause, 0⟩
    | _ => .ok s
  | _ => .ok s

def step (watch : Watch) (s : State) (c : Char) : Except Refusal State := do
  let s ← settle watch s c
  let s ← take s c
  pass watch s

def cutOff : List Frame → Cause
  | [] => .valueCutOff
  | .array _ :: _ => .listCutOff
  | .object _ _ :: _ => .objectCutOff

def close (s : State) : Except Cause Value :=
  match s.mode with
  | .done v => .ok v
  | .after | .firstItem | .firstKey | .colon => .error (cutOff s.frames)
  | .string _ _ _ => .error .stringCutOff
  | _ => .error .valueCutOff

/-- The value of a text that ends in the given state, a number at its end being complete. -/
def finish (watch : Watch) (s : State) : Except Cause Value :=
  match s.mode with
  | .numeral n =>
    match n.finish with
    | .ok v =>
      let s := complete s.frames (.number v)
      match watch s with
      | some cause => .error cause
      | none => s.close
    | .error cause => .error cause
  | _ => s.close

def run (watch : Watch) (offset : Nat) (s : State) : Text → Except Fault Value
  | [] =>
    match s.finish watch with
    | .ok v => .ok v
    | .error cause => .error ⟨cause, offset⟩
  | c :: t =>
    match s.step watch c with
    | .ok s => run watch (offset + c.utf8Size) s t
    | .error r => .error ⟨r.cause, offset + r.bytes⟩

end State

/-- The value that a text holds, as long as the watch lets every state pass. -/
def readWatched (watch : State.Watch) (t : Text) : Except Fault Value :=
  State.start.run watch 0 t

def read (t : Text) : Except Fault Value :=
  readWatched (fun _ => none) t

end Keybindings.Json
