import Keybindings.Cleaning
import Keybindings.EngineError
import Keybindings.QuickFix
import Keybindings.Target
import Keybindings.Validation

/-!
The engine between an editor and the checks.

Validation passes of one document may overlap, because a pass waits for the command source after
it has begun.  Every pass takes the next number for its document when it begins, and publishes its
diagnostics only if the document still has that number when it goes on.  Closing a document takes
the number and the diagnostics away.
-/

namespace Keybindings

structure OpenDocument where
  uri : String
  path : String
  text : Text
  deriving DecidableEq, Repr

def fileUri (path : String) : String :=
  String.ofList ("file://".toList ++ Target.unifySlashes path.toList)

def OpenDocument.ofPath (path : String) (t : Text) : OpenDocument :=
  ⟨fileUri path, path, t⟩

/-- The editor of documents, as a machine with states `σ`. -/
structure Editor (σ : Type) where
  /-- Proposes an edit; the answer tells whether it was accepted. -/
  apply : σ → String → Edit → Bool × σ
  save : σ → String → Except HostError Unit × σ

inductive PassOutcome where
  /-- The document is not the keybindings file, and its diagnostics were cleared. -/
  | notTarget
  | published (count : Nat)
  /-- A newer pass for the document began first, or the document was closed. -/
  | superseded
  /-- No command source could be read, and the diagnostics were kept. -/
  | skipped
  deriving DecidableEq, Repr

inductive CleanResult where
  /-- There is no active document, or it is not the keybindings file. -/
  | notApplicable
  /-- The editor did not accept the new text, and nothing was saved. -/
  | rejected
  | cleaned (outcome : CleanOutcome)
  deriving DecidableEq, Repr

structure EngineSetup where
  workingDir : String
  /-- The keybindings file, if one is known. -/
  target : Option String
  label : String
  deriving DecidableEq, Repr

/-- What an engine remembers: the number of the last pass of each document that was not closed
since, and the published diagnostics.  The numbers are taken as unbounded: a counter of 64 bits
would start anew after `2 ^ 64` passes for one document. -/
structure EngineState where
  generations : Dictionary Nat := []
  published : Dictionary (List Diagnostic) := []
  deriving DecidableEq, Repr

namespace EngineState

def diagnostics? (s : EngineState) (uri : String) : Option (List Diagnostic) :=
  s.published.find? uri

def publish (s : EngineState) (uri : String) (ds : List Diagnostic) : EngineState :=
  { s with published := s.published.insert uri ds }

def clear (s : EngineState) (uri : String) : EngineState :=
  { s with published := s.published.erase uri }

def close (s : EngineState) (uri : String) : EngineState :=
  { generations := s.generations.erase uri, published := s.published.erase uri }

def nextGeneration (s : EngineState) (uri : String) : Nat :=
  (s.generations.find? uri).getD 0 + 1

end EngineState

structure Pass where
  document : OpenDocument
  generation : Nat
  deriving DecidableEq, Repr

namespace EngineSetup

def isTarget (setup : EngineSetup) (d : OpenDocument) : Bool :=
  match setup.target with
  | some target => Target.isSame setup.workingDir d.path target
  | none => false

/-- Begins a validation pass.  It waits for the command source, unless the document is not the
keybindings file. -/
def beginPass (setup : EngineSetup) (s : EngineState) (d : OpenDocument) :
    EngineState × Option Pass :=
  if setup.isTarget d then
    let n := s.nextGeneration d.uri
    ({ s with generations := s.generations.insert d.uri n }, some ⟨d, n⟩)
  else (s.clear d.uri, none)

def finishPass (setup : EngineSetup) (s : EngineState) (p : Pass) (source : Source) :
    EngineState × PassOutcome :=
  match source.registry with
  | .error _ => (s, .skipped)
  | .ok r =>
    if s.generations.find? p.document.uri = some p.generation then
      let ds := Validation.document setup.label p.document.text r
      (s.publish p.document.uri ds, .published ds.length)
    else (s, .superseded)

/-- A validation pass without anything in between. -/
def update (setup : EngineSetup) (s : EngineState) (d : OpenDocument) (source : Source) :
    EngineState × PassOutcome :=
  match setup.beginPass s d with
  | (s, none) => (s, .notTarget)
  | (s, some p) => setup.finishPass s p source

def codeActions (setup : EngineSetup) (d : OpenDocument) (ds : List Diagnostic) :
    List CodeAction :=
  if setup.isTarget d then Keybindings.codeActions d.text d.uri ds else []

/-- The document that a cleaning goes on with once the command source answers, if it applies. -/
def cleanTarget? (setup : EngineSetup) (active : Option OpenDocument) : Option OpenDocument :=
  active.filter setup.isTarget

/-- Ends a cleaning with the answers of the command source, to which `later` are those for the
validation of the cleaned document. -/
def finishClean {σ : Type} (setup : EngineSetup) (editor : Editor σ) (s : EngineState) (e : σ)
    (d : OpenDocument) (source : Source) (later : σ → Source) :
    EngineState × σ × Except EngineError CleanResult :=
  match source.registry with
  | .error err => (s, e, .error (.registry err))
  | .ok r =>
    match cleanDocument d.text r with
    | .error err => (s, e, .error (.parse err))
    | .ok outcome =>
      match editor.apply e d.uri ⟨.whole d.text, outcome.text⟩ with
      | (false, e) => (s, e, .ok .rejected)
      | (true, e) =>
        match editor.save e d.uri with
        | (.error err, e) => (s, e, .error (.host err))
        | (.ok (), e) =>
          let (s, _) := setup.update s { d with text := outcome.text } (later e)
          (s, e, .ok (.cleaned outcome))

def clean {σ : Type} (setup : EngineSetup) (editor : Editor σ) (s : EngineState) (e : σ)
    (active : Option OpenDocument) (source : Source) (later : σ → Source) :
    EngineState × σ × Except EngineError CleanResult :=
  match setup.cleanTarget? active with
  | none => (s, e, .ok .notApplicable)
  | some d => setup.finishClean editor s e d source later

end EngineSetup

end Keybindings
