import Keybindings.Engine

/-!
An engine with any number of calls under way.

A call gives way to others only while it waits for the command source, so that a session is a
sequence of events: a call is made, a waiting call gets its answer and goes on to its next wait or
to its end, or a document is closed.  A cleaning waits twice, the second time in the validation of
the cleaned document.  What it does with the editor reads and changes nothing of the engine, so that
to the engine a cleaning that waits for the editor as well is one that was answered later.  Calls
made and answered without anything in between are `EngineSetup.update` and `EngineSetup.clean`
(`Session.run_update_answer`, `Session.run_clean_answer`).
-/

namespace Keybindings

/-- Where a cleaning stands when the editor is done with it. -/
inductive CleanStage where
  | ended (r : Except EngineError CleanResult)
  /-- The cleaned document was saved and is to be validated. -/
  | saved (o : CleanOutcome)

/-- The part of a cleaning between its two waits. -/
def editClean {σ : Type} (editor : Editor σ) (e : σ) (d : OpenDocument) (source : Source) :
    σ × CleanStage :=
  match source.registry with
  | .error err => (e, .ended (.error (.registry err)))
  | .ok r =>
    match cleanDocument d.text r with
    | .error err => (e, .ended (.error (.parse err)))
    | .ok outcome =>
      match editor.apply e d.uri ⟨.whole d.text, outcome.text⟩ with
      | (false, e) => (e, .ended (.ok .rejected))
      | (true, e) =>
        match editor.save e d.uri with
        | (.error err, e) => (e, .ended (.error (.host err)))
        | (.ok (), e) => (e, .saved outcome)

theorem EngineSetup.finishClean_eq {σ : Type} (setup : EngineSetup) (editor : Editor σ)
    (s : EngineState) (e : σ) (d : OpenDocument) (source : Source) (later : σ → Source) :
    setup.finishClean editor s e d source later =
      match editClean editor e d source with
      | (e, .ended r) => (s, e, r)
      | (e, .saved o) =>
        ((setup.update s { d with text := o.text } (later e)).1, e, .ok (.cleaned o)) := by
  rw [finishClean, editClean]
  cases source.registry with
  | error err => rfl
  | ok r =>
      simp only
      cases cleanDocument d.text r with
      | error err => rfl
      | ok outcome =>
          simp only
          obtain ⟨accepted, e⟩ := editor.apply e d.uri ⟨.whole d.text, outcome.text⟩
          cases accepted with
          | false => rfl
          | true =>
              simp only
              obtain ⟨saved, e⟩ := editor.save e d.uri
              cases saved with
              | error err => rfl
              | ok _ => rfl

/-- What a session keeps a record of: passes that began and documents that were closed. -/
inductive Mark where
  | begun (uri : String)
  | closed (uri : String)
  deriving DecidableEq, Repr

/-- A call that waits for the command source. -/
inductive Call where
  | cleaning (d : OpenDocument)
  /-- A validation pass, with the length that the record had right after it began.  It may be the
  end of a cleaning. -/
  | pass (p : Pass) (stamp : Nat) (cleaned : Option CleanOutcome)

/-- What a call comes to in the end.  The outcome of the pass at the end of a cleaning is not told
to anyone. -/
inductive Reply where
  | validated (o : PassOutcome)
  | cleaned (r : Except EngineError CleanResult) (validation : Option PassOutcome)

namespace Reply

def ofPass (cleaned : Option CleanOutcome) (o : PassOutcome) : Reply :=
  match cleaned with
  | none => .validated o
  | some outcome => .cleaned (.ok (.cleaned outcome)) (some o)

def outcome? : Reply → Option PassOutcome
  | validated o => some o
  | cleaned _ o => o

@[simp] theorem outcome?_ofPass (cleaned : Option CleanOutcome) (o : PassOutcome) :
    (ofPass cleaned o).outcome? = some o := by
  cases cleaned <;> rfl

end Reply

/-- An engine, an editor, the calls that wait, by their numbers, and the record. -/
structure Session (σ : Type) where
  engine : EngineState := {}
  editor : σ
  calls : Nat → Option Call := fun _ => none
  record : List Mark := []

inductive Event where
  /-- A document is opened, changed or validated anew. -/
  | update (id : Nat) (d : OpenDocument)
  | clean (id : Nat) (active : Option OpenDocument)
  /-- The command source answers a call that waits. -/
  | answer (id : Nat) (source : Source)
  | close (uri : String)

namespace Session

variable {σ : Type}

def start (e : σ) : Session σ :=
  { editor := e }

def setCall (s : Session σ) (id : Nat) (c : Option Call) : Session σ :=
  { s with calls := fun i => if i = id then c else s.calls i }

def beginPass (setup : EngineSetup) (s : Session σ) (id : Nat) (d : OpenDocument)
    (cleaned : Option CleanOutcome) : Session σ × Option Reply :=
  match setup.beginPass s.engine d with
  | (engine, none) => ({ s with engine }.setCall id none, some (.ofPass cleaned .notTarget))
  | (engine, some p) =>
    let record := s.record ++ [.begun d.uri]
    ({ s with engine, record }.setCall id (some (.pass p record.length cleaned)), none)

/-- Goes on with a call that got its answer. -/
def answer (setup : EngineSetup) (editor : Editor σ) (s : Session σ) (id : Nat) (source : Source) :
    Call → Session σ × Option Reply
  | .pass p _ cleaned =>
    let (engine, o) := setup.finishPass s.engine p source
    ({ s with engine }.setCall id none, some (.ofPass cleaned o))
  | .cleaning d =>
    match editClean editor s.editor d source with
    | (e, .ended r) => ({ s with editor := e }.setCall id none, some (.cleaned r none))
    | (e, .saved o) => beginPass setup { s with editor := e } id { d with text := o.text } (some o)

/-- The session after an event, and the reply to a call that ends with it.  The number of a call
that waits is not given to another one. -/
def step (setup : EngineSetup) (editor : Editor σ) (s : Session σ) :
    Event → Session σ × Option Reply
  | .update id d => if (s.calls id).isSome then (s, none) else beginPass setup s id d none
  | .clean id active =>
    if (s.calls id).isSome then (s, none)
    else
      match setup.cleanTarget? active with
      | none => (s, some (.cleaned (.ok .notApplicable) none))
      | some d => (s.setCall id (some (.cleaning d)), none)
  | .answer id source =>
    match s.calls id with
    | none => (s, none)
    | some c => answer setup editor s id source c
  | .close uri =>
    ({ s with engine := s.engine.close uri, record := s.record ++ [.closed uri] }, none)

def run (setup : EngineSetup) (editor : Editor σ) (s : Session σ) (events : List Event) :
    Session σ :=
  events.foldl (fun s event => (step setup editor s event).1) s

@[simp] theorem calls_setCall_self (s : Session σ) (id : Nat) (c : Option Call) :
    (s.setCall id c).calls id = c :=
  if_pos rfl

theorem calls_setCall_of_ne (s : Session σ) {id i : Nat} (h : i ≠ id) (c : Option Call) :
    (s.setCall id c).calls i = s.calls i :=
  if_neg h

@[simp] theorem engine_setCall (s : Session σ) (id : Nat) (c : Option Call) :
    (s.setCall id c).engine = s.engine := rfl

@[simp] theorem record_setCall (s : Session σ) (id : Nat) (c : Option Call) :
    (s.setCall id c).record = s.record := rfl

theorem beginPass_target {setup : EngineSetup} {d : OpenDocument} (h : setup.isTarget d)
    (s : Session σ) (id : Nat) (cleaned : Option CleanOutcome) :
    beginPass setup s id d cleaned =
      ({ s with
          engine := { s.engine with
            generations := s.engine.generations.insert d.uri (s.engine.nextGeneration d.uri) },
          record := s.record ++ [Mark.begun d.uri] }.setCall id
        (some (.pass ⟨d, s.engine.nextGeneration d.uri⟩ (s.record.length + 1) cleaned)), none) := by
  have hlength : (s.record ++ [Mark.begun d.uri]).length = s.record.length + 1 := by
    rw [List.length_append, List.length_singleton]
  rw [beginPass, EngineSetup.beginPass, if_pos h]
  simp only [hlength]

theorem beginPass_of_not_target {setup : EngineSetup} {d : OpenDocument} (h : ¬ setup.isTarget d)
    (s : Session σ) (id : Nat) (cleaned : Option CleanOutcome) :
    beginPass setup s id d cleaned =
      ({ s with engine := s.engine.clear d.uri }.setCall id none,
        some (.ofPass cleaned .notTarget)) := by
  rw [beginPass, EngineSetup.beginPass, if_neg h]

theorem step_answer {setup : EngineSetup} {editor : Editor σ} {s : Session σ} {id : Nat} {c : Call}
    (h : s.calls id = some c) (source : Source) :
    step setup editor s (.answer id source) = answer setup editor s id source c := by
  rw [step, h]

theorem step_answer_none {setup : EngineSetup} {editor : Editor σ} {s : Session σ} {id : Nat}
    (h : s.calls id = none) (source : Source) :
    step setup editor s (.answer id source) = (s, none) := by
  rw [step, h]

/-! ### Calls without anything in between -/

theorem editor_beginPass (setup : EngineSetup) (s : Session σ) (id : Nat) (d : OpenDocument)
    (cleaned : Option CleanOutcome) : (beginPass setup s id d cleaned).1.editor = s.editor := by
  rw [beginPass]
  obtain ⟨engine, p⟩ := setup.beginPass s.engine d
  cases p <;> rfl

/-- A pass that is answered as soon as it waits. -/
theorem beginPass_answer (setup : EngineSetup) (editor : Editor σ) (s : Session σ) (id : Nat)
    (d : OpenDocument) (cleaned : Option CleanOutcome) (source : Source) :
    ∃ calls record, (step setup editor (beginPass setup s id d cleaned).1 (.answer id source)).1 =
      ⟨(setup.update s.engine d source).1, s.editor, calls, record⟩ := by
  simp only [beginPass, EngineSetup.update]
  obtain ⟨engine, p⟩ := setup.beginPass s.engine d
  cases p with
  | none =>
      simp only
      rw [step_answer_none (calls_setCall_self _ id none)]
      exact ⟨_, _, rfl⟩
  | some p =>
      simp only
      rw [step_answer (calls_setCall_self _ id _)]
      exact ⟨_, _, rfl⟩

theorem run_update_answer (setup : EngineSetup) (editor : Editor σ) (s : Session σ) {id : Nat}
    (hid : s.calls id = none) (d : OpenDocument) (source : Source) :
    (run setup editor s [.update id d, .answer id source]).engine =
      (setup.update s.engine d source).1 := by
  obtain ⟨calls, record, h⟩ := beginPass_answer setup editor s id d none source
  have hupdate : step setup editor s (.update id d) = beginPass setup s id d none := by
    rw [step, hid, if_neg (by simp)]
  rw [run, List.foldl_cons, List.foldl_cons, List.foldl_nil, hupdate, h]

theorem run_clean_answer (setup : EngineSetup) (editor : Editor σ) (s : Session σ) {id : Nat}
    (hid : s.calls id = none) (active : Option OpenDocument) (source : Source)
    (later : σ → Source) :
    let s₁ := run setup editor s [.clean id active, .answer id source]
    let s₂ := run setup editor s₁ [.answer id (later s₁.editor)]
    s₂.engine = (setup.clean editor s.engine s.editor active source later).1 ∧
      s₂.editor = (setup.clean editor s.engine s.editor active source later).2.1 := by
  simp only [run, List.foldl_cons, List.foldl_nil, EngineSetup.clean]
  have hclean : step setup editor s (.clean id active) =
      match setup.cleanTarget? active with
      | none => (s, some (.cleaned (.ok .notApplicable) none))
      | some d => (s.setCall id (some (.cleaning d)), none) := by
    rw [step, hid, if_neg (by simp)]
  rw [hclean]
  cases setup.cleanTarget? active with
  | none =>
      simp only [step_answer_none hid]
      exact ⟨trivial, trivial⟩
  | some d =>
      simp only [EngineSetup.finishClean_eq]
      rw [step_answer (calls_setCall_self s id _), answer]
      have heditor : (s.setCall id (some (.cleaning d))).editor = s.editor := rfl
      rw [heditor]
      generalize editClean editor s.editor d source = p
      obtain ⟨e, stage⟩ := p
      cases stage with
      | ended r =>
          simp only
          rw [step_answer_none (calls_setCall_self _ id none)]
          exact ⟨rfl, rfl⟩
      | saved o =>
          -- the second answer is for the pass that the call began after the first one
          let s' : Session σ := { s.setCall id (some (.cleaning d)) with editor := e }
          obtain ⟨calls, record, h⟩ :=
            beginPass_answer setup editor s' id { d with text := o.text } (some o) (later e)
          simp only
          rw [editor_beginPass]
          exact ⟨congrArg engine h, congrArg Session.editor h⟩

end Session

end Keybindings
