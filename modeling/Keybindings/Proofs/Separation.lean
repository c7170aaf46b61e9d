import Keybindings.Proofs.Session

/-!
Documents do not interfere.

All that an engine does for a document depends on, and changes, only what it knows about this
document (`EngineState.AgreeOn`).  So if the steps of all other documents are taken out of a
session, those that are left have the same replies and leave the same diagnostics behind
(`Session.transcript_own`).

The editor is not part of the engine, and what it answers in a step belongs to the step (`Turn`);
any editor can be taken for its answers (`Session.exists_answers`).  So can the command source:
an event of `Session` carries its answers, which may be different each time.
-/

namespace Keybindings

namespace EngineState

/-- Two engines know the same about a document. -/
structure AgreeOn (uri : String) (s s' : EngineState) : Prop where
  generation : s'.generations.find? uri = s.generations.find? uri
  diagnostics : s'.diagnostics? uri = s.diagnostics? uri

variable {uri u : String} {s s' : EngineState}

theorem AgreeOn.refl (uri : String) (s : EngineState) : AgreeOn uri s s :=
  ⟨rfl, rfl⟩

theorem AgreeOn.trans {s'' : EngineState} (h : AgreeOn uri s s') (h' : AgreeOn uri s' s'') :
    AgreeOn uri s s'' :=
  ⟨h'.generation.trans h.generation, h'.diagnostics.trans h.diagnostics⟩

/-! ### Operations on other documents -/

theorem agreeOn_clear (h : uri ≠ u) (s : EngineState) : AgreeOn uri (s.clear u) s where
  generation := rfl
  diagnostics := (Dictionary.find?_erase_of_ne h s.published).symm

theorem agreeOn_close (h : uri ≠ u) (s : EngineState) : AgreeOn uri (s.close u) s where
  generation := (Dictionary.find?_erase_of_ne h s.generations).symm
  diagnostics := (Dictionary.find?_erase_of_ne h s.published).symm

theorem agreeOn_finishPass (setup : EngineSetup) {p : Pass} (h : uri ≠ p.document.uri)
    (s : EngineState) (source : Source) : AgreeOn uri (setup.finishPass s p source).1 s := by
  rw [EngineSetup.finishPass]
  cases source.registry with
  | error err => exact .refl uri s
  | ok r =>
      simp only
      split
      · exact ⟨rfl, (Dictionary.find?_insert_of_ne h _ s.published).symm⟩
      · exact .refl uri s

/-! ### Operations on the document -/

theorem AgreeOn.clear (h : AgreeOn uri s s') : AgreeOn uri (s.clear uri) (s'.clear uri) where
  generation := h.generation
  diagnostics := by
    rw [diagnostics?, diagnostics?, EngineState.clear, EngineState.clear,
      Dictionary.find?_erase_self, Dictionary.find?_erase_self]

theorem agreeOn_close_self (uri : String) (s s' : EngineState) :
    AgreeOn uri (s.close uri) (s'.close uri) where
  generation := by
    rw [close, close, Dictionary.find?_erase_self, Dictionary.find?_erase_self]
  diagnostics := by
    rw [diagnostics?, diagnostics?, close, close, Dictionary.find?_erase_self,
      Dictionary.find?_erase_self]

theorem AgreeOn.nextGeneration (h : AgreeOn uri s s') :
    s'.nextGeneration uri = s.nextGeneration uri := by
  rw [EngineState.nextGeneration, EngineState.nextGeneration, h.generation]

theorem AgreeOn.finishPass (setup : EngineSetup) {p : Pass} (h : AgreeOn p.document.uri s s')
    (source : Source) :
    AgreeOn p.document.uri (setup.finishPass s p source).1 (setup.finishPass s' p source).1 ∧
      (setup.finishPass s' p source).2 = (setup.finishPass s p source).2 := by
  rw [EngineSetup.finishPass, EngineSetup.finishPass, h.generation]
  cases source.registry with
  | error err => exact ⟨h, rfl⟩
  | ok r =>
      simp only
      split
      · refine ⟨⟨h.generation, ?_⟩, rfl⟩
        rw [diagnostics?, diagnostics?, publish, publish, Dictionary.find?_insert_self,
          Dictionary.find?_insert_self]
      · exact ⟨h, rfl⟩

end EngineState

theorem EngineSetup.eq_of_cleanTarget? {setup : EngineSetup} {active : Option OpenDocument}
    {d : OpenDocument} (h : setup.cleanTarget? active = some d) : active = some d :=
  (Option.filter_eq_some_iff.mp h).1

namespace Call

def uri : Call → String
  | cleaning d => d.uri
  | pass p _ _ => p.document.uri

/-- The call without its place in the record, which other documents have a part in. -/
def unstamped : Call → Call
  | cleaning d => .cleaning d
  | pass p _ cleaned => .pass p 0 cleaned

end Call

/-- What an editor answers in one step of a session. -/
structure EditorAnswers where
  accepts : Bool
  saving : Except HostError Unit

/-- The editor that gives these answers. -/
def EditorAnswers.editor (a : EditorAnswers) : Editor Unit where
  apply _ _ _ := (a.accepts, ())
  save _ _ := (a.saving, ())

/-- An event with the answers of the editor, in case it is asked. -/
structure Turn where
  event : Event
  answers : EditorAnswers

namespace Session

/-! ### Sessions that agree on a document -/

/-- One session does the same for a document as the other one, and has no calls for others. -/
structure Follows (uri : String) (s s' : Session Unit) : Prop where
  engine : s.engine.AgreeOn uri s'.engine
  calls : ∀ id, (s'.calls id).map Call.unstamped =
    ((s.calls id).filter (·.uri = uri)).map Call.unstamped

variable {uri : String} {s s' : Session Unit} {id : Nat}

theorem Follows.calls_eq_none (h : Follows uri s s') (hid : s.calls id = none) :
    s'.calls id = none := by
  have hcalls := h.calls id
  rw [hid] at hcalls
  exact Option.map_eq_none_iff.mp hcalls

theorem Follows.exists_call (h : Follows uri s s') {c : Call} (hid : s.calls id = some c)
    (hc : c.uri = uri) : ∃ c', s'.calls id = some c' ∧ c'.unstamped = c.unstamped := by
  have hcalls := h.calls id
  rw [hid, Option.filter_some_pos (by simpa using hc)] at hcalls
  exact Option.map_eq_some_iff.mp hcalls

theorem ne_of_calls_eq_none (hid : s.calls id = none) (c : Call) (hc : s.calls id = some c) :
    c.uri ≠ uri := by
  rw [hid] at hc
  cases hc

theorem Follows.move_left (h : Follows uri s s') {engine : EngineState} {record : List Mark}
    {c : Option Call} (hengine : engine.AgreeOn uri s.engine)
    (hold : ∀ c', s.calls id = some c' → c'.uri ≠ uri) (hnew : ∀ c', c = some c' → c'.uri ≠ uri) :
    Follows uri ({ s with engine, record }.setCall id c) s' where
  engine := hengine.trans h.engine
  calls i := by
    rw [h.calls i]
    by_cases hi : i = id
    · have hnone : ∀ {o : Option Call}, (∀ c', o = some c' → c'.uri ≠ uri) →
          o.filter (·.uri = uri) = none := fun ho =>
        Option.filter_eq_none_iff.mpr fun c' hc' => by simpa using ho c' hc'
      rw [hi, calls_setCall_self, hnone hold, hnone hnew]
    · rw [calls_setCall_of_ne _ hi]

theorem Follows.move (h : Follows uri s s') {engine engine' : EngineState}
    {record record' : List Mark} {c c' : Option Call} (hengine : engine.AgreeOn uri engine')
    (hc : ∀ c', c = some c' → c'.uri = uri) (hsame : c'.map Call.unstamped = c.map Call.unstamped) :
    Follows uri ({ s with engine, record }.setCall id c)
      ({ s' with engine := engine', record := record' }.setCall id c') where
  engine := hengine
  calls i := by
    by_cases hi : i = id
    · have hfilter : c.filter (·.uri = uri) = c := by
        cases c with
        | none => rfl
        | some c => exact Option.filter_some_pos (by simpa using hc c rfl)
      rw [hi, calls_setCall_self, calls_setCall_self, hfilter, hsame]
    · rw [calls_setCall_of_ne _ hi, calls_setCall_of_ne _ hi]
      exact h.calls i

theorem Follows.beginPass_left (h : Follows uri s s') (setup : EngineSetup) {d : OpenDocument}
    (hd : uri ≠ d.uri) (hid : ∀ c, s.calls id = some c → c.uri ≠ uri)
    (cleaned : Option CleanOutcome) : Follows uri (beginPass setup s id d cleaned).1 s' := by
  by_cases htarget : setup.isTarget d
  · rw [beginPass_target htarget]
    refine h.move_left ⟨(Dictionary.find?_insert_of_ne hd _ _).symm, rfl⟩ hid ?_
    rintro _ ⟨⟩
    exact hd.symm
  · rw [beginPass_of_not_target htarget]
    exact h.move_left (EngineState.agreeOn_clear hd s.engine) hid nofun

theorem Follows.beginPass (setup : EngineSetup) {d : OpenDocument} (h : Follows d.uri s s')
    (id : Nat) (cleaned : Option CleanOutcome) :
    Follows d.uri (beginPass setup s id d cleaned).1 (beginPass setup s' id d cleaned).1 ∧
      (beginPass setup s' id d cleaned).2 = (beginPass setup s id d cleaned).2 := by
  by_cases htarget : setup.isTarget d
  · have hnext := h.engine.nextGeneration
    rw [beginPass_target htarget, beginPass_target htarget, hnext]
    refine ⟨h.move ⟨?_, h.engine.diagnostics⟩ ?_ rfl, rfl⟩
    · rw [Dictionary.find?_insert_self, Dictionary.find?_insert_self]
    · rintro _ ⟨⟩
      rfl
  · rw [beginPass_of_not_target htarget, beginPass_of_not_target htarget]
    exact ⟨h.move h.engine.clear nofun rfl, rfl⟩

theorem Follows.answer_left (h : Follows uri s s') (setup : EngineSetup) (editor : Editor Unit)
    (source : Source) {c : Call} (hid : s.calls id = some c) (hc : c.uri ≠ uri) :
    Follows uri (answer setup editor s id source c).1 s' := by
  have hold : ∀ c', s.calls id = some c' → c'.uri ≠ uri := by
    intro c' hc'
    rw [hid] at hc'
    cases hc'
    exact hc
  cases c with
  | pass p stamp cleaned =>
      exact h.move_left (EngineState.agreeOn_finishPass setup hc.symm s.engine source) hold nofun
  | cleaning d =>
      rw [answer]
      obtain ⟨e, stage⟩ := editClean editor s.editor d source
      cases stage with
      | ended r => exact h.move_left (.refl uri s.engine) hold nofun
      | saved o =>
          exact h.beginPass_left (d := { d with text := o.text }) setup hc.symm hold (some o)

theorem Follows.answer (setup : EngineSetup) (editor : Editor Unit) (source : Source)
    {c c' : Call} (h : Follows c.uri s s') (id : Nat) (hc : c'.unstamped = c.unstamped) :
    Follows c.uri (answer setup editor s id source c).1 (answer setup editor s' id source c').1 ∧
      (answer setup editor s' id source c').2 = (answer setup editor s id source c).2 := by
  cases c with
  | pass p stamp cleaned =>
      cases c' with
      | cleaning d => cases hc
      | pass p' stamp' cleaned' =>
          cases hc
          obtain ⟨hengine, houtcome⟩ := h.engine.finishPass setup source
          exact ⟨h.move hengine nofun rfl,
            congrArg (fun o => some (Reply.ofPass cleaned o)) houtcome⟩
  | cleaning d =>
      cases c' with
      | pass p stamp cleaned => cases hc
      | cleaning d' =>
          cases hc
          simp only [Session.answer]
          obtain ⟨e, stage⟩ := editClean editor s.editor d source
          cases stage with
          | ended r => exact ⟨h.move h.engine nofun rfl, rfl⟩
          | saved o =>
              exact Follows.beginPass (d := { d with text := o.text }) setup h id (some o)

/-! ### Taking out the steps of other documents -/

/-- Whether an event is a step that does not belong to another document.  An event that makes a
call with a number in use, or that answers no call, is no step at all. -/
def concerns (s : Session Unit) (uri : String) : Event → Bool
  | .update id d => (s.calls id).isNone && d.uri = uri
  | .clean id active => (s.calls id).isNone && active.all (·.uri = uri)
  | .answer id _ => (s.calls id).any (·.uri = uri)
  | .close u => u = uri

theorem Follows.step_left (h : Follows uri s s') (setup : EngineSetup) (editor : Editor Unit)
    {event : Event} (hevent : s.concerns uri event = false) :
    Follows uri (step setup editor s event).1 s' := by
  cases event with
  | update id d =>
      rw [step]
      cases hid : s.calls id with
      | some c => exact h
      | none =>
          have hd : uri ≠ d.uri := by
            rintro rfl
            simp [concerns, hid] at hevent
          exact h.beginPass_left setup hd (ne_of_calls_eq_none hid) none
  | clean id active =>
      rw [step]
      cases hid : s.calls id with
      | some c => exact h
      | none =>
          cases htarget : setup.cleanTarget? active with
          | none => exact h
          | some d =>
              obtain rfl := EngineSetup.eq_of_cleanTarget? htarget
              refine h.move_left (.refl uri s.engine) (ne_of_calls_eq_none hid) ?_
              rintro _ ⟨⟩ rfl
              simp [concerns, hid, Call.uri] at hevent
  | answer id source =>
      rw [step]
      cases hid : s.calls id with
      | none => exact h
      | some c =>
          refine h.answer_left setup editor source hid ?_
          rintro rfl
          simp [concerns, hid] at hevent
  | close u =>
      have hu : uri ≠ u := by
        rintro rfl
        simp [concerns] at hevent
      exact ⟨(EngineState.agreeOn_close hu s.engine).trans h.engine, h.calls⟩

theorem Follows.step (h : Follows uri s s') (setup : EngineSetup) (editor : Editor Unit)
    {event : Event} (hevent : s.concerns uri event = true) :
    Follows uri (step setup editor s event).1 (step setup editor s' event).1 ∧
      (step setup editor s' event).2 = (step setup editor s event).2 := by
  cases event with
  | update id d =>
      obtain ⟨hid, rfl⟩ : s.calls id = none ∧ d.uri = uri := by simpa [concerns] using hevent
      rw [Session.step, Session.step, hid, h.calls_eq_none hid]
      exact h.beginPass setup id none
  | clean id active =>
      obtain ⟨hid, hactive⟩ : s.calls id = none ∧ ∀ d, active = some d → d.uri = uri := by
        simpa [concerns, Option.all_eq_true] using hevent
      rw [Session.step, Session.step, hid, h.calls_eq_none hid]
      cases htarget : setup.cleanTarget? active with
      | none => exact ⟨h, rfl⟩
      | some d =>
          refine ⟨h.move h.engine ?_ rfl, rfl⟩
          rintro _ ⟨⟩
          exact hactive d (EngineSetup.eq_of_cleanTarget? htarget)
  | answer id source =>
      obtain ⟨c, hid, rfl⟩ : ∃ c, s.calls id = some c ∧ c.uri = uri := by
        simpa [concerns, Option.any_eq_true] using hevent
      obtain ⟨c', hid', hc⟩ := h.exists_call hid rfl
      rw [step_answer hid, step_answer hid']
      exact h.answer setup editor source id hc
  | close u =>
      obtain rfl : u = uri := by simpa [concerns] using hevent
      exact ⟨⟨EngineState.agreeOn_close_self u s.engine s'.engine, h.calls⟩, rfl⟩

/-- One step of a session. -/
structure Moment where
  before : Session Unit
  turn : Turn
  after : Session Unit
  reply : Option Reply

namespace Moment

def concerns (m : Moment) (uri : String) : Bool :=
  m.before.concerns uri m.turn.event

/-- What is seen of a step: the reply, and what is held for a document then. -/
def view (m : Moment) (uri : String) : Option Reply × Option (List Diagnostic) :=
  (m.reply, m.after.engine.diagnostics? uri)

end Moment

def moment (setup : EngineSetup) (s : Session Unit) (turn : Turn) : Moment :=
  let (after, reply) := step setup turn.answers.editor s turn.event
  ⟨s, turn, after, reply⟩

def transcript (setup : EngineSetup) (s : Session Unit) : List Turn → List Moment
  | [] => []
  | turn :: turns =>
    moment setup s turn :: transcript setup (moment setup s turn).after turns

theorem Follows.transcript (h : Follows uri s s') (setup : EngineSetup) (turns : List Turn) :
    let own := (transcript setup s turns).filter (·.concerns uri)
    (transcript setup s' (own.map Moment.turn)).map (·.view uri) = own.map (·.view uri) := by
  induction turns generalizing s s' with
  | nil => rfl
  | cons turn turns ih =>
      have hconcerns : (moment setup s turn).concerns uri = s.concerns uri turn.event := rfl
      simp only [Session.transcript, List.filter_cons, hconcerns]
      cases hevent : s.concerns uri turn.event with
      | false => exact ih (h.step_left setup turn.answers.editor hevent)
      | true =>
          obtain ⟨hnext, hreply⟩ := h.step setup turn.answers.editor hevent
          have hview : (moment setup s' turn).view uri = (moment setup s turn).view uri :=
            Prod.ext hreply hnext.engine.diagnostics
          exact List.cons_eq_cons.mpr ⟨hview, ih hnext⟩

/-- The session without its editor. -/
def forget {σ : Type} (s : Session σ) : Session Unit :=
  ⟨s.engine, (), s.calls, s.record⟩

theorem beginPass_forget {σ : Type} (setup : EngineSetup) (s : Session σ) (id : Nat)
    (d : OpenDocument) (cleaned : Option CleanOutcome) :
    Session.beginPass setup s.forget id d cleaned =
      ((Session.beginPass setup s id d cleaned).1.forget,
        (Session.beginPass setup s id d cleaned).2) := by
  by_cases htarget : setup.isTarget d
  · rw [beginPass_target htarget, beginPass_target htarget]
    rfl
  · rw [beginPass_of_not_target htarget, beginPass_of_not_target htarget]
    rfl

theorem exists_answers_editClean {σ : Type} (editor : Editor σ) (e : σ) (d : OpenDocument)
    (source : Source) : ∃ answers : EditorAnswers,
      (editClean answers.editor () d source).2 = (editClean editor e d source).2 := by
  unfold editClean
  cases source.registry with
  | error err => exact ⟨⟨true, .ok ()⟩, rfl⟩
  | ok r =>
      simp only
      cases cleanDocument d.text r with
      | error err => exact ⟨⟨true, .ok ()⟩, rfl⟩
      | ok o =>
          simp only
          obtain ⟨accepted, e⟩ := editor.apply e d.uri ⟨.whole d.text, o.text⟩
          cases accepted with
          | false => exact ⟨⟨false, .ok ()⟩, rfl⟩
          | true =>
              simp only
              obtain ⟨saved, e⟩ := editor.save e d.uri
              cases saved with
              | error err => exact ⟨⟨true, .error err⟩, rfl⟩
              | ok _ => exact ⟨⟨true, .ok ()⟩, rfl⟩

/-- Whatever an editor does in a step, it could have had its answers ready. -/
theorem exists_answers {σ : Type} (setup : EngineSetup) (editor : Editor σ) (s : Session σ)
    (event : Event) : ∃ answers : EditorAnswers, step setup answers.editor s.forget event =
      ((step setup editor s event).1.forget, (step setup editor s event).2) := by
  have hcalls : ∀ id, s.forget.calls id = s.calls id := fun _ => rfl
  cases event with
  | update id d =>
      refine ⟨⟨true, .ok ()⟩, ?_⟩
      rw [Session.step, Session.step, hcalls]
      split
      · rfl
      · exact beginPass_forget setup s id d none
  | clean id active =>
      refine ⟨⟨true, .ok ()⟩, ?_⟩
      rw [Session.step, Session.step, hcalls]
      split
      · rfl
      · cases setup.cleanTarget? active <;> rfl
  | answer id source =>
      cases hid : s.calls id with
      | none =>
          refine ⟨⟨true, .ok ()⟩, ?_⟩
          rw [step_answer_none hid, step_answer_none ((hcalls id).trans hid)]
      | some c =>
          rw [step_answer hid]
          cases c with
          | pass p stamp cleaned =>
              refine ⟨⟨true, .ok ()⟩, ?_⟩
              rw [step_answer ((hcalls id).trans hid)]
              rfl
          | cleaning d =>
              obtain ⟨answers, hanswers⟩ := exists_answers_editClean editor s.editor d source
              refine ⟨answers, ?_⟩
              rw [step_answer ((hcalls id).trans hid), answer, answer]
              change (editClean answers.editor s.forget.editor d source).2 = _ at hanswers
              generalize editClean answers.editor s.forget.editor d source = edited at hanswers ⊢
              generalize editClean editor s.editor d source = edited' at hanswers ⊢
              obtain ⟨⟨⟩, stage⟩ := edited
              obtain ⟨e, stage'⟩ := edited'
              obtain rfl : stage = stage' := hanswers
              cases stage with
              | ended r => rfl
              | saved o => exact beginPass_forget setup { s with editor := e } id _ (some o)
  | close u => exact ⟨⟨true, .ok ()⟩, rfl⟩

/-- If the steps of all other documents are taken out of a session, the replies to the steps that
are left, and what is held for the document after each of them, are the same. -/
theorem transcript_own (setup : EngineSetup) (engine : EngineState) (uri : String)
    (turns : List Turn) :
    let own := (transcript setup { engine, editor := () } turns).filter (·.concerns uri)
    (transcript setup { engine, editor := () } (own.map Moment.turn)).map (·.view uri) =
      own.map (·.view uri) :=
  Follows.transcript ⟨.refl uri engine, fun _ => rfl⟩ setup turns

end Session

end Keybindings
