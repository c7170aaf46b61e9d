import Keybindings.Proofs.Session

/-!
Which validation passes publish.

The number that a pass takes counts the passes of its document since that was last closed
(`Session.numbered_run`).  A pass that a newer one overtook is therefore always told from it, but a
pass that was begun before its document was closed takes up again what it had to say as soon as a
later pass has the same number (`Session.answer_stale`).
-/

namespace Keybindings

/-- The number of passes after one more mark. -/
def Mark.advance (uri : String) (n : Nat) : Mark → Nat
  | .begun u => if u = uri then n + 1 else n
  | .closed u => if u = uri then 0 else n

/-- How many passes of a document began since it was last closed. -/
def passCount (uri : String) (ms : List Mark) : Nat :=
  ms.foldl (Mark.advance uri) 0

/-- What an engine holds for a document after `n` passes. -/
def lastNumber? : Nat → Option Nat
  | 0 => none
  | n + 1 => some (n + 1)

theorem lastNumber?_eq_some_iff {n m : Nat} (hm : 0 < m) : lastNumber? n = some m ↔ n = m := by
  cases n with
  | zero =>
      constructor
      · intro h
        cases h
      · intro h
        omega
  | succ n => simp [lastNumber?]

section PassCount

variable {uri : String} {ms : List Mark}

theorem passCount_begun (uri : String) (ms : List Mark) :
    passCount uri (ms ++ [.begun uri]) = passCount uri ms + 1 := by
  rw [passCount, List.foldl_append]
  exact if_pos rfl

theorem passCount_begun_of_ne {u : String} (h : u ≠ uri) (ms : List Mark) :
    passCount uri (ms ++ [.begun u]) = passCount uri ms := by
  rw [passCount, List.foldl_append]
  exact if_neg h

theorem passCount_closed (uri : String) (ms : List Mark) :
    passCount uri (ms ++ [.closed uri]) = 0 := by
  rw [passCount, List.foldl_append]
  exact if_pos rfl

theorem passCount_closed_of_ne {u : String} (h : u ≠ uri) (ms : List Mark) :
    passCount uri (ms ++ [.closed u]) = passCount uri ms := by
  rw [passCount, List.foldl_append]
  exact if_neg h

theorem passCount_append (uri : String) (ms ms' : List Mark) :
    passCount uri (ms ++ ms') = ms'.foldl (Mark.advance uri) (passCount uri ms) :=
  List.foldl_append

/-- Without a close the passes add up. -/
theorem foldl_advance_of_notMem (h : .closed uri ∉ ms) (n : Nat) :
    ms.foldl (Mark.advance uri) n = n + ms.count (.begun uri) := by
  induction ms generalizing n with
  | nil => rfl
  | cons m ms ih =>
      have htail : .closed uri ∉ ms := fun hm => h (List.mem_cons_of_mem m hm)
      rw [List.foldl_cons, ih htail]
      cases m with
      | begun u =>
          by_cases hu : u = uri
          · subst hu
            rw [Mark.advance, if_pos rfl, List.count_cons_self]
            omega
          · rw [Mark.advance, if_neg hu, List.count_cons_of_ne (by simp [hu])]
      | closed u =>
          have hu : u ≠ uri := fun hu => h (hu ▸ List.mem_cons_self)
          rw [Mark.advance, if_neg hu, List.count_cons_of_ne (by simp)]

/-- A close makes what was before it irrelevant. -/
theorem foldl_advance_of_mem (h : .closed uri ∈ ms) (n : Nat) :
    ms.foldl (Mark.advance uri) n = passCount uri ms := by
  induction ms generalizing n with
  | nil => cases h
  | cons m ms ih =>
      rw [passCount, List.foldl_cons, List.foldl_cons]
      by_cases hmem : .closed uri ∈ ms
      · rw [ih hmem, ih hmem]
      · obtain rfl : m = .closed uri := ((List.mem_cons.mp h).resolve_right hmem).symm
        rw [Mark.advance, Mark.advance, if_pos rfl, if_pos rfl]

end PassCount

/-! ### Numbers of passes -/

theorem EngineSetup.generations_finishPass (setup : EngineSetup) (s : EngineState) (p : Pass)
    (source : Source) : (setup.finishPass s p source).1.generations = s.generations := by
  rw [finishPass]
  cases source.registry with
  | error err => rfl
  | ok r =>
      simp only
      split <;> rfl

namespace Session

variable {σ : Type}

/-- The engine's numbers count the passes in the record. -/
structure Numbered (s : Session σ) : Prop where
  generation : ∀ uri, s.engine.generations.find? uri = lastNumber? (passCount uri s.record)
  pass : ∀ id p stamp cleaned, s.calls id = some (.pass p stamp cleaned) →
    stamp ≤ s.record.length ∧ 0 < p.generation ∧
      p.generation = passCount p.document.uri (s.record.take stamp)

theorem numbered_start (e : σ) : (start e).Numbered where
  generation _ := rfl
  pass _ _ _ _ h := by cases h

/-- Nothing changes if the engine's numbers and the record do not, and no pass begins. -/
theorem Numbered.mono {s s' : Session σ} (h : s.Numbered)
    (hgenerations : s'.engine.generations = s.engine.generations) (hrecord : s'.record = s.record)
    (hcalls : ∀ id p stamp cleaned, s'.calls id = some (.pass p stamp cleaned) →
      s.calls id = some (.pass p stamp cleaned)) : s'.Numbered where
  generation uri := by
    rw [hgenerations, hrecord]
    exact h.generation uri
  pass id p stamp cleaned hp := by
    rw [hrecord]
    exact h.pass id p stamp cleaned (hcalls id p stamp cleaned hp)

theorem pass_of_setCall_none {s : Session σ} {id i : Nat} {p : Pass} {stamp : Nat}
    {cleaned : Option CleanOutcome}
    (h : (s.setCall id none).calls i = some (.pass p stamp cleaned)) :
    s.calls i = some (.pass p stamp cleaned) := by
  by_cases hi : i = id
  · rw [hi, calls_setCall_self] at h
    cases h
  · rwa [calls_setCall_of_ne s hi] at h

/-- A longer record tells the same about the passes that began before. -/
theorem Numbered.pass_append {s : Session σ} (h : s.Numbered) {id : Nat} {p : Pass} {stamp : Nat}
    {cleaned : Option CleanOutcome} (hp : s.calls id = some (.pass p stamp cleaned))
    (ms : List Mark) : stamp ≤ (s.record ++ ms).length ∧ 0 < p.generation ∧
      p.generation = passCount p.document.uri ((s.record ++ ms).take stamp) := by
  obtain ⟨hle, hpos, heq⟩ := h.pass id p stamp cleaned hp
  rw [List.take_append_of_le_length hle, List.length_append]
  exact ⟨by omega, hpos, heq⟩

theorem numbered_beginPass (setup : EngineSetup) {s : Session σ} (h : s.Numbered) (id : Nat)
    (d : OpenDocument) (cleaned : Option CleanOutcome) :
    (beginPass setup s id d cleaned).1.Numbered := by
  by_cases htarget : setup.isTarget d
  · have hnext : s.engine.nextGeneration d.uri = passCount d.uri s.record + 1 := by
      rw [EngineState.nextGeneration, h.generation d.uri]
      cases passCount d.uri s.record <;> rfl
    rw [beginPass_target htarget, hnext]
    constructor
    · intro uri
      simp only [engine_setCall, record_setCall]
      -- the record has one more pass of this document, and as many of any other
      by_cases huri : d.uri = uri
      · subst huri
        rw [Dictionary.find?_insert_self, passCount_begun]
        rfl
      · rw [Dictionary.find?_insert_of_ne (Ne.symm huri), passCount_begun_of_ne huri]
        exact h.generation uri
    · intro i p stamp cleaned' hp
      by_cases hi : i = id
      · rw [hi, calls_setCall_self] at hp
        cases hp
        have hlength : (s.record ++ [Mark.begun d.uri]).length = s.record.length + 1 := by
          rw [List.length_append, List.length_singleton]
        simp only [record_setCall]
        rw [← hlength, List.take_length, passCount_begun]
        exact ⟨Nat.le_refl _, Nat.succ_pos _, rfl⟩
      · rw [calls_setCall_of_ne _ hi] at hp
        exact h.pass_append hp [.begun d.uri]
  · rw [beginPass_of_not_target htarget]
    exact h.mono rfl rfl fun _ _ _ _ hp => pass_of_setCall_none hp

theorem numbered_answer (setup : EngineSetup) (editor : Editor σ) {s : Session σ} (h : s.Numbered)
    (id : Nat) (source : Source) (c : Call) : (answer setup editor s id source c).1.Numbered := by
  cases c with
  | pass p stamp cleaned =>
      exact h.mono (setup.generations_finishPass s.engine p source) rfl
        fun _ _ _ _ hp => pass_of_setCall_none hp
  | cleaning d =>
      rw [answer]
      obtain ⟨e, stage⟩ := editClean editor s.editor d source
      cases stage with
      | ended r => exact h.mono rfl rfl fun _ _ _ _ hp => pass_of_setCall_none hp
      | saved o =>
          have hedited : ({ s with editor := e } : Session σ).Numbered :=
            h.mono rfl rfl fun _ _ _ _ hp => hp
          exact numbered_beginPass setup hedited id _ _

theorem numbered_close {s : Session σ} (h : s.Numbered) (uri : String) :
    ({ s with engine := s.engine.close uri, record := s.record ++ [.closed uri] } :
      Session σ).Numbered where
  generation u := by
    show Dictionary.find? u (Dictionary.erase uri _) = _
    by_cases hu : uri = u
    · subst hu
      rw [Dictionary.find?_erase_self, passCount_closed]
      rfl
    · rw [Dictionary.find?_erase_of_ne (Ne.symm hu), passCount_closed_of_ne hu]
      exact h.generation u
  pass _ _ _ _ hp := h.pass_append hp [.closed uri]

theorem numbered_step (setup : EngineSetup) (editor : Editor σ) {s : Session σ} (h : s.Numbered)
    (event : Event) : (step setup editor s event).1.Numbered := by
  cases event with
  | update id d =>
      rw [step]
      split
      · exact h
      · exact numbered_beginPass setup h id d none
  | clean id active =>
      rw [step]
      split
      · exact h
      · cases setup.cleanTarget? active with
        | none => exact h
        | some d =>
            refine h.mono rfl rfl fun i p stamp cleaned hp => ?_
            by_cases hi : i = id
            · rw [hi] at hp
              simp only [calls_setCall_self] at hp
              cases hp
            · exact (calls_setCall_of_ne s hi _).symm.trans hp
  | answer id source =>
      rw [step]
      cases s.calls id with
      | none => exact h
      | some c => exact numbered_answer setup editor h id source c
  | close uri => exact numbered_close h uri

theorem numbered_run (setup : EngineSetup) (editor : Editor σ) (e : σ) (events : List Event) :
    (run setup editor (start e) events).Numbered := by
  suffices h : ∀ s : Session σ, s.Numbered → (run setup editor s events).Numbered from
    h (start e) (numbered_start e)
  induction events with
  | nil => exact fun s hs => hs
  | cons event events ih => exact fun s hs => ih _ (numbered_step setup editor hs event)

/-! ### Passes that were overtaken -/

theorem finishPass_of_ne {setup : EngineSetup} {s : EngineState} {p : Pass} {source : Source}
    {r : Registry} (hr : source.registry = .ok r)
    (h : s.generations.find? p.document.uri ≠ some p.generation) :
    setup.finishPass s p source = (s, .superseded) := by
  rw [EngineSetup.finishPass, hr]
  exact if_neg h

theorem finishPass_of_eq {setup : EngineSetup} {s : EngineState} {p : Pass} {source : Source}
    {r : Registry} (hr : source.registry = .ok r)
    (h : s.generations.find? p.document.uri = some p.generation) :
    setup.finishPass s p source =
      (s.publish p.document.uri (Validation.document setup.label p.document.text r),
        .published (Validation.document setup.label p.document.text r).length) := by
  rw [EngineSetup.finishPass, hr]
  exact if_pos h

theorem finishPass_of_error {setup : EngineSetup} {s : EngineState} {p : Pass} {source : Source}
    {err : SourceError} (hr : source.registry = .error err) :
    setup.finishPass s p source = (s, .skipped) := by
  rw [EngineSetup.finishPass, hr]

/-- A waiting pass takes itself for the latest one although its document was closed since it began:
as many passes began after the last close as had begun, with it, after the close before. -/
def Revives (s : Session σ) (p : Pass) (stamp : Nat) : Prop :=
  .closed p.document.uri ∈ s.record.drop stamp ∧
    passCount p.document.uri (s.record.drop stamp) = passCount p.document.uri (s.record.take stamp)

/-- A waiting pass goes on counting where it began. -/
theorem Numbered.passCount_record {s : Session σ} (h : s.Numbered) {id : Nat} {p : Pass}
    {stamp : Nat} {cleaned : Option CleanOutcome}
    (hp : s.calls id = some (.pass p stamp cleaned)) : passCount p.document.uri s.record =
      (s.record.drop stamp).foldl (Mark.advance p.document.uri) p.generation := by
  obtain ⟨-, -, hgeneration⟩ := h.pass id p stamp cleaned hp
  rw [hgeneration, ← passCount_append, List.take_append_drop]

theorem find?_eq_iff_revives {s : Session σ} (h : s.Numbered) {id : Nat} {p : Pass} {stamp : Nat}
    {cleaned : Option CleanOutcome} (hp : s.calls id = some (.pass p stamp cleaned))
    (hstale : .begun p.document.uri ∈ s.record.drop stamp ∨
      .closed p.document.uri ∈ s.record.drop stamp) :
    s.engine.generations.find? p.document.uri = some p.generation ↔ s.Revives p stamp := by
  obtain ⟨-, hpos, hgeneration⟩ := h.pass id p stamp cleaned hp
  rw [h.generation, lastNumber?_eq_some_iff hpos, h.passCount_record hp, Revives, ← hgeneration]
  by_cases hclosed : .closed p.document.uri ∈ s.record.drop stamp
  · rw [foldl_advance_of_mem hclosed]
    exact ⟨fun h => ⟨hclosed, h⟩, fun h => h.2⟩
  · have hcount : 0 < (s.record.drop stamp).count (.begun p.document.uri) :=
      List.count_pos_iff.mpr (hstale.resolve_right hclosed)
    rw [foldl_advance_of_notMem hclosed]
    exact ⟨fun h => by omega, fun h => absurd h.1 hclosed⟩

/-- A pass that goes on after a newer one of its document began, or after the document was closed,
leaves everything as it is, unless it takes itself for the latest one. -/
theorem answer_stale (setup : EngineSetup) (editor : Editor σ) (e : σ) (events : List Event)
    {id : Nat} {p : Pass} {stamp : Nat} {cleaned : Option CleanOutcome} (source : Source)
    (hp : (run setup editor (start e) events).calls id = some (.pass p stamp cleaned))
    (hstale : .begun p.document.uri ∈ (run setup editor (start e) events).record.drop stamp ∨
      .closed p.document.uri ∈ (run setup editor (start e) events).record.drop stamp) :
    let s := run setup editor (start e) events
    let answered := step setup editor s (.answer id source)
    ((∃ err, source.registry = .error err) ∨ ¬ s.Revives p stamp →
      answered.1.engine = s.engine ∧ ∃ reply, answered.2 = some reply ∧
        (reply.outcome? = some .superseded ∨
          reply.outcome? = some .skipped ∧ ∃ err, source.registry = .error err)) ∧
    ∀ r, source.registry = .ok r → s.Revives p stamp →
      ∃ ds reply, ds = Validation.document setup.label p.document.text r ∧
        answered.1.engine.diagnostics? p.document.uri = some ds ∧
        answered.2 = some reply ∧ reply.outcome? = some (.published ds.length) := by
  have hnumbered := numbered_run setup editor e events
  generalize run setup editor (start e) events = s at hnumbered hp hstale ⊢
  have hcurrent := find?_eq_iff_revives hnumbered hp hstale
  intro s' answered
  have hanswered : answered = answer setup editor s id source (.pass p stamp cleaned) :=
    step_answer hp source
  rw [hanswered, answer]
  refine ⟨fun h => ?_, fun r hr hrevives => ?_⟩
  · cases hr : source.registry with
    | error err =>
        rw [finishPass_of_error hr]
        exact ⟨rfl, _, rfl, .inr ⟨Reply.outcome?_ofPass cleaned _, err, rfl⟩⟩
    | ok r =>
        have hne : ¬ s.Revives p stamp := by
          rcases h with ⟨err, herr⟩ | h
          · rw [hr] at herr
            cases herr
          · exact h
        rw [finishPass_of_ne hr (fun h => hne (hcurrent.mp h))]
        exact ⟨rfl, _, rfl, .inl (Reply.outcome?_ofPass cleaned _)⟩
  · rw [finishPass_of_eq hr (hcurrent.mpr hrevives)]
    exact ⟨_, _, rfl, Dictionary.find?_insert_self _ _ _, rfl, Reply.outcome?_ofPass cleaned _⟩

def sampleSetup : EngineSetup :=
  ⟨"/", some "/k.json", defaultLabel⟩

def sampleEditor : Editor Unit :=
  ⟨fun e _ _ => (true, e), fun e _ => (.ok (), e)⟩

/-- The file with an entry without a command, and empty. -/
def flawed : OpenDocument := ⟨"file:///k.json", "/k.json", "[\x7b\x7d]".toList⟩

def emptied : OpenDocument := ⟨"file:///k.json", "/k.json", "[]".toList⟩

theorem answer_stale_newer :
    let s := run sampleSetup sampleEditor (start ()) [.update 0 flawed, .update 1 emptied]
    s.calls 0 = some (.pass ⟨flawed, 1⟩ 1 none) ∧ .begun flawed.uri ∈ s.record.drop 1 ∧
      (step sampleSetup sampleEditor s (.answer 0 (.ofCommands []))).1.engine = s.engine := by
  let events : List Event := [.update 0 flawed, .update 1 emptied]
  have hp : (run sampleSetup sampleEditor (start ()) events).calls 0 =
      some (.pass ⟨flawed, 1⟩ 1 none) := rfl
  have hbegun : .begun flawed.uri ∈
      (run sampleSetup sampleEditor (start ()) events).record.drop 1 := by decide
  have h := answer_stale sampleSetup sampleEditor () events (.ofCommands []) hp (.inl hbegun)
  have hkept : ¬ (run sampleSetup sampleEditor (start ()) events).Revives ⟨flawed, 1⟩ 1 :=
    fun h => absurd h.1 (by decide)
  exact ⟨hp, hbegun, (h.1 (.inr hkept)).1⟩

theorem answer_stale_reopened :
    let s := run sampleSetup sampleEditor (start ())
      [.update 0 flawed, .close flawed.uri, .update 1 emptied, .answer 1 (.ofCommands [])]
    s.calls 0 = some (.pass ⟨flawed, 1⟩ 1 none) ∧ .closed flawed.uri ∈ s.record.drop 1 ∧
      s.engine.diagnostics? flawed.uri = some [] ∧
      ∃ d reply, step sampleSetup sampleEditor s (.answer 0 (.ofCommands [])) = reply ∧
        reply.1.engine.diagnostics? flawed.uri = some [d] ∧
        reply.2 = some (.validated (.published 1)) :=
  ⟨rfl, by decide, rfl, _, _, rfl, rfl, rfl⟩

end Session

end Keybindings
