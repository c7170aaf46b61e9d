import Keybindings.Proofs.Aggregation
import Keybindings.Proofs.Publication
import Keybindings.Proofs.Validation
import Mathlib.Data.List.Induction

/-!
What is held for a document in the course of a session.

A pass that no newer one and no close overtook publishes, whatever else goes on meanwhile
(`Session.answer_latest`).  Diagnostics are held only for a document of which a pass was begun
since it was last closed, so that passes that outlive the close do not bring any back
(`Session.diagnostics_opened`).
-/

namespace Keybindings

/-! ### What a pass has to say -/

def Diagnostic.withSource (label : String) (d : Diagnostic) : Diagnostic :=
  { d with source := label }

theorem Validation.problem?_withSource (label label' : String) (r : Registry) (e : Entry)
    (s : Span) : problem? label r e s = (problem? label' r e s).map (.withSource label) := by
  rw [problem?_eq, problem?_eq]
  split
  · rfl
  · rw [Option.map_some, flag, flag]
    cases e.commandRef? <;> rfl

/-- The label is all that diagnostics take from the configuration. -/
theorem Validation.document_withSource (label label' : String) (t : Text) (r : Registry) :
    document label t r = (document label' t r).map (.withSource label) := by
  rw [document, document]
  cases Document.parse t with
  | error e => rfl
  | ok es =>
      simp only [entries, List.map_filterMap]
      refine List.filterMap_congr fun located _ => ?_
      obtain ⟨e, span⟩ := located
      cases span with
      | none => rfl
      | some span => exact problem?_withSource label label' r e span

namespace Session

variable {σ : Type}

/-! ### The latest pass -/

/-- Since a waiting pass began, no other one of its document did, and the document was not
closed. -/
def IsLatest (s : Session σ) (p : Pass) (stamp : Nat) : Prop :=
  .begun p.document.uri ∉ s.record.drop stamp ∧ .closed p.document.uri ∉ s.record.drop stamp

theorem Numbered.find?_of_isLatest {s : Session σ} (h : s.Numbered) {id : Nat} {p : Pass}
    {stamp : Nat} {cleaned : Option CleanOutcome}
    (hp : s.calls id = some (.pass p stamp cleaned)) (hlatest : s.IsLatest p stamp) :
    s.engine.generations.find? p.document.uri = some p.generation := by
  obtain ⟨-, hpos, -⟩ := h.pass id p stamp cleaned hp
  rw [h.generation, lastNumber?_eq_some_iff hpos, h.passCount_record hp,
    foldl_advance_of_notMem hlatest.2, List.count_eq_zero_of_not_mem hlatest.1, Nat.add_zero]

/-- The latest pass of a document publishes what it finds, if any command can be listed at all. -/
theorem answer_latest (setup : EngineSetup) (editor : Editor σ) (e : σ) (events : List Event)
    {id : Nat} {p : Pass} {stamp : Nat} {cleaned : Option CleanOutcome} {source : Source}
    (hp : (run setup editor (start e) events).calls id = some (.pass p stamp cleaned))
    (hlatest : (run setup editor (start e) events).IsLatest p stamp)
    (hreadable : source.IsReadable) :
    let answered := step setup editor (run setup editor (start e) events) (.answer id source)
    ∃ r ds, source.registry = .ok r ∧
      ds = (Validation.document defaultLabel p.document.text r).map (.withSource setup.label) ∧
      answered.2 = some (.ofPass cleaned (.published ds.length)) ∧
      answered.1.engine.diagnostics? p.document.uri = some ds := by
  have hcurrent := (numbered_run setup editor e events).find?_of_isLatest hp hlatest
  obtain ⟨r, hr⟩ := Source.isReadable_iff.mp hreadable
  refine ⟨r, Validation.document setup.label p.document.text r, hr,
    Validation.document_withSource setup.label defaultLabel _ r, ?_⟩
  rw [step_answer hp, answer, finishPass_of_eq hr hcurrent]
  exact ⟨rfl, Dictionary.find?_insert_self _ _ _⟩

/-- The latest of two passes of a document publishes after the other one was answered and another
document was closed. -/
theorem answer_latest_overtaking :
    let s := run sampleSetup sampleEditor (start ())
      [.update 0 emptied, .update 1 flawed, .close "file:///other.json",
        .answer 0 (.ofCommands [])]
    let answered := step sampleSetup sampleEditor s (.answer 1 (.ofCommands []))
    s.calls 1 = some (.pass ⟨flawed, 2⟩ 2 none) ∧ s.IsLatest ⟨flawed, 2⟩ 2 ∧
      answered.2 = some (.validated (.published 1)) ∧
      ∃ d, answered.1.engine.diagnostics? flawed.uri = some [d] := by
  let events : List Event :=
    [.update 0 emptied, .update 1 flawed, .close "file:///other.json", .answer 0 (.ofCommands [])]
  have hp : (run sampleSetup sampleEditor (start ()) events).calls 1 =
      some (.pass ⟨flawed, 2⟩ 2 none) := rfl
  have hlatest : (run sampleSetup sampleEditor (start ()) events).IsLatest ⟨flawed, 2⟩ 2 :=
    ⟨by decide, by decide⟩
  have hreadable : (Source.ofCommands []).IsReadable := .inl ⟨[], rfl⟩
  obtain ⟨r, ds, hr, hds, hreply, hheld⟩ :=
    answer_latest sampleSetup sampleEditor () events hp hlatest hreadable
  cases hr
  have hlength : ds.length = 1 := by
    rw [hds]
    rfl
  rw [hlength] at hreply
  exact ⟨hp, hlatest, hreply, _, hheld.trans (congrArg some hds)⟩

end Session

/-! ### Closed documents -/

/-- A pass of the document began after it was last closed. -/
def IsOpened (uri : String) (ms : List Mark) : Prop :=
  ∃ before after, ms = before ++ .begun uri :: after ∧ .closed uri ∉ after

theorem IsOpened.concat {uri : String} {ms : List Mark} (h : IsOpened uri ms) {m : Mark}
    (hm : m ≠ .closed uri) : IsOpened uri (ms ++ [m]) := by
  obtain ⟨before, after, rfl, hafter⟩ := h
  refine ⟨before, after ++ [m], by rw [List.append_assoc, List.cons_append], fun hmem => ?_⟩
  rcases List.mem_append.mp hmem with hmem | hmem
  · exact hafter hmem
  · exact hm (List.mem_singleton.mp hmem).symm

theorem passCount_pos_iff {uri : String} {ms : List Mark} :
    0 < passCount uri ms ↔ IsOpened uri ms := by
  constructor
  · intro h
    induction ms using List.reverseRecOn with
    | nil => cases h
    | append_singleton ms m ih =>
        cases m with
        | begun u =>
            by_cases hu : u = uri
            · exact ⟨ms, [], by rw [hu], List.not_mem_nil⟩
            · rw [passCount_begun_of_ne hu] at h
              exact (ih h).concat Mark.noConfusion
        | closed u =>
            by_cases hu : u = uri
            · rw [hu, passCount_closed] at h
              cases h
            · rw [passCount_closed_of_ne hu] at h
              exact (ih h).concat fun hm => hu (Mark.closed.inj hm)
  · rintro ⟨before, after, rfl, hafter⟩
    rw [← List.singleton_append, ← List.append_assoc, passCount_append,
      foldl_advance_of_notMem hafter, passCount_begun]
    omega

theorem passCount_eq_zero {uri : String} {ms : List Mark} (h : .begun uri ∉ ms) :
    passCount uri ms = 0 := by
  by_contra hne
  obtain ⟨before, after, rfl, -⟩ := passCount_pos_iff.mp (Nat.pos_of_ne_zero hne)
  exact h (List.mem_append_right before List.mem_cons_self)

/-- Diagnostics are held only for documents with a number. -/
def EngineState.IsCovered (s : EngineState) : Prop :=
  ∀ uri, (s.diagnostics? uri).isSome → (s.generations.find? uri).isSome

namespace EngineState.IsCovered

variable {s : EngineState}

theorem clear (h : s.IsCovered) (uri : String) : (s.clear uri).IsCovered := by
  intro u hu
  by_cases huri : u = uri
  · subst huri
    rw [diagnostics?, EngineState.clear, Dictionary.find?_erase_self] at hu
    cases hu
  · rw [diagnostics?, EngineState.clear, Dictionary.find?_erase_of_ne huri] at hu
    exact h u hu

theorem close (h : s.IsCovered) (uri : String) : (s.close uri).IsCovered := by
  intro u hu
  by_cases huri : u = uri
  · subst huri
    rw [diagnostics?, EngineState.close, Dictionary.find?_erase_self] at hu
    cases hu
  · rw [diagnostics?, EngineState.close, Dictionary.find?_erase_of_ne huri] at hu
    rw [EngineState.close, Dictionary.find?_erase_of_ne huri]
    exact h u hu

theorem beginPass (h : s.IsCovered) (setup : EngineSetup) (d : OpenDocument) :
    (setup.beginPass s d).1.IsCovered := by
  rw [EngineSetup.beginPass]
  split
  · intro u hu
    by_cases huri : u = d.uri
    · rw [huri, Dictionary.find?_insert_self]
      rfl
    · rw [Dictionary.find?_insert_of_ne huri]
      exact h u hu
  · exact h.clear d.uri

theorem finishPass (h : s.IsCovered) (setup : EngineSetup) (p : Pass) (source : Source) :
    (setup.finishPass s p source).1.IsCovered := by
  rw [EngineSetup.finishPass]
  cases source.registry with
  | error err => exact h
  | ok r =>
      simp only
      split
      · next hcurrent =>
        intro u hu
        by_cases huri : u = p.document.uri
        · rw [huri, publish, hcurrent]
          rfl
        · rw [diagnostics?, publish, Dictionary.find?_insert_of_ne huri] at hu
          exact h u hu
      · exact h

end EngineState.IsCovered

namespace Session

variable {σ : Type}

/-- A property of an engine and the record that every operation of the engine keeps. -/
structure IsKept (setup : EngineSetup) (P : EngineState → List Mark → Prop) : Prop where
  begun : ∀ s ms d, setup.isTarget d → P s ms → P (setup.beginPass s d).1 (ms ++ [.begun d.uri])
  cleared : ∀ s ms uri, P s ms → P (s.clear uri) ms
  finished : ∀ s ms p source, P s ms → P (setup.finishPass s p source).1 ms
  closed : ∀ s ms uri, P s ms → P (s.close uri) (ms ++ [.closed uri])

section IsKept

variable {setup : EngineSetup} {P : EngineState → List Mark → Prop}

theorem IsKept.beginPass (h : IsKept setup P) {s : Session σ} (hs : P s.engine s.record) (id : Nat)
    (d : OpenDocument) (cleaned : Option CleanOutcome) :
    P (beginPass setup s id d cleaned).1.engine (beginPass setup s id d cleaned).1.record := by
  by_cases htarget : setup.isTarget d
  · have hbegun := h.begun s.engine s.record d htarget hs
    rw [EngineSetup.beginPass, if_pos htarget] at hbegun
    rw [beginPass_target htarget]
    exact hbegun
  · rw [beginPass_of_not_target htarget]
    exact h.cleared s.engine s.record d.uri hs

theorem IsKept.step (h : IsKept setup P) (editor : Editor σ) {s : Session σ}
    (hs : P s.engine s.record) (event : Event) :
    P (step setup editor s event).1.engine (step setup editor s event).1.record := by
  cases event with
  | update id d =>
      rw [Session.step]
      split
      · exact hs
      · exact h.beginPass hs id d none
  | clean id active =>
      rw [Session.step]
      split
      · exact hs
      · cases setup.cleanTarget? active <;> exact hs
  | answer id source =>
      rw [Session.step]
      cases s.calls id with
      | none => exact hs
      | some c =>
          cases c with
          | pass p stamp cleaned => exact h.finished s.engine s.record p source hs
          | cleaning d =>
              simp only [answer]
              obtain ⟨e, stage⟩ := editClean editor s.editor d source
              cases stage with
              | ended r => exact hs
              | saved o => exact h.beginPass (s := { s with editor := e }) hs id _ _
  | close uri => exact h.closed s.engine s.record uri hs

theorem IsKept.run (h : IsKept setup P) (editor : Editor σ) {s : Session σ}
    (hs : P s.engine s.record) (events : List Event) :
    P (run setup editor s events).engine (run setup editor s events).record := by
  induction events generalizing s with
  | nil => exact hs
  | cons event events ih => exact ih (h.step editor hs event)

end IsKept

theorem isKept_isCovered (setup : EngineSetup) : IsKept setup fun s _ => s.IsCovered where
  begun _ _ d _ h := h.beginPass setup d
  cleared _ _ uri h := h.clear uri
  finished _ _ p source h := h.finishPass setup p source
  closed _ _ uri h := h.close uri

theorem isCovered_run (setup : EngineSetup) (editor : Editor σ) (e : σ) (events : List Event) :
    (run setup editor (start e) events).engine.IsCovered :=
  (isKept_isCovered setup).run editor (s := start e) (fun _ hu => by cases hu) events

theorem isKept_record (setup : EngineSetup) (past : List Mark) :
    IsKept setup fun _ ms => past <+: ms where
  begun _ ms d _ h := h.trans (List.prefix_append ms [.begun d.uri])
  cleared _ _ _ h := h
  finished _ _ _ _ h := h
  closed _ ms uri h := h.trans (List.prefix_append ms [.closed uri])

theorem exists_record_run (setup : EngineSetup) (editor : Editor σ) (s : Session σ)
    (events : List Event) : ∃ ms, s.record ++ ms = (run setup editor s events).record :=
  (isKept_record setup s.record).run editor List.prefix_rfl events

theorem run_append (setup : EngineSetup) (editor : Editor σ) (s : Session σ)
    (events events' : List Event) :
    run setup editor s (events ++ events') = run setup editor (run setup editor s events) events' :=
  List.foldl_append

/-- As long as no pass begins after a document was closed, the document has no number. -/
theorem find?_run_close (setup : EngineSetup) (editor : Editor σ) (e : σ) (uri : String)
    (before after : List Event) :
    let s := run setup editor (start e) (before ++ .close uri :: after)
    .begun uri ∉ s.record.drop (run setup editor (start e) before).record.length →
      s.engine.generations.find? uri = none := by
  intro s hbegun
  have hrun : s = run setup editor
      (step setup editor (run setup editor (start e) before) (.close uri)).1 after :=
    run_append setup editor (start e) before (.close uri :: after)
  obtain ⟨ms, hms⟩ := exists_record_run setup editor
    (step setup editor (run setup editor (start e) before) (.close uri)).1 after
  have hrecord : s.record = (run setup editor (start e) before).record ++ .closed uri :: ms := by
    rw [hrun, ← hms, step, List.append_assoc, List.singleton_append]
  rw [hrecord, List.drop_left] at hbegun
  have hcount : passCount uri s.record = 0 := by
    rw [hrecord, passCount_append, foldl_advance_of_mem List.mem_cons_self,
      passCount_eq_zero hbegun]
  rw [(numbered_run setup editor e _).generation, hcount]
  rfl

/-- Diagnostics are held only for documents with a number, and these are the documents of which a
pass began since they were last closed.  After a close nothing is held for a document until a pass
of it begins, also if passes from before the close are answered. -/
theorem diagnostics_opened (setup : EngineSetup) (editor : Editor σ) (e : σ) (events : List Event)
    (uri : String) :
    let s := run setup editor (start e) events
    ((s.engine.diagnostics? uri).isSome → (s.engine.generations.find? uri).isSome) ∧
      ((s.engine.generations.find? uri).isSome ↔ IsOpened uri s.record) ∧
      ∀ before after, events = before ++ .close uri :: after →
        .begun uri ∉ s.record.drop (run setup editor (start e) before).record.length →
        s.engine.diagnostics? uri = none := by
  have hcovered := isCovered_run setup editor e events uri
  refine ⟨hcovered, ?_, ?_⟩
  · rw [(numbered_run setup editor e events).generation, ← passCount_pos_iff]
    cases passCount uri (run setup editor (start e) events).record with
    | zero => exact iff_of_false Bool.false_ne_true (Nat.lt_irrefl 0)
    | succ n => exact iff_of_true rfl (Nat.succ_pos n)
  · rintro before after rfl hbegun
    have hnone := find?_run_close setup editor e uri before after hbegun
    rw [hnone] at hcovered
    exact Option.not_isSome_iff_eq_none.mp fun hheld => Bool.false_ne_true (hcovered hheld)

/-- Of two passes from before a close one is answered before it and the other one after it. -/
theorem diagnostics_opened_closed :
    let before : List Event := [.update 0 flawed, .update 1 flawed, .answer 1 (.ofCommands [])]
    let after : List Event := [.answer 0 (.ofCommands [])]
    let past := run sampleSetup sampleEditor (start ()) before
    let s := run sampleSetup sampleEditor (start ()) (before ++ .close flawed.uri :: after)
    (past.engine.diagnostics? flawed.uri).isSome ∧ IsOpened flawed.uri past.record ∧
      .begun flawed.uri ∉ s.record.drop past.record.length ∧
      s.engine.diagnostics? flawed.uri = none := by
  intro before after past s
  have hheld : (past.engine.diagnostics? flawed.uri).isSome := rfl
  obtain ⟨hnumber, hopened, -⟩ :=
    diagnostics_opened sampleSetup sampleEditor () before flawed.uri
  have hbegun : .begun flawed.uri ∉ s.record.drop past.record.length := by decide
  obtain ⟨-, -, hclosed⟩ := diagnostics_opened sampleSetup sampleEditor ()
    (before ++ .close flawed.uri :: after) flawed.uri
  exact ⟨hheld, hopened.mp (hnumber hheld), hbegun, hclosed before after rfl hbegun⟩

end Session

end Keybindings
