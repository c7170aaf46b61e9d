import Keybindings.Proofs.BulkClean
import Keybindings.Proofs.Freshness

/-!
A text that changes while a cleaning waits.

A cleaning asks for its edit after it waited for the command source, and meanwhile the engine can be
handed a newer text of the document.  A validation pass that goes on then has its number to tell that
it is not the latest one.  A cleaning has none: it asks for the edit that cleans the text that it was
called with, and so what it asks for is right if and only if this is the latest text still
(`Session.answer_clean_latest`).
-/

namespace Keybindings

/-- The edit that puts a cleaned text in place of the whole text, if there is something to put. -/
def cleaningEdit? (t : Text) (source : Source) : Option Edit :=
  match source.registry with
  | .error _ => none
  | .ok r =>
    match cleanDocument t r with
    | .error _ => none
    | .ok o => some ⟨.whole t, o.text⟩

theorem cleaningEdit?_eq_none_iff {t : Text} {source : Source} : cleaningEdit? t source = none ↔
    (∃ err, source.registry = .error err) ∨ ∃ err, Document.parse t = .error err := by
  rw [cleaningEdit?]
  cases source.registry with
  | error err => exact iff_of_true rfl (.inl ⟨err, rfl⟩)
  | ok r =>
      simp only [← cleanDocument_eq_error (r := r)]
      cases cleanDocument t r with
      | error err => exact iff_of_true rfl (.inr ⟨err, rfl⟩)
      | ok o => exact iff_of_false nofun (by rintro (⟨err, ⟨⟩⟩ | ⟨err, ⟨⟩⟩))

/-- A cleaning asks for the edit that cleans the text of its document, and for no other one. -/
theorem edit_mem_editClean {σ : Type} (editor : Editor σ) (e : σ × List EditorCall)
    (d : OpenDocument) (source : Source) :
    ∃ calls, (editClean editor.logged e d source).1.2 = e.2 ++ calls ∧
      ∀ uri edit, .edit uri edit ∈ calls ↔ uri = d.uri ∧ cleaningEdit? d.text source = some edit := by
  obtain ⟨e, past⟩ := e
  rw [editClean, cleaningEdit?]
  cases source.registry with
  | error err => exact ⟨[], (List.append_nil past).symm, by simp⟩
  | ok r =>
      simp only
      cases cleanDocument d.text r with
      | error err => exact ⟨[], (List.append_nil past).symm, by simp⟩
      | ok o =>
          simp only [Editor.apply_logged]
          obtain ⟨accepted, e⟩ := editor.apply e d.uri ⟨.whole d.text, o.text⟩
          cases accepted with
          | false => exact ⟨[.edit d.uri ⟨.whole d.text, o.text⟩], rfl, by simp [eq_comm]⟩
          | true =>
              simp only [Editor.save_logged]
              obtain ⟨saved, e⟩ := editor.save e d.uri
              refine ⟨[.edit d.uri ⟨.whole d.text, o.text⟩, .save d.uri], ?_, by simp [eq_comm]⟩
              cases saved with
              | error err => exact List.append_assoc past [_] [_]
              | ok _ => exact List.append_assoc past [_] [_]

namespace Session

variable {σ : Type} {setup : EngineSetup} {editor : Editor σ}

/-! ### Calls that wait -/

theorem calls_beginPass_of_ne (setup : EngineSetup) (s : Session σ) {id i : Nat} (h : i ≠ id)
    (d : OpenDocument) (cleaned : Option CleanOutcome) :
    (beginPass setup s id d cleaned).1.calls i = s.calls i := by
  rw [beginPass]
  obtain ⟨engine, p⟩ := setup.beginPass s.engine d
  cases p with
  | none => exact calls_setCall_of_ne _ h none
  | some p => exact calls_setCall_of_ne _ h _

theorem calls_answer_of_ne (setup : EngineSetup) (editor : Editor σ) (s : Session σ) {id i : Nat}
    (h : i ≠ id) (source : Source) (c : Call) :
    (answer setup editor s id source c).1.calls i = s.calls i := by
  cases c with
  | pass p stamp cleaned => exact calls_setCall_of_ne _ h none
  | cleaning d =>
      rw [answer]
      obtain ⟨e, stage⟩ := editClean editor s.editor d source
      cases stage with
      | ended r => exact calls_setCall_of_ne _ h none
      | saved o => exact calls_beginPass_of_ne setup { s with editor := e } h _ _

theorem calls_step {s : Session σ} {i : Nat} {c : Call} (hc : s.calls i = some c) {event : Event}
    (h : ∀ source, event ≠ .answer i source) : (step setup editor s event).1.calls i = some c := by
  have hne : ∀ id, s.calls id = none → i ≠ id := by
    rintro id hid rfl
    rw [hid] at hc
    cases hc
  cases event with
  | update id d =>
      rw [step]
      cases hid : s.calls id with
      | some c' => exact hc
      | none => exact (calls_beginPass_of_ne setup s (hne id hid) d none).trans hc
  | clean id active =>
      rw [step]
      cases hid : s.calls id with
      | some c' => exact hc
      | none =>
          cases setup.cleanTarget? active with
          | none => exact hc
          | some d => exact (calls_setCall_of_ne s (hne id hid) _).trans hc
  | answer id source =>
      have hid : i ≠ id := fun hid => h source (hid ▸ rfl)
      rw [step]
      cases s.calls id with
      | none => exact hc
      | some c' => exact (calls_answer_of_ne setup editor s hid source c').trans hc
  | close uri => exact hc

theorem calls_run {s : Session σ} {i : Nat} {c : Call} (hc : s.calls i = some c)
    {events : List Event} (h : ∀ source, .answer i source ∉ events) :
    (run setup editor s events).calls i = some c := by
  induction events generalizing s with
  | nil => exact hc
  | cons event events ih =>
      have hevent : ∀ source, event ≠ .answer i source :=
        fun source hsource => h source (hsource ▸ List.mem_cons_self)
      exact ih (calls_step hc hevent) fun source hsource => h source (List.mem_cons_of_mem _ hsource)

/-! ### Texts that an engine is handed -/

/-- The document that comes with an event.  A call whose number is taken is not made. -/
def handed? (s : Session σ) : Event → Option OpenDocument
  | .update id d => if (s.calls id).isSome then none else some d
  | .clean id active => if (s.calls id).isSome then none else active
  | .answer _ _ => none
  | .close _ => none

/-- The last text of a document that the engine was handed in the course of some events. -/
def latestText? (setup : EngineSetup) (editor : Editor σ) (uri : String) :
    Session σ → List Event → Option Text
  | _, [] => none
  | s, event :: events =>
    (latestText? setup editor uri (step setup editor s event).1 events).or
      (((s.handed? event).filter (·.uri = uri)).map (·.text))

theorem latestText?_append (uri : String) (s : Session σ) (events events' : List Event) :
    latestText? setup editor uri s (events ++ events') =
      (latestText? setup editor uri (run setup editor s events) events').or
        (latestText? setup editor uri s events) := by
  induction events generalizing s with
  | nil => exact (Option.or_none).symm
  | cons event events ih =>
      rw [List.cons_append, latestText?, latestText?, ih, Option.or_assoc]
      rfl

/-- From when a cleaning is called on, its text or a later one is the latest text of its document. -/
theorem exists_latestText?_clean (s : Session σ) {id : Nat} (d : OpenDocument)
    (before between : List Event) (hid : (run setup editor s before).calls id = none) :
    ∃ t, latestText? setup editor d.uri s (before ++ .clean id (some d) :: between) = some t := by
  have hhanded : (run setup editor s before).handed? (.clean id (some d)) = some d := by
    rw [handed?, hid]
    rfl
  have hown : (some d).filter (fun d' => decide (d'.uri = d.uri)) = some d :=
    Option.filter_some_pos (decide_eq_true rfl)
  rw [latestText?_append, latestText?, hhanded, hown, Option.map_some]
  cases latestText? setup editor d.uri _ between with
  | none => exact ⟨d.text, rfl⟩
  | some t => exact ⟨t, rfl⟩

/-! ### What a cleaning asks for when it goes on -/

theorem editor_answer_cleaning (s : Session σ) (id : Nat) (source : Source) (d : OpenDocument) :
    (answer setup editor s id source (.cleaning d)).1.editor =
      (editClean editor s.editor d source).1 := by
  rw [answer]
  obtain ⟨e, stage⟩ := editClean editor s.editor d source
  cases stage with
  | ended r => rfl
  | saved o => exact editor_beginPass setup _ id _ _

/-- A cleaning that is called with a document and goes on after other events asks for the edit that
cleans the document's text.  This is the edit for the latest text, and not one for an older text, if
and only if the document's text is the latest one or there is nothing to ask for. -/
theorem answer_clean_latest (setup : EngineSetup) (editor : Editor σ) (e : σ)
    (before between : List Event) {id : Nat} {d : OpenDocument} (source : Source)
    (hid : (run setup editor.logged (start (e, [])) before).calls id = none)
    (htarget : setup.isTarget d) (hwaits : ∀ source', .answer id source' ∉ between) :
    let events := before ++ .clean id (some d) :: between
    let s := run setup editor.logged (start (e, [])) events
    ∃ t calls, latestText? setup editor.logged d.uri (start (e, [])) events = some t ∧
      (step setup editor.logged s (.answer id source)).1.editor.2 = s.editor.2 ++ calls ∧
      (∀ uri edit, .edit uri edit ∈ calls ↔
        uri = d.uri ∧ cleaningEdit? d.text source = some edit) ∧
      ((∀ uri edit, .edit uri edit ∈ calls → uri = d.uri ∧ cleaningEdit? t source = some edit ∧
          (t ≠ d.text → cleaningEdit? d.text source ≠ some edit)) ↔
        t = d.text ∨ (∃ err, source.registry = .error err) ∨
          ∃ err, Document.parse d.text = .error err) := by
  intro events s
  obtain ⟨t, ht⟩ := exists_latestText?_clean (start (e, [])) d before between hid
  have hcalled : (run setup editor.logged (start (e, []))
      (before ++ [.clean id (some d)])).calls id = some (.cleaning d) := by
    rw [run_append, run, List.foldl_cons, List.foldl_nil, step, hid, EngineSetup.cleanTarget?,
      Option.filter_some_pos htarget]
    exact calls_setCall_self _ id _
  have hcall : s.calls id = some (.cleaning d) := by
    have hevents : events = (before ++ [.clean id (some d)]) ++ between := by simp [events]
    show (run setup editor.logged _ events).calls id = _
    rw [hevents, run_append]
    exact calls_run hcalled hwaits
  obtain ⟨calls, hcalls, hedits⟩ := edit_mem_editClean editor s.editor d source
  refine ⟨t, calls, ht, ?_, hedits, ?_⟩
  · rw [step_answer hcall, editor_answer_cleaning, hcalls]
  · rw [← cleaningEdit?_eq_none_iff]
    constructor
    · intro hlatest
      by_contra hstale
      obtain ⟨hne, hsome⟩ := not_or.mp hstale
      obtain ⟨edit, hedit⟩ := Option.ne_none_iff_exists'.mp hsome
      have hproposed := (hedits d.uri edit).mpr ⟨rfl, hedit⟩
      exact (hlatest d.uri edit hproposed).2.2 hne hedit
    · rintro (rfl | hnone) uri edit hproposed
      · obtain ⟨huri, hedit⟩ := (hedits uri edit).mp hproposed
        exact ⟨huri, hedit, fun hne => absurd rfl hne⟩
      · obtain ⟨-, hedit⟩ := (hedits uri edit).mp hproposed
        rw [hnone] at hedit
        cases hedit

/-- The file while it is emptied, cleaned and handed over again unchanged. -/
theorem answer_clean_latest_unchanged :
    let before : List Event := [.update 0 emptied, .answer 0 (.ofCommands ["a"])]
    let between : List Event := [.update 2 flawed, .close flawed.uri]
    let s := run sampleSetup sampleEditor.logged (start ((), []))
      (before ++ .clean 1 (some flawed) :: between)
    (run sampleSetup sampleEditor.logged (start ((), [])) before).calls 1 = none ∧
      sampleSetup.isTarget flawed ∧ (∀ source', .answer 1 source' ∉ between) ∧
      (step sampleSetup sampleEditor.logged s (.answer 1 (.ofCommands ["a"]))).1.editor.2 =
        [.edit flawed.uri ⟨⟨0, 4⟩, "[]".toList⟩, .save flawed.uri] ∧
      cleaningEdit? flawed.text (.ofCommands ["a"]) = some ⟨⟨0, 4⟩, "[]".toList⟩ := by
  intro before between s
  have hid : (run sampleSetup sampleEditor.logged (start ((), [])) before).calls 1 = none := rfl
  have htarget : sampleSetup.isTarget flawed := rfl
  have hwaits : ∀ source', .answer 1 source' ∉ between := by simp [between]
  obtain ⟨t, calls, ht, hcalls, -, hiff⟩ := answer_clean_latest sampleSetup sampleEditor ()
    before between (.ofCommands ["a"]) hid htarget hwaits
  have hlatest : t = flawed.text := Option.some.inj (ht.symm.trans rfl)
  have hlog : (step sampleSetup sampleEditor.logged s (.answer 1 (.ofCommands ["a"]))).1.editor.2 =
    [.edit flawed.uri ⟨⟨0, 4⟩, "[]".toList⟩, .save flawed.uri] := rfl
  have hasked : calls = [.edit flawed.uri ⟨⟨0, 4⟩, "[]".toList⟩, .save flawed.uri] :=
    hcalls.symm.trans hlog
  obtain ⟨-, hedit, -⟩ := hiff.mpr (.inl hlatest) flawed.uri ⟨⟨0, 4⟩, "[]".toList⟩
    (hasked ▸ List.mem_cons_self)
  exact ⟨hid, htarget, hwaits, hlog, hlatest ▸ hedit⟩

def repaired : OpenDocument :=
  ⟨"file:///k.json", "/k.json", "[\x7b\"command\":\"a\"\x7d]".toList⟩

/-- The file is put right while a cleaning waits, which then asks for the edit that cleans the old
text.  Nothing is invalid in the new text, but the edit replaces the first four characters of it. -/
theorem answer_clean_latest_overtaken :
    let s := run sampleSetup sampleEditor.logged (start ((), []))
      [.clean 0 (some flawed), .update 1 repaired]
    latestText? sampleSetup sampleEditor.logged flawed.uri (start ((), []))
        [.clean 0 (some flawed), .update 1 repaired] = some repaired.text ∧
      repaired.text ≠ flawed.text ∧
      (step sampleSetup sampleEditor.logged s (.answer 0 (.ofCommands ["a"]))).1.editor.2 =
        [.edit flawed.uri ⟨⟨0, 4⟩, "[]".toList⟩, .save flawed.uri] ∧
      cleaningEdit? flawed.text (.ofCommands ["a"]) = some ⟨⟨0, 4⟩, "[]".toList⟩ ∧
      cleaningEdit? repaired.text (.ofCommands ["a"]) =
        some ⟨⟨0, 17⟩, "[\n  \x7b\n    \"command\": \"a\"\n  \x7d\n]".toList⟩ :=
  ⟨rfl, by decide, rfl, rfl, rfl⟩

end Session

end Keybindings
