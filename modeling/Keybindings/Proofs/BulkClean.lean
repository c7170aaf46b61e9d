import Keybindings.Proofs.Cleaning
import Keybindings.Proofs.Publication

/-!
A cleaning as a whole.

A cleaning can end in six ways (`CleanExit`).  Only the last of them changes what the engine knows,
and the editor is asked for at most one edit and, if it accepted that, for one save
(`EngineSetup.clean_allOrNothing`).  Nothing is assumed of the engine's state, so that calls of any
documents may be under way; a cleaning with nothing in between is what two answers make of one in a
session (`Session.run_clean_answer`).
-/

namespace Keybindings

/-! ### Watching the editor -/

inductive EditorCall where
  | edit (uri : String) (e : Edit)
  | save (uri : String)
  deriving DecidableEq, Repr

/-- The editor with a list of what it was asked to do. -/
def Editor.logged {σ : Type} (editor : Editor σ) : Editor (σ × List EditorCall) where
  apply := fun (e, calls) uri edit =>
    let (accepted, e) := editor.apply e uri edit
    (accepted, e, calls ++ [.edit uri edit])
  save := fun (e, calls) uri =>
    let (result, e) := editor.save e uri
    (result, e, calls ++ [.save uri])

theorem Editor.apply_logged {σ : Type} (editor : Editor σ) (e : σ) (calls : List EditorCall)
    (uri : String) (edit : Edit) : editor.logged.apply (e, calls) uri edit =
      ((editor.apply e uri edit).1, (editor.apply e uri edit).2, calls ++ [.edit uri edit]) := rfl

theorem Editor.save_logged {σ : Type} (editor : Editor σ) (e : σ) (calls : List EditorCall)
    (uri : String) : editor.logged.save (e, calls) uri =
      ((editor.save e uri).1, (editor.save e uri).2, calls ++ [.save uri]) := rfl

def CleanOutcome.edit (o : CleanOutcome) (d : OpenDocument) : Edit :=
  ⟨.whole d.text, o.text⟩

section Exits

variable {σ : Type}

/-- How a cleaning ends, with what the editor was asked to do until then. -/
inductive CleanExit (setup : EngineSetup) (editor : Editor σ) (s : EngineState) (e : σ)
    (source : Source) (later : σ → Source) : Option OpenDocument → List EditorCall →
      EngineState × σ × Except EngineError CleanResult → Prop
  | notApplicable {active} (h : setup.cleanTarget? active = none) :
    CleanExit setup editor s e source later active [] (s, e, .ok .notApplicable)
  | unreadable {d err} (htarget : setup.isTarget d) (hr : source.registry = .error err) :
    CleanExit setup editor s e source later (some d) [] (s, e, .error (.registry err))
  | unparsed {d r err} (htarget : setup.isTarget d) (hr : source.registry = .ok r)
      (ho : cleanDocument d.text r = .error err) :
    CleanExit setup editor s e source later (some d) [] (s, e, .error (.parse err))
  | rejected {d r o e'} (htarget : setup.isTarget d) (hr : source.registry = .ok r)
      (ho : cleanDocument d.text r = .ok o)
      (happly : editor.apply e d.uri (o.edit d) = (false, e')) :
    CleanExit setup editor s e source later (some d) [.edit d.uri (o.edit d)] (s, e', .ok .rejected)
  | unsaved {d r o e' e'' err} (htarget : setup.isTarget d) (hr : source.registry = .ok r)
      (ho : cleanDocument d.text r = .ok o) (happly : editor.apply e d.uri (o.edit d) = (true, e'))
      (hsave : editor.save e' d.uri = (.error err, e'')) :
    CleanExit setup editor s e source later (some d) [.edit d.uri (o.edit d), .save d.uri]
      (s, e'', .error (.host err))
  | saved {d r o e' e''} (htarget : setup.isTarget d) (hr : source.registry = .ok r)
      (ho : cleanDocument d.text r = .ok o) (happly : editor.apply e d.uri (o.edit d) = (true, e'))
      (hsave : editor.save e' d.uri = (.ok (), e'')) :
    CleanExit setup editor s e source later (some d) [.edit d.uri (o.edit d), .save d.uri]
      ((setup.update s { d with text := o.text } (later e'')).1, e'', .ok (.cleaned o))

variable (setup : EngineSetup) (editor : Editor σ) (s : EngineState) (e : σ)
  (active : Option OpenDocument) (source : Source) (later : σ → Source)

/-- A cleaning ends in one of these ways, and the list of calls is that of the editor. -/
theorem EngineSetup.exists_exit :
    let done := setup.clean editor s e active source later
    ∃ calls, CleanExit setup editor s e source later active calls done ∧
      setup.clean editor.logged s (e, []) active source (fun e => later e.1) =
        (done.1, (done.2.1, calls), done.2.2) := by
  cases htarget? : setup.cleanTarget? active with
  | none =>
      simp only [clean, htarget?]
      exact ⟨_, .notApplicable htarget?, rfl⟩
  | some d =>
      obtain ⟨rfl, htarget⟩ := Option.filter_eq_some_iff.mp htarget?
      simp only [clean, htarget?, finishClean]
      cases hr : source.registry with
      | error err => exact ⟨_, .unreadable htarget hr, rfl⟩
      | ok r =>
          simp only
          cases ho : cleanDocument d.text r with
          | error err => exact ⟨_, .unparsed htarget hr ho, rfl⟩
          | ok o =>
              obtain ⟨accepted, e', happly⟩ :
                  ∃ accepted e', editor.apply e d.uri (o.edit d) = (accepted, e') := ⟨_, _, rfl⟩
              have hedit : (⟨.whole d.text, o.text⟩ : Edit) = o.edit d := rfl
              simp only [Editor.apply_logged, hedit, happly]
              cases accepted with
              | false => exact ⟨_, .rejected htarget hr ho happly, rfl⟩
              | true =>
                  obtain ⟨result, e'', hsave⟩ :
                      ∃ result e'', editor.save e' d.uri = (result, e'') := ⟨_, _, rfl⟩
                  simp only [Editor.save_logged, hsave]
                  cases result with
                  | error err => exact ⟨_, .unsaved htarget hr ho happly hsave, rfl⟩
                  | ok _ => exact ⟨_, .saved htarget hr ho happly hsave, rfl⟩

variable {setup editor s e active source later} {calls : List EditorCall}
  {done : EngineState × σ × Except EngineError CleanResult}

theorem cleanDocument_eq_error {t : Text} {r : Registry} {err : ParseError} :
    cleanDocument t r = .error err ↔ Document.parse t = .error err := by
  rw [cleanDocument]
  cases Document.parse t with
  | error err' =>
      change (Except.error err' : Except ParseError CleanOutcome) = .error err ↔ _
      rw [Except.error.injEq, Except.error.injEq]
  | ok es => exact iff_of_false (fun h => by cases h) (fun h => by cases h)

/-- The editor is left alone if there is nothing to write. -/
theorem CleanExit.calls_eq_nil_iff (h : CleanExit setup editor s e source later active calls done) :
    calls = [] ↔ active = none ∨ ∃ d, active = some d ∧ (setup.isTarget d = false ∨
      (∃ err, source.registry = .error err) ∨ ∃ err, Document.parse d.text = .error err) := by
  have hcalled : ∀ {d r o}, setup.isTarget d → source.registry = .ok r →
      cleanDocument d.text r = .ok o → ¬ (some d = none ∨ ∃ d', some d = some d' ∧
        (setup.isTarget d' = false ∨ (∃ err, source.registry = .error err) ∨
          ∃ err, Document.parse d'.text = .error err)) := by
    rintro d r o htarget hr ho (hnone | ⟨_, ⟨⟩, hd | ⟨err, herr⟩ | ⟨err, hparse⟩⟩)
    · cases hnone
    · rw [htarget] at hd
      cases hd
    · rw [hr] at herr
      cases herr
    · rw [cleanDocument_eq_error.mpr hparse] at ho
      cases ho
  cases h with
  | notApplicable h =>
      refine iff_of_true rfl ?_
      cases active with
      | none => exact .inl rfl
      | some d =>
          have hd := Option.filter_eq_none_iff.mp h d rfl
          exact .inr ⟨d, rfl, .inl (Bool.eq_false_iff.mpr hd)⟩
  | unreadable htarget hr => exact iff_of_true rfl (.inr ⟨_, rfl, .inr (.inl ⟨_, hr⟩)⟩)
  | unparsed htarget hr ho =>
      exact iff_of_true rfl (.inr ⟨_, rfl, .inr (.inr ⟨_, cleanDocument_eq_error.mp ho⟩)⟩)
  | rejected htarget hr ho happly => exact iff_of_false nofun (hcalled htarget hr ho)
  | unsaved htarget hr ho happly hsave => exact iff_of_false nofun (hcalled htarget hr ho)
  | saved htarget hr ho happly hsave => exact iff_of_false nofun (hcalled htarget hr ho)

/-- The document is saved if the edit that cleans it was accepted, and only then. -/
theorem CleanExit.calls_eq (h : CleanExit setup editor s e source later active calls done)
    (hcalls : calls ≠ []) : ∃ d r o, active = some d ∧ source.registry = .ok r ∧
      cleanDocument d.text r = .ok o ∧
      calls = .edit d.uri (o.edit d) ::
        if (editor.apply e d.uri (o.edit d)).1 then [.save d.uri] else [] := by
  cases h with
  | notApplicable h => exact absurd rfl hcalls
  | unreadable htarget hr => exact absurd rfl hcalls
  | unparsed htarget hr ho => exact absurd rfl hcalls
  | rejected htarget hr ho happly => exact ⟨_, _, _, rfl, hr, ho, by rw [happly]; rfl⟩
  | unsaved htarget hr ho happly hsave => exact ⟨_, _, _, rfl, hr, ho, by rw [happly]; rfl⟩
  | saved htarget hr ho happly hsave => exact ⟨_, _, _, rfl, hr, ho, by rw [happly]; rfl⟩

theorem CleanExit.engine_eq (h : CleanExit setup editor s e source later active calls done)
    (hresult : ∀ o, done.2.2 ≠ .ok (.cleaned o)) : done.1 = s := by
  cases h with
  | saved htarget hr ho happly hsave => exact absurd rfl (hresult _)
  | _ => rfl

theorem CleanExit.of_cleaned (h : CleanExit setup editor s e source later active calls done)
    {o : CleanOutcome} (hresult : done.2.2 = .ok (.cleaned o)) :
    ∃ d r, active = some d ∧ setup.isTarget d ∧ source.registry = .ok r ∧
      cleanDocument d.text r = .ok o ∧
      done.1 = (setup.update s { d with text := o.text } (later done.2.1)).1 := by
  cases h with
  | saved htarget hr ho happly hsave =>
      cases hresult
      exact ⟨_, _, rfl, htarget, hr, ho, rfl⟩
  | _ => cases hresult

end Exits

/-! ### The pass at the end -/

namespace EngineSetup

variable {setup : EngineSetup} {d : OpenDocument}

theorem generations_update (h : setup.isTarget d) (s : EngineState) (source : Source) :
    (setup.update s d source).1.generations =
      s.generations.insert d.uri (s.nextGeneration d.uri) := by
  rw [update, beginPass, if_pos h]
  exact generations_finishPass setup _ _ source

theorem published_update (h : setup.isTarget d) (s : EngineState) (source : Source) :
    (setup.update s d source).1.published =
      match source.registry with
      | .error _ => s.published
      | .ok r => s.published.insert d.uri (Validation.document setup.label d.text r) := by
  rw [update, beginPass, if_pos h]
  simp only [finishPass]
  cases source.registry with
  | error err => rfl
  | ok r =>
      -- the pass has the number that it just took
      simp only [Dictionary.find?_insert_self, if_true]
      rfl

end EngineSetup

/-- There is nothing to report in a text without doubles once it is cleaned. -/
theorem Validation.document_of_cleanDocument {t : Text} {r : Registry} {o : CleanOutcome}
    {v : Json.Value} (h : cleanDocument t r = .ok o) (hread : Json.read t = .ok v)
    (hexact : v.isExact) (label : String) : document label o.text r = [] := by
  cases hparse : Document.parse t with
  | error err =>
      rw [cleanDocument_eq_error.mpr hparse] at h
      cases h
  | ok es =>
      rw [cleanDocument_eq r hparse] at h
      cases h
      have hprintable := Document.isPrintable_of_parse hparse hread hexact
      rw [document_eq_flags label r (Document.parse_render (isPrintable_clean hprintable r))]
      exact flags_of_valid label (fun e he => (List.mem_filter.mp he).2) _

namespace EngineSetup

/-- A cleaning asks the editor for nothing, for one edit, or for the edit and a save of the
document.  It changes what the engine knows only if it succeeds, and then by one pass over the
cleaned text. -/
theorem clean_allOrNothing {σ : Type} (setup : EngineSetup) (editor : Editor σ) (s : EngineState)
    (e : σ) (active : Option OpenDocument) (source : Source) (later : σ → Source) :
    let (s', (e', calls), result) :=
      setup.clean editor.logged s (e, []) active source fun e => later e.1
    (calls = [] ↔ active = none ∨ ∃ d, active = some d ∧ (setup.isTarget d = false ∨
      (∃ err, source.registry = .error err) ∨ ∃ err, Document.parse d.text = .error err)) ∧
    (calls ≠ [] → ∃ d r o, active = some d ∧ source.registry = .ok r ∧
      cleanDocument d.text r = .ok o ∧
      let edit : Edit := ⟨⟨0, Text.size d.text⟩, o.text⟩
      calls = .edit d.uri edit :: if (editor.apply e d.uri edit).1 then [.save d.uri] else []) ∧
    ((∀ o, result ≠ .ok (.cleaned o)) → s' = s) ∧
    ∀ o, result = .ok (.cleaned o) → ∃ d r, active = some d ∧ source.registry = .ok r ∧
      cleanDocument d.text r = .ok o ∧
      s'.generations = s.generations.insert d.uri (s.nextGeneration d.uri) ∧
      s'.published = (match (later e').registry with
        | .error _ => s.published
        | .ok r' => s.published.insert d.uri (Validation.document setup.label o.text r')) ∧
      (later e' = source → ∀ v, Json.read d.text = .ok v → v.isExact →
        s'.diagnostics? d.uri = some []) := by
  obtain ⟨calls, hexit, hdone⟩ := setup.exists_exit editor s e active source later
  rw [hdone]
  refine ⟨hexit.calls_eq_nil_iff, hexit.calls_eq, hexit.engine_eq, fun o hresult => ?_⟩
  obtain ⟨d, r, hactive, htarget, hr, ho, hs'⟩ := hexit.of_cleaned hresult
  have htarget' : setup.isTarget { d with text := o.text } := htarget
  have hpublished := published_update htarget' s (later (setup.clean editor s e active source
    later).2.1)
  rw [← hs'] at hpublished
  refine ⟨d, r, hactive, hr, ho, ?_, hpublished, fun hsame v hread hexact => ?_⟩
  · rw [hs']
    exact generations_update htarget' s _
  · simp only [hsame, hr] at hpublished
    rw [EngineState.diagnostics?, hpublished, Dictionary.find?_insert_self,
      Validation.document_of_cleanDocument ho hread hexact]

theorem clean_allOrNothing_flawed :
    ∃ s', Session.sampleSetup.clean Session.sampleEditor.logged {} ((), []) (some Session.flawed)
        (.ofCommands []) (fun _ => .ofCommands []) =
      (s', ((), [.edit Session.flawed.uri ⟨⟨0, 4⟩, "[]".toList⟩, .save Session.flawed.uri]),
        .ok (.cleaned ⟨"[]".toList, 0, 1⟩)) ∧
      s'.diagnostics? Session.flawed.uri = some [] := by
  have hall := clean_allOrNothing Session.sampleSetup Session.sampleEditor {} ()
    (some Session.flawed) (.ofCommands []) fun _ => .ofCommands []
  have hdone : Session.sampleSetup.clean Session.sampleEditor.logged {} ((), [])
      (some Session.flawed) (.ofCommands []) (fun _ => .ofCommands []) =
    (⟨[(Session.flawed.uri, 1)], [(Session.flawed.uri, [])]⟩,
      ((), [.edit Session.flawed.uri ⟨⟨0, 4⟩, "[]".toList⟩, .save Session.flawed.uri]),
      .ok (.cleaned ⟨"[]".toList, 0, 1⟩)) := rfl
  rw [hdone] at hall
  obtain ⟨d, r, hactive, -, -, -, -, hempty⟩ := hall.2.2.2 ⟨"[]".toList, 0, 1⟩ rfl
  cases hactive
  exact ⟨_, hdone, hempty rfl (.array [.object []]) rfl rfl⟩

end EngineSetup

end Keybindings
