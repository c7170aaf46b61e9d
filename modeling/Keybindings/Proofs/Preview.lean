import Keybindings.Proofs.Writing

/-!
What a dry run tells about the run without it.

A dry run differs from a real one only in that saving writes nothing and in the lines at its end.
If it shows a text there, the real run writes just that text, and otherwise the real run does
nothing else than the dry one (`run_preview`).
-/

namespace Keybindings.Cli

/-! ### What a dry run shows -/

/-- The text that the lines of a dry run show: it stands in front of a last line that says that
nothing was written. -/
def preview? (lines : List String) : Option Text :=
  match lines.reverse with
  | last :: document :: _ =>
    if (plainStyle.info "Dry run: ").toList.isPrefixOf last.toList then some document.toList
    else none
  | _ => none

theorem preview?_append (lines : List String) (t : Text) (summary : String) :
    preview? (lines ++ [String.ofList t, plainStyle.info ("Dry run: " ++ summary)]) = some t := by
  have hinfo : plainStyle.info ("Dry run: " ++ summary) =
      plainStyle.info "Dry run: " ++ summary := by
    simp only [Style.info, String.append_assoc]
  have hprefix : (plainStyle.info "Dry run: ").toList.isPrefixOf
      (plainStyle.info ("Dry run: " ++ summary)).toList = true := by
    rw [hinfo, String.toList_append, List.isPrefixOf_iff_prefix]
    exact List.prefix_append _ _
  rw [preview?, List.reverse_append]
  simp only [List.reverse_cons, List.reverse_nil, List.nil_append, List.cons_append, hprefix,
    if_true, String.toList_ofList]

theorem preview?_map_fixLine (messages : List String) :
    preview? (messages.map Context.fixLine) = none := by
  rw [preview?, ← List.map_reverse]
  match messages.reverse with
  | [] => rfl
  | [_] => rfl
  | message :: _ :: _ =>
      have hline : (plainStyle.info "Dry run: ").toList.isPrefixOf
          (Context.fixLine message).toList = false := by
        rw [Context.fixLine, Style.listItem, String.toList_append]
        rfl
      simp only [List.map_cons, hline, Bool.false_eq_true, if_false]

/-! ### What a dry run foretells -/

namespace Context

variable (c : Context) (d : OpenDocument)

/-- What a dry run foretells.  If it shows a text, it succeeds, and the real run writes this text to
the file if that can be written, and fails otherwise.  If not, the real run is the same. -/
def Foretells (file : Option String) (dry real : Outcome) : Prop :=
  dry.tree = c.tree ∧
    match preview? dry.out with
    | none => real = dry
    | some t =>
      ∃ path, c.path file = .ok path ∧ dry.failure = none ∧
        match c.tree.writeText path t with
        | .ok tree => real.failure = none ∧ real.tree = tree
        | .error _ => real.failure.map RunError.exitCode = some 1 ∧ real.tree = c.tree

theorem foretells_refl {file : Option String} {o : Outcome} (htree : o.tree = c.tree)
    (hout : preview? o.out = none) : c.Foretells file o o := by
  rw [Foretells, hout]
  exact ⟨htree, rfl⟩

/-- If the file can be written, both runs succeed or fail alike. -/
theorem Foretells.exitCode_eq {c : Context} {file : Option String} {dry real : Outcome}
    (h : c.Foretells file dry real) (v : Verbosity)
    (hwritable : ∀ path, c.path file = .ok path → c.tree.IsWritable path) :
    (real.result v).exitCode = (dry.result v).exitCode := by
  obtain ⟨-, hshown⟩ := h
  cases hpreview : preview? dry.out with
  | none =>
      rw [hpreview] at hshown
      rw [hshown]
  | some t =>
      simp only [hpreview] at hshown
      obtain ⟨path, hpath, hdry, hwrite⟩ := hshown
      obtain ⟨tree, htree⟩ := hwritable path hpath t
      rw [htree] at hwrite
      simp only [Outcome.result, hdry, hwrite.1]

theorem save_dry (s : Staged) :
    (({ c with dryRun := true } : Context).editor d).save s d.uri = (.ok (), s) :=
  FileEditor.save_of_dryRun rfl s

theorem save_real {s : Staged} (htree : s.tree = c.tree) (hdirty : s.dirty = true) :
    (({ c with dryRun := false } : Context).editor d).save s d.uri =
      match c.tree.writeText d.path s.text with
      | .ok tree => (.ok (), { s with dirty := false, tree := tree })
      | .error e => (.error (.saveFailed d.uri e.message), s) := by
  rw [← htree]
  exact FileEditor.save_of_dirty rfl hdirty

end Context

/-! ### Fixing -/

namespace Fixing

variable {f : Fixing} {s s' : Staged}

theorem dirty_run {n : Nat} {messages : List String} (h : f.run n s = (messages, .ok s'))
    (hs : s.dirty = true ∨ messages ≠ []) : s'.dirty = true := by
  induction n generalizing s messages with
  | zero =>
      cases h
      exact hs.resolve_right (· rfl)
  | succ n ih =>
      rw [run] at h
      cases hstep : f.step s with
      | error e =>
          rw [hstep] at h
          cases h
      | ok o =>
          cases o with
          | none =>
              rw [hstep] at h
              cases h
              exact hs.resolve_right (· rfl)
          | some p =>
              obtain ⟨message, s₁⟩ := p
              simp only [hstep, Prod.mk.injEq] at h
              obtain ⟨e, happly⟩ := exists_apply_of_step hstep
              exact ih (Prod.ext rfl h.2) (.inl (FileEditor.dirty_apply happly))

end Fixing

namespace Context

variable (c : Context) (d : OpenDocument) (warnings : List String)

/-- What is on offer does not depend on whether the file will be written. -/
theorem offers_fixing (dry : Bool) (t : Text) :
    (({ c with dryRun := dry } : Context).fixing d).offers t = (c.fixing d).offers t := by
  rw [Fixing.offers, Fixing.offers]
  rfl

theorem budget_fixing (dry all : Bool) (t : Text) :
    (({ c with dryRun := dry } : Context).fixing d).budget all t = (c.fixing d).budget all t := by
  rw [Fixing.budget, Fixing.budget, offers_fixing]

theorem run_fixing (dry : Bool) (n : Nat) (s : Staged) :
    (({ c with dryRun := dry } : Context).fixing d).run n s = (c.fixing d).run n s := by
  induction n generalizing s with
  | zero => rfl
  | succ n ih =>
      have hstep : (({ c with dryRun := dry } : Context).fixing d).step s = (c.fixing d).step s := by
        rw [Fixing.step, Fixing.step, offers_fixing]
        rfl
      rw [Fixing.run, Fixing.run, hstep]
      cases (c.fixing d).step s with
      | error e => rfl
      | ok o =>
          cases o with
          | none => rfl
          | some p =>
              obtain ⟨message, s₁⟩ := p
              simp only [ih]

theorem preview?_fixSummary {c : Context} (h : c.dryRun = true) (lines : List String)
    (path : String) (count : Nat) (t : Text) :
    preview? (lines ++ c.fixSummary path count t) = some t := by
  have hinfo : s!"Dry run: {count} fix(es) not written" =
      "Dry run: " ++ (toString count ++ " fix(es) not written") := by
    show "Dry run: " ++ toString count ++ " fix(es) not written" = _
    rw [String.append_assoc]
  rw [fixSummary, if_pos h, hinfo]
  exact preview?_append lines t _

theorem foretells_fixDocument {file : Option String} (hpath : c.path file = .ok d.path)
    (all : Bool) :
    c.Foretells file (({ c with dryRun := true } : Context).fixDocument d all warnings)
      (({ c with dryRun := false } : Context).fixDocument d all warnings) := by
  unfold fixDocument
  simp only [budget_fixing, run_fixing]
  cases (c.fixing d).budget all d.text with
  | error e => exact c.foretells_refl rfl rfl
  | ok n =>
      simp only
      generalize hrun : (c.fixing d).run n (FileEditor.start d.text c.tree) = answer
      obtain ⟨messages, result⟩ := answer
      cases result with
      | error e => exact c.foretells_refl rfl (preview?_map_fixLine messages)
      | ok s =>
          cases messages with
          | nil => exact c.foretells_refl rfl rfl
          | cons message messages =>
              have htree : s.tree = c.tree := Fixing.tree_run hrun
              have hdirty : s.dirty = true :=
                Fixing.dirty_run hrun (.inr (List.cons_ne_nil message messages))
              simp only [save_dry, c.save_real d htree hdirty]
              refine ⟨htree, ?_⟩
              rw [preview?_fixSummary rfl]
              refine ⟨d.path, hpath, rfl, ?_⟩
              cases c.tree.writeText d.path s.text with
              | error e => exact ⟨rfl, htree⟩
              | ok tree => exact ⟨rfl, rfl⟩

/-! ### Cleaning -/

theorem preview?_cleanSummary {c : Context} (h : c.dryRun = true) (path : String)
    (o : CleanOutcome) : preview? (c.cleanSummary path o) = some o.text := by
  rw [cleanSummary, if_pos h]
  exact preview?_append [] o.text _

/-- Of the editor a cleaning only depends on what it answers to the save. -/
theorem editClean_of_cleanDocument (ed : FileEditor) {s : Staged} {source : Source} {r : Registry}
    {o : CleanOutcome} (hs : s.text = d.text) (huri : ed.uri = d.uri)
    (hr : source.registry = .ok r) (ho : Keybindings.cleanDocument d.text r = .ok o) :
    editClean ed.editor s d source =
      match ed.save { s with text := o.text, dirty := true } d.uri with
      | (.error e, s) => (s, .ended (.error (.host e)))
      | (.ok (), s) => (s, .saved o) := by
  have happly : ed.apply s d.uri ⟨.whole d.text, o.text⟩ =
      (true, { s with text := o.text, dirty := true }) := by
    rw [← hs, ← huri]
    exact ed.apply_whole s o.text
  unfold editClean
  simp only [hr, ho, FileEditor.editor, happly]
  obtain ⟨result, s'⟩ := ed.save { s with text := o.text, dirty := true } d.uri
  cases result <;> rfl

theorem foretells_cleanDocument {file : Option String} (hpath : c.path file = .ok d.path) :
    c.Foretells file (({ c with dryRun := true } : Context).cleanDocument d warnings)
      (({ c with dryRun := false } : Context).cleanDocument d warnings) := by
  have hengine : ∀ dry, ({ c with dryRun := dry } : Context).engine d.path = c.engine d.path :=
    fun _ => rfl
  have hsource : ∀ dry, ({ c with dryRun := dry } : Context).source = c.source := fun _ => rfl
  unfold cleanDocument EngineSetup.clean
  simp only [hengine, hsource]
  cases htarget : (c.engine d.path).cleanTarget? (some d) with
  | none => exact c.foretells_refl rfl rfl
  | some d' =>
      obtain rfl : d = d' := Option.some.inj (Option.filter_eq_some_iff.mp htarget).1
      simp only [EngineSetup.finishClean_eq]
      cases hr : c.source.registry with
      | error e =>
          simp only [editClean, hr]
          exact c.foretells_refl rfl rfl
      | ok r =>
          cases ho : Keybindings.cleanDocument d.text r with
          | error e =>
              simp only [editClean, hr, ho]
              exact c.foretells_refl rfl rfl
          | ok o =>
              have hedit : ∀ dry, editClean (({ c with dryRun := dry } : Context).editor d).editor
                  (FileEditor.start d.text c.tree) d c.source =
                    match (({ c with dryRun := dry } : Context).editor d).save
                      ⟨o.text, true, c.tree⟩ d.uri with
                    | (.error e, s) => (s, .ended (.error (.host e)))
                    | (.ok (), s) => (s, .saved o) :=
                fun _ => editClean_of_cleanDocument d _ rfl rfl hr ho
              have hreal := c.save_real d (s := ⟨o.text, true, c.tree⟩) rfl rfl
              simp only [hedit, save_dry, hreal]
              refine ⟨rfl, ?_⟩
              rw [preview?_cleanSummary rfl]
              refine ⟨d.path, hpath, rfl, ?_⟩
              cases c.tree.writeText d.path o.text with
              | error e => exact ⟨rfl, rfl⟩
              | ok tree => exact ⟨rfl, rfl⟩

/-! ### Whole commands -/

/-- What goes before the edit does not depend on whether the file will be written. -/
theorem foretells_edit {file : Option String} {dry real : OpenDocument → List String → Outcome}
    (h : ∀ d warnings, c.path file = .ok d.path →
      c.Foretells file (dry d warnings) (real d warnings)) :
    c.Foretells file
      (match c.document file, c.permission with
        | .error e, _ | .ok _, .error e => c.fails e
        | .ok d, .ok warnings => dry d warnings)
      (match c.document file, c.permission with
        | .error e, _ | .ok _, .error e => c.fails e
        | .ok d, .ok warnings => real d warnings) := by
  cases hd : c.document file with
  | error e => exact c.foretells_refl rfl rfl
  | ok d =>
      cases c.permission with
      | error e => exact c.foretells_refl rfl rfl
      | ok warnings =>
          obtain ⟨path, t, hpath, -, rfl⟩ := document_eq_ok hd
          exact h _ warnings hpath

theorem foretells_execute {command : Command} {file : Option String}
    (hedits : command = .clean file ∨ ∃ all, command = .fix file all) :
    c.Foretells file (({ c with dryRun := true } : Context).execute (some command))
      (({ c with dryRun := false } : Context).execute (some command)) := by
  rcases hedits with rfl | ⟨all, rfl⟩
  · exact c.foretells_edit fun d warnings hpath => c.foretells_cleanDocument d warnings hpath
  · exact c.foretells_edit fun d warnings hpath => c.foretells_fixDocument d warnings hpath all

end Context

theorem context_dryRun (o : Options) (dry : Bool) (env : Environment) (tree : FileTree) :
    ({ o with dryRun := dry } : Options).context env tree =
      (o.context env tree).map fun c => { c with dryRun := dry } := by
  have hpath : ({ o with dryRun := dry } : Options).settingsPath env = o.settingsPath env := rfl
  simp only [Options.context, hpath]
  cases Settings.load tree env (o.settingsPath env) with
  | error e => rfl
  | ok s => rfl

namespace Invocation

variable {i : Invocation} {file : Option String} {env : Environment} {tree : FileTree}

/-- The same command line as a dry run. -/
def asDryRun (i : Invocation) : Invocation :=
  { i with options.dryRun := true }

def lines (i : Invocation) (env : Environment) (tree : FileTree) : List String :=
  match i.options.context env tree with
  | .error _ => []
  | .ok c => (c.execute i.command).out

theorem out_run (i : Invocation) (env : Environment) (tree : FileTree) :
    (i.run env tree).out = joinLines (i.lines env tree) := by
  unfold run lines
  cases i.options.context env tree <;> rfl

/-- Without settings neither run gets as far as its command. -/
theorem run_asDryRun_of_error {e : SettingsError} (h : i.options.context env tree = .error e) :
    i.run env tree = i.asDryRun.run env tree ∧ (i.asDryRun.run env tree).tree = tree ∧
      i.asDryRun.lines env tree = [] := by
  have h' := context_dryRun i.options true env tree
  rw [h] at h'
  have hcontext : i.asDryRun.options.context env tree = .error e := h'
  have hrun : i.run env tree = Outcome.result ⟨[], [], some (.ofSettings e), tree⟩ .normal := by
    unfold run
    rw [h]
  have hrun' : i.asDryRun.run env tree =
      Outcome.result ⟨[], [], some (.ofSettings e), tree⟩ .normal := by
    unfold run
    rw [hcontext]
  have hlines : i.asDryRun.lines env tree = [] := by
    unfold lines
    rw [hcontext]
  exact ⟨hrun.trans hrun'.symm, congrArg RunResult.tree hrun', hlines⟩

theorem exists_foretells {c : Context} (h : i.options.context env tree = .ok c)
    (hreal : i.options.dryRun = false)
    (hedits : i.command = some (.clean file) ∨ ∃ all, i.command = some (.fix file all)) :
    ∃ dry real, c.tree = tree ∧ c.Foretells file dry real ∧
      i.run env tree = real.result i.options.verbosity ∧
      i.asDryRun.run env tree = dry.result i.options.verbosity ∧
      i.asDryRun.lines env tree = dry.out := by
  obtain ⟨rfl, hoff, -⟩ := context_eq_ok h
  have hsame : { c with dryRun := false } = c := by
    rw [← hreal, ← hoff]
  have h' := context_dryRun i.options true env c.tree
  rw [h] at h'
  have hcontext : i.asDryRun.options.context env c.tree = .ok { c with dryRun := true } := h'
  obtain ⟨command, hcommand, hedits⟩ : ∃ command, i.command = some command ∧
      (command = .clean file ∨ ∃ all, command = .fix file all) := by
    rcases hedits with h | ⟨all, h⟩
    · exact ⟨_, h, .inl rfl⟩
    · exact ⟨_, h, .inr ⟨all, rfl⟩⟩
  have hforetells := c.foretells_execute hedits
  rw [hsame, ← hcommand] at hforetells
  refine ⟨_, _, rfl, hforetells, ?_, ?_, ?_⟩
  · unfold run
    rw [h]
  · unfold run
    rw [hcontext]
    rfl
  · unfold lines
    rw [hcontext]
    rfl

end Invocation

/-- A command line that edits, and the same one as a dry run, which changes no file.  If the dry
run shows a text, the real run writes this text to the file, unless the file cannot be written.  If
not, the real run is the same.  So their exit codes differ only if the file cannot be written. -/
theorem run_preview {words words' : List String} {i : Invocation} {file : Option String}
    (hwords : Invocation.read words = .ok i) (hwords' : Invocation.read words' = .ok i.asDryRun)
    (hreal : i.options.dryRun = false)
    (hedits : i.command = some (.clean file) ∨ ∃ all, i.command = some (.fix file all))
    (env : Environment) (tree : FileTree) :
    ∃ real dry, run words env tree = .ok real ∧ run words' env tree = .ok dry ∧
      dry.tree = tree ∧ dry.out = joinLines (i.asDryRun.lines env tree) ∧
      (∀ c path, i.options.context env tree = .ok c → c.path file = .ok path →
        tree.IsWritable path → real.exitCode = dry.exitCode) ∧
      match preview? (i.asDryRun.lines env tree) with
      | none => real = dry
      | some t =>
        ∃ c path, i.options.context env tree = .ok c ∧ c.path file = .ok path ∧ dry.exitCode = 0 ∧
          match tree.writeText path t with
          | .ok tree' => real.exitCode = 0 ∧ real.tree = tree'
          | .error _ => real.exitCode = 1 ∧ real.tree = tree := by
  have hrun : run words env tree = .ok (i.run env tree) := by
    rw [run, hwords]
    rfl
  have hrun' : run words' env tree = .ok (i.asDryRun.run env tree) := by
    rw [run, hwords']
    rfl
  have hout := i.asDryRun.out_run env tree
  refine ⟨_, _, hrun, hrun', ?_⟩
  cases hc : i.options.context env tree with
  | error e =>
      obtain ⟨hsame, htree, hlines⟩ := Invocation.run_asDryRun_of_error hc
      rw [hlines] at hout ⊢
      exact ⟨htree, hout, fun _ _ _ _ _ => congrArg RunResult.exitCode hsame, hsame⟩
  | ok c =>
      obtain ⟨dry, real, rfl, hforetells, hresult, hresult', hlines⟩ :=
        Invocation.exists_foretells hc hreal hedits
      rw [hresult, hresult', hlines]
      rw [hresult', hlines] at hout
      refine ⟨hforetells.1, hout, ?_, ?_⟩
      · rintro c' path ⟨⟩ hpath hwritable
        refine hforetells.exitCode_eq _ fun path' hpath' => ?_
        obtain rfl : path = path' := Except.ok.inj (hpath.symm.trans hpath')
        exact hwritable
      · obtain ⟨htree, hshown⟩ := hforetells
        cases hpreview : preview? dry.out with
        | none =>
            simp only [hpreview] at hshown
            rw [hshown]
        | some t =>
            simp only [hpreview] at hshown
            obtain ⟨path, hpath, hdry, hwrite⟩ := hshown
            have hexit : (dry.result i.options.verbosity).exitCode = 0 := by
              simp only [Outcome.result, hdry]
              rfl
            refine ⟨c, path, rfl, hpath, hexit, ?_⟩
            cases hwrote : c.tree.writeText path t with
            | error e =>
                simp only [hwrote] at hwrite
                simp only [Outcome.result, hwrite]
                exact ⟨rfl, trivial⟩
            | ok tree =>
                simp only [hwrote] at hwrite
                simp only [Outcome.result, hwrite]
                exact ⟨rfl, trivial⟩

def smallCleaned : Text :=
  "[\n  \x7b\n    \"command\": \"a\"\n  \x7d\n]".toList

theorem run_preview_clean :
    ∃ real dry, run ["clean", "k.json", "--commands", "c.json"] ⟨[], none⟩ smallTree = .ok real ∧
      run ["clean", "k.json", "--commands", "c.json", "--dry-run"] ⟨[], none⟩ smallTree = .ok dry ∧
      dry.tree = smallTree ∧ real.exitCode = dry.exitCode ∧
      dry.out = joinLines
        [String.ofList smallCleaned, "ℹ Dry run: Removed 1 invalid keybinding(s), kept 1"] ∧
      smallTree.writeText "k.json" smallCleaned = .ok real.tree := by
  let i : Invocation := ⟨some (.clean (some "k.json")), { commands := some "c.json" }⟩
  have hwords : Invocation.read ["clean", "k.json", "--commands", "c.json"] = .ok i := rfl
  have hwords' : Invocation.read ["clean", "k.json", "--commands", "c.json", "--dry-run"] =
      .ok i.asDryRun := rfl
  have hlines : i.asDryRun.lines ⟨[], none⟩ smallTree =
      [String.ofList smallCleaned, "ℹ Dry run: Removed 1 invalid keybinding(s), kept 1"] := by
    decide +kernel
  have hpreview : preview? [String.ofList smallCleaned,
      "ℹ Dry run: Removed 1 invalid keybinding(s), kept 1"] = some smallCleaned := rfl
  obtain ⟨real, dry, hrun, hrun', htree, hout, hexit, hshown⟩ :=
    run_preview hwords hwords' rfl (.inl rfl) ⟨[], none⟩ smallTree
  simp only [hlines, hpreview] at hout hshown
  obtain ⟨c, path, hc, hpath, -, hwrite⟩ := hshown
  obtain rfl : path = "k.json" := (Except.ok.inj hpath).symm
  have hwritable : smallTree.IsWritable "k.json" := fun t => ⟨_, rfl⟩
  have hwrote : ∃ tree, smallTree.writeText "k.json" smallCleaned = .ok tree := hwritable _
  obtain ⟨tree, hwrote⟩ := hwrote
  simp only [hwrote] at hwrite
  exact ⟨real, dry, hrun, hrun', htree, hexit c _ hc hpath hwritable, hout, hwrite.2 ▸ hwrote⟩

end Keybindings.Cli
