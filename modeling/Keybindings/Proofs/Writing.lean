import Keybindings.Cli.Run
import Keybindings.Proofs.Files
import Keybindings.Proofs.Session
import Keybindings.Proofs.Text.Offsets

/-!
What a run of the program does to the files.

Each command either leaves the files as they were or, when it succeeds, writes one text to the
document it works on (`Context.Saves`); which text, and under which conditions, is collected along
the way from the single command to the whole run (`run_writes`).
-/

namespace Keybindings.Cli

/-! ### Fixing -/

namespace Fixing

variable {f : Fixing} {s s' : Staged}

/-- What a step leaves behind comes from an edit that the editor accepted. -/
theorem exists_apply_of_step {message : String} (h : f.step s = .ok (some (message, s'))) :
    ∃ e, f.editor.apply s f.editor.uri e = (true, s') := by
  obtain ⟨actions, -, h⟩ := bind_eq_ok_iff.mp h
  cases actions with
  | nil => cases h
  | cons action rest =>
      refine ⟨action.edit, ?_⟩
      simp only at h
      generalize f.editor.apply s f.editor.uri action.edit = answer at h ⊢
      obtain ⟨accepted, s₁⟩ := answer
      cases accepted with
      | false => cases h
      | true =>
          cases h
          rfl

theorem tree_step {message : String} (h : f.step s = .ok (some (message, s'))) :
    s'.tree = s.tree := by
  obtain ⟨e, happly⟩ := exists_apply_of_step h
  have htree := f.editor.tree_apply s f.editor.uri e
  rwa [happly] at htree

theorem tree_run {n : Nat} {messages : List String} (h : f.run n s = (messages, .ok s')) :
    s'.tree = s.tree := by
  induction n generalizing s messages with
  | zero =>
      cases h
      rfl
  | succ n ih =>
      rw [run] at h
      cases hstep : f.step s with
      | error e =>
          rw [hstep] at h
          cases h
      | ok o =>
          cases o with
          | none =>
              rw [hstep] at h
              cases h
              rfl
          | some p =>
              obtain ⟨message, s₁⟩ := p
              simp only [hstep, Prod.mk.injEq] at h
              rw [ih (Prod.ext rfl h.2), tree_step hstep]

end Fixing

/-! ### Cleaning -/

/-- The part of a cleaning that edits changes no file, or writes the cleaned text. -/
theorem editClean_cases (ed : FileEditor) (s : Staged) (d : OpenDocument) (source : Source)
    (hs : s.text = d.text) :
    (editClean ed.editor s d source).1.tree = s.tree ∨ ed.dryRun = false ∧
      ∃ r o, source.registry = .ok r ∧ cleanDocument d.text r = .ok o ∧
        (editClean ed.editor s d source).2 = .saved o ∧
        s.tree.writeText ed.path o.text = .ok (editClean ed.editor s d source).1.tree := by
  unfold editClean
  cases hr : source.registry with
  | error e => exact .inl rfl
  | ok r =>
      simp only
      cases ho : cleanDocument d.text r with
      | error e => exact .inl rfl
      | ok o =>
          simp only [FileEditor.editor, ← hs]
          rcases ed.apply_whole_cases s d.uri o.text with happly | happly
          · rw [happly]
            exact .inl rfl
          · rw [happly]
            have hsave := ed.save_cases { s with text := o.text, dirty := true } d.uri
            simp only at hsave ⊢
            generalize ed.save { s with text := o.text, dirty := true } d.uri = saved at hsave ⊢
            obtain ⟨result, s'⟩ := saved
            rcases hsave with hs' | ⟨rfl, hdry, hwrite⟩
            · cases result <;> exact .inl hs'
            · exact .inr ⟨hdry, r, o, rfl, hs ▸ ho, rfl, hwrite⟩

/-! ### Single commands -/

namespace Context

/-- The text that a command puts in place of the document `d`. -/
inductive Produces (c : Context) (d : OpenDocument) : Command → Text → Prop
  /-- The text that the loop of quick fixes reaches. -/
  | fix {file all n messages s} (hbudget : (c.fixing d).budget all d.text = .ok n)
      (hrun : (c.fixing d).run n (FileEditor.start d.text c.tree) = (messages, .ok s)) :
      Produces c d (.fix file all) s.text
  | clean {file r o} (hr : c.source.registry = .ok r)
      (ho : Keybindings.cleanDocument d.text r = .ok o) : Produces c d (.clean file) o.text

/-- The files are as they were, or, after a success outside of a dry run, a text that the command
produces was written to the document. -/
def Saves (c : Context) (d : OpenDocument) (command : Command) (o : Outcome) : Prop :=
  o.tree = c.tree ∨ o.failure = none ∧ c.dryRun = false ∧
    ∃ t, c.Produces d command t ∧ c.tree.writeText d.path t = .ok o.tree

variable (c : Context) (d : OpenDocument) (warnings : List String)

theorem saves_fixDocument (file : Option String) (all : Bool) :
    c.Saves d (.fix file all) (c.fixDocument d all warnings) := by
  unfold fixDocument
  cases hbudget : (c.fixing d).budget all d.text with
  | error e => exact .inl rfl
  | ok n =>
      simp only
      generalize hrun : (c.fixing d).run n (FileEditor.start d.text c.tree) = answer
      obtain ⟨messages, result⟩ := answer
      cases result with
      | error e => exact .inl rfl
      | ok s =>
          have htree : s.tree = c.tree := Fixing.tree_run hrun
          have hsave := (c.editor d).save_cases s d.uri
          cases messages with
          | nil => exact .inl rfl
          | cons message messages =>
              simp only
              generalize (c.editor d).save s d.uri = saved at hsave ⊢
              obtain ⟨outcome, s'⟩ := saved
              rcases hsave with hs' | ⟨rfl, hdry, hwrite⟩
              · rw [htree] at hs'
                cases outcome <;> exact .inl hs'
              · rw [htree] at hwrite
                exact .inr ⟨rfl, hdry, s.text, .fix hbudget hrun, hwrite⟩

theorem saves_cleanDocument (file : Option String) :
    c.Saves d (.clean file) (c.cleanDocument d warnings) := by
  have hclean := editClean_cases (c.editor d) (FileEditor.start d.text c.tree) d c.source rfl
  unfold cleanDocument EngineSetup.clean
  cases htarget : (c.engine d.path).cleanTarget? (some d) with
  | none => exact .inl rfl
  | some d' =>
      obtain rfl : d = d' := Option.some.inj (Option.filter_eq_some_iff.mp htarget).1
      simp only [EngineSetup.finishClean_eq]
      generalize editClean (c.editor d).editor (FileEditor.start d.text c.tree) d c.source = answer
        at hclean ⊢
      obtain ⟨s, stage⟩ := answer
      rcases hclean with htree | ⟨hdry, r, o, hr, ho, rfl, hwrite⟩
      · cases stage with
        | saved o => exact .inl htree
        | ended result =>
            cases result with
            | error e => exact .inl htree
            | ok result => cases result <;> exact .inl htree
      · exact .inr ⟨rfl, hdry, o.text, .clean hr ho, hwrite⟩

variable {c}

theorem document_eq_ok {file : Option String} {d : OpenDocument} (h : c.document file = .ok d) :
    ∃ path t, c.path file = .ok path ∧ c.tree.readText path = .ok t ∧ d = .ofPath path t := by
  obtain ⟨path, hpath, h⟩ := bind_eq_ok_iff.mp h
  cases ht : c.tree.readText path with
  | error e =>
      rw [ht] at h
      cases h
  | ok t =>
      rw [ht] at h
      cases h
      exact ⟨path, t, hpath, ht, rfl⟩

theorem permission_eq_ok {warnings : List String} (h : c.permission = .ok warnings) :
    ∃ r, c.source.registry = .ok r ∧ (r.hostListed = true ∨ c.force = true) := by
  unfold permission at h
  cases hr : c.source.registry with
  | error e =>
      rw [hr] at h
      cases h
  | ok r =>
      rw [hr] at h
      refine ⟨r, rfl, ?_⟩
      by_cases hlisted : r.hostListed = true
      · exact .inl hlisted
      · by_cases hforce : c.force = true
        · exact .inr hforce
        · simp [hlisted, hforce] at h

theorem tree_check (c : Context) (file : Option String) (format : ReportFormat) :
    (c.check file format).tree = c.tree := by
  unfold check
  cases c.document file with
  | error e => rfl
  | ok d =>
      simp only
      generalize (c.engine d.path).update {} d c.source = answer
      obtain ⟨s, outcome⟩ := answer
      cases outcome <;> rfl

theorem tree_showCommands (c : Context) (list : Bool) : (c.showCommands list).tree = c.tree := by
  unfold showCommands
  cases c.source.registry <;> rfl

theorem fix_cases (c : Context) (file : Option String) (all : Bool) :
    (c.fix file all).tree = c.tree ∨ ∃ d warnings, c.document file = .ok d ∧
      c.permission = .ok warnings ∧ c.fix file all = c.fixDocument d all warnings := by
  unfold fix
  cases c.document file with
  | error e => exact .inl rfl
  | ok d =>
      cases c.permission with
      | error e => exact .inl rfl
      | ok warnings => exact .inr ⟨d, warnings, rfl, rfl, rfl⟩

theorem clean_cases (c : Context) (file : Option String) :
    (c.clean file).tree = c.tree ∨ ∃ d warnings, c.document file = .ok d ∧
      c.permission = .ok warnings ∧ c.clean file = c.cleanDocument d warnings := by
  unfold clean
  cases c.document file with
  | error e => exact .inl rfl
  | ok d =>
      cases c.permission with
      | error e => exact .inl rfl
      | ok warnings => exact .inr ⟨d, warnings, rfl, rfl, rfl⟩

/-- Carrying out a command changes no file, unless the command edits a document that could be read
and has the permission to. -/
theorem execute_cases (c : Context) (command : Option Command) :
    (c.execute command).tree = c.tree ∨ ∃ edit d warnings, command = some edit ∧
      c.document edit.file? = .ok d ∧ c.permission = .ok warnings ∧
      c.Saves d edit (c.execute command) := by
  cases command with
  | none => exact .inl (c.tree_check none .text)
  | some command =>
      cases command with
      | check file format => exact .inl (c.tree_check file format)
      | commands list => exact .inl (c.tree_showCommands list)
      | config => exact .inl rfl
      | fix file all =>
          rcases c.fix_cases file all with h | ⟨d, warnings, hd, hpermission, h⟩
          · exact .inl h
          · refine .inr ⟨_, d, warnings, rfl, hd, hpermission, ?_⟩
            show c.Saves d _ (c.fix file all)
            rw [h]
            exact c.saves_fixDocument d warnings file all
      | clean file =>
          rcases c.clean_cases file with h | ⟨d, warnings, hd, hpermission, h⟩
          · exact .inl h
          · refine .inr ⟨_, d, warnings, rfl, hd, hpermission, ?_⟩
            show c.Saves d _ (c.clean file)
            rw [h]
            exact c.saves_cleanDocument d warnings file

end Context

theorem context_eq_ok {o : Options} {env : Environment} {tree : FileTree} {c : Context}
    (h : o.context env tree = .ok c) :
    c.tree = tree ∧ c.dryRun = o.dryRun ∧ c.force = o.force := by
  obtain ⟨settings, -, h⟩ := bind_eq_ok_iff.mp h
  cases h
  exact ⟨rfl, rfl, rfl⟩

/-- A run that changes what is found at a place succeeds, and the place is that of the keybindings
file of a `fix` or `clean` that is no dry run and either knows the editor's own commands or is
forced.  The file held a text, and now holds the text that the command produces from it. -/
theorem run_writes {words : List String} {env : Environment} {tree : FileTree} {res : RunResult}
    (h : run words env tree = .ok res) {q : Place} (hq : res.tree.node? q ≠ tree.node? q) :
    res.exitCode = 0 ∧ ∃ i c command path t t',
      Invocation.read words = .ok i ∧ i.options.context env tree = .ok c ∧
      i.command = some command ∧ i.options.dryRun = false ∧
      (∃ r, c.source.registry = .ok r ∧ (r.hostListed = true ∨ i.options.force = true)) ∧
      c.path command.file? = .ok path ∧ tree.locate path.toList = .ok q ∧
      tree.node? q = some (.file (.text t)) ∧ c.Produces (.ofPath path t) command t' ∧
      res.tree.node? q = some (.file (.text t')) := by
  obtain ⟨i, hi, rfl⟩ : ∃ i, Invocation.read words = .ok i ∧ i.run env tree = res := by
    cases hi : Invocation.read words with
    | error e =>
        rw [run, hi] at h
        cases h
    | ok i =>
        rw [run, hi] at h
        exact ⟨i, rfl, Except.ok.inj h⟩
  unfold Invocation.run at hq ⊢
  cases hc : i.options.context env tree with
  | error e =>
      rw [hc] at hq
      exact absurd rfl hq
  | ok c =>
      rw [hc] at hq
      simp only at hq ⊢
      obtain ⟨rfl, hdry, hforce⟩ := context_eq_ok hc
      rcases c.execute_cases i.command with htree | ⟨command, d, warnings, hcommand, hd, hp, hsaves⟩
      · exact absurd (congrArg (·.node? q) htree) hq
      · rcases hsaves with htree | ⟨hfailure, hdry', t', hproduces, hwrite⟩
        · exact absurd (congrArg (·.node? q) htree) hq
        · obtain ⟨path, t, hpath, hread, rfl⟩ := Context.document_eq_ok hd
          obtain ⟨hlocate, hold, hnew⟩ :=
            (FileTree.node?_writeText hread hwrite q).resolve_left hq
          have hexit : ((c.execute i.command).result i.options.verbosity).exitCode = 0 := by
            simp only [Outcome.result, hfailure]
            rfl
          refine ⟨hexit, i, c, command, path, t, t', hi, hc, hcommand, hdry ▸ hdry', ?_, hpath,
            hlocate, hold, hproduces, hnew⟩
          rw [← hforce]
          exact Context.permission_eq_ok hp

/-- A directory with a keybindings file, one entry of which is not valid, and a command list. -/
def smallTree : FileTree where
  nodes := [
    ([['w']], .directory),
    ([['w'], "k.json".toList], .file (.text "[\x7b\"command\": \"a\"\x7d, \x7b\x7d]".toList)),
    ([['w'], "c.json".toList], .file (.text "[\"a\"]".toList))]
  workingDir := [['w']]

theorem run_writes_clean : ∃ res c command path t t',
    run ["clean", "k.json", "--commands", "c.json"] ⟨[], none⟩ smallTree = .ok res ∧
      res.exitCode = 0 ∧ smallTree.node? [['w'], "k.json".toList] = some (.file (.text t)) ∧
      Context.Produces c (.ofPath path t) command t' ∧
      res.tree.node? [['w'], "k.json".toList] = some (.file (.text t')) := by
  obtain ⟨hexit, i, c, command, path, t, t', -, -, -, -, -, -, -, hold, hproduces, hnew⟩ :=
    @run_writes ["clean", "k.json", "--commands", "c.json"] ⟨[], none⟩ smallTree _ rfl
      [['w'], "k.json".toList] (by decide +kernel)
  exact ⟨_, c, command, path, t, t', rfl, hexit, hold, hproduces, hnew⟩

end Keybindings.Cli
