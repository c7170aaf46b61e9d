import Keybindings.Proofs.Removal

/-!
Fixing all entries of a document comes to an end.

Every quick fix on offer applies, and leaves fewer problems to fix: it takes one invalid entry away,
or else it leaves a text that is no document, for which nothing is offered (`exists_apply_of_mem`).
So the number of fixable diagnostics bounds the rounds of the loop, and it is their absence and not
the bound that stops it (`Cli.Fixing.run_ends`).
-/

namespace Keybindings

/-- How many diagnostics of a text a quick fix is offered for. -/
def fixableCount (label : String) (r : Registry) (t : Text) : Nat :=
  ((Validation.document label t r).filter (·.kind.isFixable)).length

theorem length_codeActions (uri label : String) (r : Registry) (t : Text) :
    (codeActions t uri (Validation.document label t r)).length = fixableCount label r t := by
  rw [codeActions, List.length_map, fixableCount]

theorem fixableCount_of_error (label : String) (r : Registry) {t : Text} {e : ParseError}
    (h : Document.parse t = .error e) : fixableCount label r t = 0 := by
  rw [fixableCount, Validation.document, h]
  rfl

theorem fixableCount_of_ok (label : String) (r : Registry) {t : Text} {es : List Entry}
    (h : Document.parse t = .ok es) : fixableCount label r t = invalidCount es r := by
  rw [← length_codeActions "", codeActions_document "" label r h, List.length_map,
    Validation.document_eq_flags label r h,
    Validation.length_flags_zip label r (length_elementSpans h).symm]

theorem invalidCount_append (es es' : List Entry) (r : Registry) :
    invalidCount (es ++ es') r = invalidCount es r + invalidCount es' r := by
  rw [invalidCount, List.filter_append, List.length_append, invalidCount, invalidCount]

theorem invalidCount_eraseIdx {es : List Entry} {r : Registry} {i : Nat} {e : Entry}
    (he : es[i]? = some e) (hinvalid : e.isValid r = false) :
    invalidCount es r = invalidCount (es.eraseIdx i) r + 1 := by
  obtain ⟨hi, rfl⟩ := List.getElem?_eq_some_iff.mp he
  have hsplit : es = es.take i ++ es[i] :: es.drop (i + 1) := by
    rw [List.getElem_cons_drop, List.take_append_drop]
  rw [List.eraseIdx_eq_take_drop_succ, invalidCount_append]
  conv_lhs => rw [hsplit]
  rw [invalidCount_append, invalidCount_cons_invalid hinvalid, Nat.add_assoc]

theorem exists_entry_of_mem {t : Text} {es : List Entry} {uri label : String} {r : Registry}
    (h : Document.parse t = .ok es) {action : CodeAction}
    (hmem : action ∈ codeActions t uri (Validation.document label t r)) :
    ∃ (i : Nat) (e : Entry) (s : Span), es[i]? = some e ∧ (elementSpans t)[i]? = some s ∧
      e.isValid r = false ∧ action.edit = .delete (QuickFix.planDeletion t s) := by
  rw [codeActions_document uri label r h, Validation.document_eq_flags label r h,
    Validation.flags, List.map_map] at hmem
  obtain ⟨⟨e, s⟩, hfound, rfl⟩ := List.mem_map.mp hmem
  obtain ⟨hzip, hinvalid⟩ := List.mem_filter.mp hfound
  obtain ⟨i, hi⟩ := List.getElem?_of_mem hzip
  obtain ⟨he, hs⟩ := List.getElem?_zip_eq_some.mp hi
  refine ⟨i, e, s, he, hs, by simpa using hinvalid, ?_⟩
  rw [Function.comp_apply, Validation.span_flag]

/-- A quick fix that is offered applies, and leaves less to fix. -/
theorem exists_apply_of_mem {t : Text} {uri label : String} {r : Registry} {action : CodeAction}
    (hmem : action ∈ codeActions t uri (Validation.document label t r)) :
    ∃ t', action.edit.apply t = .ok t' ∧ fixableCount label r t' < fixableCount label r t := by
  cases hparse : Document.parse t with
  | error err =>
      have hpos := List.length_pos_of_mem hmem
      rw [length_codeActions, fixableCount_of_error label r hparse] at hpos
      omega
  | ok es =>
      obtain ⟨i, e, s, he, hs, hinvalid, hedit⟩ := exists_entry_of_mem hparse hmem
      have hcount := invalidCount_eraseIdx he hinvalid
      rw [hedit, fixableCount_of_ok label r hparse]
      obtain ⟨L, rfl, hes⟩ := Document.parse_eq_ok_iff.mp hparse
      obtain ⟨t', happly, hleft⟩ := delete_entry hes hs
      refine ⟨t', happly, ?_⟩
      split at hleft
      · rw [fixableCount_of_ok label r hleft]
        omega
      · obtain ⟨err, hleft⟩ := hleft
        rw [fixableCount_of_error label r hleft]
        omega

namespace Cli.Fixing

variable {c : Context} {d : OpenDocument} {r : Registry}

/-- A round either finds nothing to do or applies the first quick fix. -/
theorem step_cases (hr : c.source.registry = .ok r) (s : Staged) :
    ((c.fixing d).offers s.text = .ok [] ∧ (c.fixing d).step s = .ok none ∧
      fixableCount c.settings.diagnosticSource r s.text = 0) ∨
    ∃ action rest s', (c.fixing d).offers s.text = .ok (action :: rest) ∧
      (c.fixing d).editor.apply s d.uri action.edit = (true, s') ∧
      (c.fixing d).step s = .ok (some (action.diagnostic.message, s')) ∧
      fixableCount c.settings.diagnosticSource r s'.text <
        fixableCount c.settings.diagnosticSource r s.text := by
  have hoffers := offers_eq hr d s.text
  have hcount := length_codeActions d.uri c.settings.diagnosticSource r s.text
  cases hactions : codeActions s.text d.uri
      (Validation.document c.settings.diagnosticSource s.text r) with
  | nil =>
      rw [hactions] at hoffers hcount
      refine .inl ⟨hoffers, ?_, hcount.symm⟩
      rw [step, hoffers]
      rfl
  | cons action rest =>
      have hmem : action ∈ codeActions s.text d.uri
          (Validation.document c.settings.diagnosticSource s.text r) := by
        rw [hactions]
        exact List.mem_cons_self
      obtain ⟨t', happly, hlt⟩ := exists_apply_of_mem hmem
      have hedit : (c.fixing d).editor.apply s d.uri action.edit =
          (true, { s with text := t', dirty := true }) := by
        rw [FileEditor.apply, happly]
        exact if_pos rfl
      rw [hactions] at hoffers
      exact .inr ⟨action, rest, _, hoffers, hedit, step_of_offer hoffers hedit, hlt⟩

/-- The loop ends by itself if it may take as many rounds as there are problems to fix. -/
theorem run_ends (hr : c.source.registry = .ok r) (s : Staged) :
    ∃ messages s', (c.fixing d).offers s'.text = .ok [] ∧
      messages.length ≤ fixableCount c.settings.diagnosticSource r s.text ∧
      ∀ n, fixableCount c.settings.diagnosticSource r s.text ≤ n →
        (c.fixing d).run n s = (messages, .ok s') := by
  -- on the problems that are left, so that one and the same run serves every larger bound
  induction hk : fixableCount c.settings.diagnosticSource r s.text using Nat.strongRecOn
    generalizing s with
  | ind k ih =>
      rcases step_cases hr s with ⟨hoffers, hstep, -⟩ | ⟨action, rest, s₁, -, -, hstep, hlt⟩
      · refine ⟨[], s, hoffers, Nat.zero_le k, fun n _ => ?_⟩
        cases n with
        | zero => rfl
        | succ n => rw [run, hstep]
      · obtain ⟨messages, s', hoffers, hlength, hrun⟩ := ih _ (hk ▸ hlt) s₁ rfl
        refine ⟨action.diagnostic.message :: messages, s', hoffers, ?_, fun n hn => ?_⟩
        · rw [List.length_cons]
          omega
        · cases n with
          | zero => omega
          | succ n =>
              have hrest := hrun n (by omega)
              rw [run, hstep]
              simp only [hrest]

theorem exists_run (hr : c.source.registry = .ok r) (n : Nat) (s : Staged) :
    ∃ messages s', (c.fixing d).run n s = (messages, .ok s') := by
  induction n generalizing s with
  | zero => exact ⟨[], s, rfl⟩
  | succ n ih =>
      rcases step_cases hr s with ⟨-, hstep, -⟩ | ⟨action, rest, s₁, -, -, hstep, -⟩
      · refine ⟨[], s, ?_⟩
        rw [run, hstep]
      · obtain ⟨messages, s', hrun⟩ := ih s₁
        refine ⟨action.diagnostic.message :: messages, s', ?_⟩
        rw [run, hstep]
        simp only [hrun]

/-- The command never meets a quick fix that does not apply. -/
theorem failure_fixDocument (hr : c.source.registry = .ok r) (d : OpenDocument) (all : Bool)
    (warnings : List String) (message : String) :
    (c.fixDocument d all warnings).failure ≠ some (.internal message) := by
  have hbudget : ∃ n, (c.fixing d).budget all d.text = .ok n := by
    rw [budget, offers_eq hr]
    exact ⟨_, rfl⟩
  obtain ⟨n, hbudget⟩ := hbudget
  obtain ⟨messages, s, hrun⟩ := exists_run (d := d) hr n (FileEditor.start d.text c.tree)
  unfold Context.fixDocument
  simp only [hbudget, hrun]
  cases messages with
  | nil =>
      intro h
      cases h
  | cons first messages =>
      simp only
      generalize (c.editor d).save s d.uri = saved
      obtain ⟨outcome, s'⟩ := saved
      intro h
      cases outcome <;> cases h

/-- Every round of the loop that finds a quick fix applies it and leaves less to fix, so that the
loop over a document ends for want of problems, within as many rounds as there were at first. -/
theorem run_progress (c : Context) (d : OpenDocument) {r : Registry}
    (hr : c.source.registry = .ok r) :
    (∀ s : Staged, ∃ actions, (c.fixing d).offers s.text = .ok actions ∧
      actions.length = fixableCount c.settings.diagnosticSource r s.text ∧
      match actions with
      | [] => (c.fixing d).step s = .ok none
      | action :: _ => ∃ s', (c.fixing d).editor.apply s d.uri action.edit = (true, s') ∧
          (c.fixing d).step s = .ok (some (action.diagnostic.message, s')) ∧
          fixableCount c.settings.diagnosticSource r s'.text <
            fixableCount c.settings.diagnosticSource r s.text) ∧
    (∀ warnings message,
      (c.fixDocument d true warnings).failure ≠ some (.internal message)) ∧
    ∃ n messages s, (c.fixing d).budget true d.text = .ok n ∧
      n = fixableCount c.settings.diagnosticSource r d.text ∧ messages.length ≤ n ∧
      (∀ m, n ≤ m →
        (c.fixing d).run m (FileEditor.start d.text c.tree) = (messages, .ok s)) ∧
      (c.fixing d).offers s.text = .ok [] ∧
      fixableCount c.settings.diagnosticSource r s.text = 0 := by
  refine ⟨fun s => ?_, failure_fixDocument hr d true, ?_⟩
  · refine ⟨_, offers_eq hr d s.text, length_codeActions _ _ _ _, ?_⟩
    rcases step_cases (d := d) hr s with ⟨hoffers, hstep, -⟩ |
      ⟨action, rest, s', hoffers, hedit, hstep, hlt⟩
    · rw [Except.ok.inj ((offers_eq hr d s.text).symm.trans hoffers)]
      exact hstep
    · rw [Except.ok.inj ((offers_eq hr d s.text).symm.trans hoffers)]
      exact ⟨s', hedit, hstep, hlt⟩
  · have hbudget : (c.fixing d).budget true d.text =
        .ok (fixableCount c.settings.diagnosticSource r d.text) := by
      rw [budget, offers_eq hr, ← length_codeActions d.uri]
      rfl
    obtain ⟨messages, s, hoffers, hlength, hrun⟩ :=
      run_ends (d := d) hr (FileEditor.start d.text c.tree)
    refine ⟨_, messages, s, hbudget, rfl, hlength, hrun, hoffers, ?_⟩
    rw [← length_codeActions d.uri, Except.ok.inj ((offers_eq hr d s.text).symm.trans hoffers)]
    rfl

/-- Two problems, of which the second cannot be fixed any more once the first is. -/
theorem run_progress_onManyLines :
    sampleContext.source.registry = .ok ⟨["good"], true⟩ ∧ ∃ messages s,
      (sampleContext.fixing ⟨"", "k.json", onManyLines⟩).budget true onManyLines = .ok 2 ∧
      messages.length ≤ 2 ∧
      (∀ m, 2 ≤ m → (sampleContext.fixing ⟨"", "k.json", onManyLines⟩).run m
        (FileEditor.start onManyLines sampleContext.tree) = (messages, .ok s)) ∧
      (sampleContext.fixing ⟨"", "k.json", onManyLines⟩).offers s.text = .ok [] := by
  have hr : sampleContext.source.registry = .ok ⟨["good"], true⟩ := rfl
  obtain ⟨-, -, n, messages, s, hbudget, hn, hlength, hrun, hoffers, -⟩ :=
    run_progress sampleContext ⟨"", "k.json", onManyLines⟩ hr
  have hcount : fixableCount sampleContext.settings.diagnosticSource ⟨["good"], true⟩
      onManyLines = 2 := by decide +kernel
  obtain rfl : n = 2 := hn.trans hcount
  exact ⟨hr, messages, s, hbudget, hlength, hrun, hoffers⟩

end Cli.Fixing

end Keybindings
