import Keybindings.Proofs.Files

/-!
A staged text and its file stay in step.

An editor is asked to stage edits and to save, in any order and for any document, while the rest of
the file system may change (`Occurrence`).  What it holds after any such run is the text that the
accepted edits give, and its file differs from that text only as long as it says so, or in a dry run
(`FileEditor.InStep`, kept by each occurrence and so by every run: `FileEditor.run_inStep`).
-/

namespace Keybindings

/-- A character of the text starts at the offset, or the text ends there. -/
def Text.IsBoundary (t : Text) (n : Nat) : Prop :=
  ∃ a b, t = a ++ b ∧ Text.size a = n

namespace Edit

variable {e : Edit} {t t' : Text}

/-- The span is the wrong way round, out of bounds, or has an end inside a character. -/
def IsMisplaced (e : Edit) (t : Text) : Prop :=
  e.span.stop < e.span.start ∨ Text.size t < e.span.stop ∨
    ¬ t.IsBoundary e.span.start ∨ ¬ t.IsBoundary e.span.stop

/-- The edit puts its text in the place of the piece at its span. -/
def Replaces (e : Edit) (t t' : Text) : Prop :=
  ∃ a x b, t = a ++ x ++ b ∧ e.span = .after a x ∧ t' = a ++ e.newText ++ b

theorem exists_split_of_le {a b a' b' : Text} (h : a ++ b = a' ++ b')
    (hle : Text.size a ≤ Text.size a') : ∃ x, a' = a ++ x ∧ b = x ++ b' := by
  rcases List.append_eq_append_iff.mp h with ⟨x, hx, hb⟩ | ⟨x, hx, hb⟩
  · exact ⟨x, hx, hb⟩
  · -- the other way round, the two cuts are at the same place
    cases x with
    | nil => exact ⟨[], by simpa using hx.symm, by simpa using hb.symm⟩
    | cons c x =>
        rw [hx, Text.size_append, Text.size_cons] at hle
        have hpos := c.utf8Size_pos
        omega

theorem replaces_of_apply (h : e.apply t = .ok t') : e.Replaces t t' := by
  rw [apply] at h
  split at h
  · cases h
  · next hbounds =>
    split at h
    · next a r r' b ha hb =>
      cases h
      obtain ⟨rfl, hstart⟩ := Text.splitAt?_eq_some_iff.mp ha
      obtain ⟨hsplit, hstop⟩ := Text.splitAt?_eq_some_iff.mp hb
      obtain ⟨x, rfl, rfl⟩ := exists_split_of_le hsplit (by omega)
      refine ⟨a, x, b, (List.append_assoc a x b).symm, ?_, rfl⟩
      rw [Text.size_append] at hstop
      rw [Span.after, hstop, hstart]
    · cases h

theorem exists_apply_of_not_isMisplaced (h : ¬ e.IsMisplaced t) : ∃ t', e.apply t = .ok t' := by
  simp only [IsMisplaced, not_or, not_not] at h
  obtain ⟨horder, hsize, ⟨a, r, ha, hstart⟩, a', b, hb, hstop⟩ := h
  have hbounds : ¬ (e.span.stop < e.span.start ∨ Text.size t < e.span.stop) := by
    rintro (hlt | hlt)
    · exact horder hlt
    · exact hsize hlt
  refine ⟨a ++ e.newText ++ b, ?_⟩
  rw [apply, if_neg hbounds, Text.splitAt?_eq_some_iff.mpr ⟨ha, hstart⟩,
    Text.splitAt?_eq_some_iff.mpr ⟨hb, hstop⟩]

theorem not_isMisplaced_of_apply (h : e.apply t = .ok t') : ¬ e.IsMisplaced t := by
  obtain ⟨a, x, b, rfl, hspan, -⟩ := replaces_of_apply h
  rw [IsMisplaced, hspan]
  simp only [Span.after, Text.size_append]
  rintro (hlt | hlt | hstart | hstop)
  · omega
  · omega
  · exact hstart ⟨a, x ++ b, List.append_assoc a x b, rfl⟩
  · exact hstop ⟨a ++ x, b, rfl, Text.size_append a x⟩

end Edit

inductive Occurrence where
  | edit (uri : String) (e : Edit)
  | save (uri : String)
  /-- The files change, for another reason than that the editor saves. -/
  | outside (change : FileTree → FileTree)

/-- Whatever changes from outside, the same is read at the path as before. -/
def Occurrence.Spares (path : String) : Occurrence → Prop
  | .outside change => ∀ tree, (change tree).readText path = tree.readText path
  | _ => True

namespace FileEditor

variable {ed : FileEditor} {s : Staged} {t₀ : Text} {edits : List Edit} {o : Occurrence}

def step (ed : FileEditor) (s : Staged) : Occurrence → Staged
  | .edit uri e => (ed.apply s uri e).2
  | .save uri => (ed.save s uri).2
  | .outside change => { s with tree := change s.tree }

def run (ed : FileEditor) (s : Staged) (os : List Occurrence) : Staged :=
  os.foldl ed.step s

/-- The edit that is accepted in a step, if there is one. -/
def acceptedAt (ed : FileEditor) (s : Staged) : Occurrence → List Edit
  | .edit uri e => if (ed.apply s uri e).1 then [e] else []
  | .save _ | .outside _ => []

def accepted (ed : FileEditor) (s : Staged) : List Occurrence → List Edit
  | [] => []
  | o :: os => ed.acceptedAt s o ++ accepted ed (ed.step s o) os

/-- What an editor holds that started with the text `t₀` of its file and accepted these edits. -/
structure InStep (ed : FileEditor) (t₀ : Text) (edits : List Edit) (s : Staged) : Prop where
  text_eq : edits.foldlM (fun t e => e.apply t) t₀ = .ok s.text
  readText_of_clean : ed.dryRun = false → s.dirty = false → s.tree.readText ed.path = .ok s.text
  readText_of_dryRun : ed.dryRun = true → s.tree.readText ed.path = .ok t₀
  dirty_of_dryRun : ed.dryRun = true → edits ≠ [] → s.dirty = true
  exists_readText : ∃ t, s.tree.readText ed.path = .ok t

/-! ### Single requests -/

theorem apply_cases (ed : FileEditor) (s : Staged) (uri : String) (e : Edit) :
    (uri ≠ ed.uri ∨ e.IsMisplaced s.text) ∧ ed.apply s uri e = (false, s) ∨
      ∃ t, uri = ed.uri ∧ ¬ e.IsMisplaced s.text ∧ e.apply s.text = .ok t ∧
        ed.apply s uri e = (true, { s with text := t, dirty := true }) := by
  rw [apply]
  by_cases huri : uri = ed.uri
  · rw [if_pos huri]
    cases happly : e.apply s.text with
    | error err =>
        refine .inl ⟨.inr ?_, rfl⟩
        by_contra hplaced
        obtain ⟨t, ht⟩ := Edit.exists_apply_of_not_isMisplaced hplaced
        rw [happly] at ht
        cases ht
    | ok t => exact .inr ⟨t, huri, Edit.not_isMisplaced_of_apply happly, rfl, rfl⟩
  · rw [if_neg huri]
    exact .inl ⟨.inl huri, rfl⟩

/-- How saving ends: with a failure, with nothing to do, or with the file written. -/
inductive SaveExit (ed : FileEditor) (s : Staged) (uri : String) : Prop
  | failed {err} (h : ed.save s uri = (.error err, s))
  | skipped (huri : uri = ed.uri) (hskip : s.dirty = false ∨ ed.dryRun = true)
      (h : ed.save s uri = (.ok (), s))
  | written {tree} (huri : uri = ed.uri) (hdry : ed.dryRun = false)
      (hwrite : s.tree.writeText ed.path s.text = .ok tree)
      (h : ed.save s uri = (.ok (), { s with dirty := false, tree := tree }))

theorem saveExit (ed : FileEditor) (s : Staged) (uri : String) : ed.SaveExit s uri := by
  by_cases huri : uri = ed.uri
  · subst huri
    cases hdry : ed.dryRun with
    | true => exact .skipped rfl (.inr hdry) (save_of_dryRun hdry s)
    | false =>
        cases hdirty : s.dirty with
        | false =>
            refine .skipped rfl (.inl hdirty) ?_
            rw [save, if_pos rfl, hdirty]
            rfl
        | true =>
            have hsave := save_of_dirty hdry hdirty
            cases hwrite : s.tree.writeText ed.path s.text with
            | error err =>
                rw [hwrite] at hsave
                exact .failed hsave
            | ok tree =>
                rw [hwrite] at hsave
                exact .written rfl hdry hwrite hsave
  · exact .failed (if_neg huri)

/-! ### Runs -/

theorem inStep_start {tree : FileTree} (h : tree.readText ed.path = .ok t₀) :
    ed.InStep t₀ [] (start t₀ tree) where
  text_eq := rfl
  readText_of_clean _ _ := h
  readText_of_dryRun _ := h
  dirty_of_dryRun _ hne := absurd rfl hne
  exists_readText := ⟨t₀, h⟩

theorem InStep.edit (hs : ed.InStep t₀ edits s) (uri : String) (e : Edit) :
    ed.InStep t₀ (edits ++ ed.acceptedAt s (.edit uri e)) (ed.apply s uri e).2 := by
  rcases ed.apply_cases s uri e with ⟨-, h⟩ | ⟨t, -, -, ht, h⟩
  · rw [acceptedAt, h, if_neg Bool.false_ne_true, List.append_nil]
    exact hs
  · rw [acceptedAt, h, if_pos rfl]
    refine ⟨?_, fun _ hclean => (nomatch hclean), hs.readText_of_dryRun, fun _ _ => rfl,
      hs.exists_readText⟩
    rw [List.foldlM_append, hs.text_eq]
    show [e].foldlM (fun t e => e.apply t) s.text = _
    rw [List.foldlM_cons, ht]
    rfl

theorem InStep.save (hs : ed.InStep t₀ edits s) (uri : String) :
    ed.InStep t₀ edits (ed.save s uri).2 := by
  cases ed.saveExit s uri with
  | failed h =>
      rw [h]
      exact hs
  | skipped huri hskip h =>
      rw [h]
      exact hs
  | written huri hdry hwrite h =>
      obtain ⟨t, ht⟩ := hs.exists_readText
      have hread := FileTree.readText_writeText ht hwrite
      have hwet : ¬ ed.dryRun = true := by
        rw [hdry]
        exact Bool.false_ne_true
      rw [h]
      exact ⟨hs.text_eq, fun _ _ => hread, fun h => absurd h hwet, fun h => absurd h hwet,
        ⟨_, hread⟩⟩

theorem InStep.outside (hs : ed.InStep t₀ edits s) {change : FileTree → FileTree}
    (hspares : ∀ tree, (change tree).readText ed.path = tree.readText ed.path) :
    ed.InStep t₀ edits { s with tree := change s.tree } where
  text_eq := hs.text_eq
  readText_of_clean hwet hclean := (hspares s.tree).trans (hs.readText_of_clean hwet hclean)
  readText_of_dryRun hdry := (hspares s.tree).trans (hs.readText_of_dryRun hdry)
  dirty_of_dryRun := hs.dirty_of_dryRun
  exists_readText := hs.exists_readText.imp fun _ ht => (hspares s.tree).trans ht

theorem InStep.step (hs : ed.InStep t₀ edits s) (ho : o.Spares ed.path) :
    ed.InStep t₀ (edits ++ ed.acceptedAt s o) (ed.step s o) := by
  cases o with
  | edit uri e => exact hs.edit uri e
  | save uri =>
      rw [acceptedAt, List.append_nil]
      exact hs.save uri
  | outside change =>
      rw [acceptedAt, List.append_nil]
      exact hs.outside ho

theorem InStep.run (hs : ed.InStep t₀ edits s) {os : List Occurrence}
    (hspares : ∀ o ∈ os, o.Spares ed.path) :
    ed.InStep t₀ (edits ++ ed.accepted s os) (ed.run s os) := by
  induction os generalizing s edits with
  | nil =>
      rw [accepted, List.append_nil]
      exact hs
  | cons o os ih =>
      rw [accepted, ← List.append_assoc]
      exact ih (hs.step (hspares o List.mem_cons_self))
        fun o' ho' => hspares o' (List.mem_cons_of_mem o ho')

/-- The file changes only when its own document is saved, to the text that is staged then. -/
theorem InStep.readText_step (hs : ed.InStep t₀ edits s) (ho : o.Spares ed.path)
    (hne : (ed.step s o).tree.readText ed.path ≠ s.tree.readText ed.path) :
    o = .save ed.uri ∧ ed.dryRun = false ∧
      (ed.step s o).tree.readText ed.path = .ok s.text := by
  cases o with
  | edit uri e => exact absurd (congrArg (·.readText ed.path) (ed.tree_apply s uri e)) hne
  | outside change => exact absurd (ho s.tree) hne
  | save uri =>
      cases ed.saveExit s uri with
      | failed h =>
          rw [FileEditor.step, h] at hne
          exact absurd rfl hne
      | skipped huri hskip h =>
          rw [FileEditor.step, h] at hne
          exact absurd rfl hne
      | written huri hdry hwrite h =>
          obtain ⟨t, ht⟩ := hs.exists_readText
          subst huri
          rw [FileEditor.step, h]
          exact ⟨rfl, hdry, FileTree.readText_writeText ht hwrite⟩

/-- After any requests for any documents, while nobody else writes the file: the staged text is what
the accepted edits make of the file's first text; an edit is refused exactly if it is for another
document or misplaced, and what is refused or fails changes nothing; outside of a dry run the file
has the staged text unless the editor is dirty, and only saving changes it; in a dry run the file
keeps its first text, and the editor is dirty once an edit was accepted. -/
theorem run_inStep {tree : FileTree} (hfile : tree.readText ed.path = .ok t₀)
    {os : List Occurrence} (hspares : ∀ o ∈ os, o.Spares ed.path) {s : Staged}
    (hs : s = ed.run (start t₀ tree) os) :
    ed.InStep t₀ (ed.accepted (start t₀ tree) os) s ∧
      (∀ uri e, ((ed.apply s uri e).1 = false ↔ uri ≠ ed.uri ∨ e.IsMisplaced s.text) ∧
        ((ed.apply s uri e).1 = false → (ed.apply s uri e).2 = s) ∧
        ((ed.apply s uri e).1 = true → ∃ t, e.Replaces s.text t ∧
          (ed.apply s uri e).2 = { s with text := t, dirty := true })) ∧
      (∀ uri err, (ed.save s uri).1 = .error err → (ed.save s uri).2 = s) ∧
      (∀ uri, (ed.save s uri).1 = .ok () →
        uri = ed.uri ∧ (ed.dryRun = false → (ed.save s uri).2.dirty = false)) ∧
      ∀ o, o.Spares ed.path →
        (ed.step s o).tree.readText ed.path ≠ s.tree.readText ed.path →
          o = .save ed.uri ∧ ed.dryRun = false ∧
            (ed.step s o).tree.readText ed.path = .ok s.text := by
  have hinStep : ed.InStep t₀ (ed.accepted (start t₀ tree) os) s := by
    rw [hs]
    exact (inStep_start hfile).run hspares
  refine ⟨hinStep, fun uri e => ?_, fun uri err herr => ?_, fun uri hok => ?_,
    fun o ho hne => hinStep.readText_step ho hne⟩
  · rcases ed.apply_cases s uri e with ⟨hwrong, h⟩ | ⟨t, huri, hplaced, ht, h⟩
    · rw [h]
      exact ⟨iff_of_true rfl hwrong, fun _ => rfl, nofun⟩
    · rw [h]
      refine ⟨iff_of_false nofun ?_, nofun, fun _ => ⟨t, Edit.replaces_of_apply ht, rfl⟩⟩
      exact not_or.mpr ⟨not_not.mpr huri, hplaced⟩
  · cases ed.saveExit s uri with
    | failed h => rw [h]
    | skipped huri hskip h => rw [h]
    | written huri hdry hwrite h =>
        rw [h] at herr
        cases herr
  · cases ed.saveExit s uri with
    | failed h =>
        rw [h] at hok
        cases hok
    | skipped huri hskip h =>
        rw [h]
        refine ⟨huri, fun hwet => hskip.resolve_right ?_⟩
        rw [hwet]
        exact Bool.false_ne_true
    | written huri hdry hwrite h =>
        rw [h]
        exact ⟨huri, fun _ => rfl⟩

/-- A file that may not be written at first. -/
def lockedTree : FileTree where
  nodes := [([['w']], .directory), ([['w'], "k.json".toList], .file (.text ['[', 'é', ']']))]
  workingDir := [['w']]
  readOnly := [[['w'], "k.json".toList]]

/-- An edit inside of a character, one of another document and one that is accepted, and a save that
fails and one after the file was made writable. -/
def unlocking : List Occurrence := [
  .edit "file:///w/k.json" ⟨⟨1, 2⟩, []⟩,
  .edit "file:///w/other.json" ⟨⟨1, 3⟩, []⟩,
  .edit "file:///w/k.json" ⟨⟨1, 3⟩, ['b']⟩,
  .save "file:///w/k.json",
  .outside fun tree => { tree with readOnly := [] },
  .save "file:///w/k.json"]

theorem run_inStep_locked :
    let ed : FileEditor := ⟨"k.json", "file:///w/k.json", false⟩
    let s := ed.run (start ['[', 'é', ']'] lockedTree) unlocking
    lockedTree.readText ed.path = .ok ['[', 'é', ']'] ∧ (∀ o ∈ unlocking, o.Spares ed.path) ∧
      ed.accepted (start ['[', 'é', ']'] lockedTree) unlocking = [⟨⟨1, 3⟩, ['b']⟩] ∧
      s.dirty = false ∧ s.tree.readText ed.path = .ok ['[', 'b', ']'] := by
  intro ed s
  have hfile : lockedTree.readText ed.path = .ok ['[', 'é', ']'] := by decide +kernel
  have hspares : ∀ o ∈ unlocking, o.Spares ed.path := by
    simp only [unlocking, List.forall_mem_cons]
    exact ⟨trivial, trivial, trivial, trivial,
      fun tree => FileTree.readText_readOnly tree [] ed.path, trivial, List.forall_mem_nil _⟩
  have hclean : s.dirty = false := by decide +kernel
  have hread := (run_inStep hfile hspares rfl).1.readText_of_clean rfl hclean
  exact ⟨hfile, hspares, by decide +kernel, hclean, hread.trans (by decide +kernel)⟩

end FileEditor

end Keybindings
