import Keybindings.Cli.Editing
import Keybindings.Proofs.Deletion
import Keybindings.Proofs.Validation

/-!
Fixing a document entry by entry, compared with cleaning it at once.

A round of the loop takes the first invalid entry and the comma that its quick fix finds.  Whether
every entry finds one can be told from the text alone, by the newlines around its commas
(`isClearable`): if so the loop ends with the entries that cleaning keeps, and if not with a text
that is no JSON (`Cli.Fixing.run_all`).
-/

namespace Keybindings

open Json (Layout Element)

/-! ### Which documents can be cleared -/

/-- The newlines before and after the first comma of a text. -/
def newlinesAround (t : Text) : Nat × Nat :=
  ((t.takeWhile (· ≠ ',')).count '\n', (t.dropWhile (· ≠ ',')).count '\n')

/-- The newlines before and after each comma between two elements of a text. -/
def separators (t : Text) : List (Nat × Nat) :=
  (elementSpans t).zipWith
    (fun s s' => newlinesAround ((Text.slice? t s.stop s'.start).getD [])) (elementSpans t).tail

/-- Whether deletions from the front on find a comma for each invalid entry, from an entry on that
has `before` newlines in front.  `kept` tells whether a valid entry precedes it, and the rest lists
for each further entry the newlines before and after the comma in front, and its validity. -/
def clearable (kept : Bool) (before : Nat) (valid : Bool) : List ((Nat × Nat) × Bool) → Bool
  | [] => valid || !kept || before ≤ 1
  | ((a, b), v) :: rest =>
    if valid then clearable true b v rest
    else if a = 0 then clearable kept (before + b) v rest
    else kept && before ≤ 1 && clearable true b v rest

/-- Whether deletions from the front on find a comma for each invalid entry of a document. -/
def isClearable (t : Text) (es : List Entry) (r : Registry) : Bool :=
  match es.map (·.isValid r) with
  | [] => true
  | v :: vs => clearable false 0 v ((separators t).zip vs)

namespace Json

/-- The newlines around the commas from an element on. -/
def separations (x : Element) : List Element → List (Nat × Nat)
  | [] => []
  | y :: ys => (x.after.count '\n', y.before.count '\n') :: separations y ys

theorem newlinesAround_gaps {g h : Text} (hg : IsGapText g) :
    newlinesAround (g ++ ',' :: h) = (g.count '\n', h.count '\n') := by
  have hne : ∀ c ∈ g, decide (c ≠ ',') = true := by
    intro c hc
    refine decide_eq_true ?_
    rintro rfl
    exact absurd (hg.isBlank ',' hc) (by decide)
  rw [newlinesAround, List.takeWhile_append_of_pos hne, List.dropWhile_append_of_pos hne,
    List.takeWhile_cons_of_neg (by simp), List.dropWhile_cons_of_neg (by simp), List.append_nil,
    List.count_cons_of_ne (by decide)]

theorem zipWith_spansAfter (a : Text) (x : Element) (ys : List Element) (rest : Text) :
    (spansAfter a (x :: ys)).zipWith
        (fun s s' => newlinesAround
          ((Text.slice? (a ++ x.slot ++ tailText ys ++ rest) s.stop s'.start).getD []))
        (spansAfter a (x :: ys)).tail =
      separations x ys := by
  induction ys generalizing a x with
  | nil => rfl
  | cons y ys ih =>
      have htext : a ++ x.slot ++ tailText (y :: ys) ++ rest =
          a ++ x.slot ++ [','] ++ y.slot ++ tailText ys ++ rest := by
        simp only [tailText_cons, List.append_assoc, List.cons_append, List.nil_append]
      have hslice : Text.slice? (a ++ x.slot ++ tailText (y :: ys) ++ rest)
          (Span.after (a ++ x.before) x.text).stop
          (Span.after (a ++ x.slot ++ [','] ++ y.before) y.text).start =
            some (x.after ++ ',' :: y.before) := by
        refine Text.slice?_eq_some_iff.mpr
          ⟨a ++ x.before ++ x.text, y.text ++ y.after ++ tailText ys ++ rest, ?_, ?_, ?_⟩
        · simp only [tailText_cons, Element.slot, List.append_assoc, List.cons_append]
        · exact (Text.size_append _ _).symm
        · simp only [Span.after, Element.slot, Text.size_append, Text.size_cons, Text.size_nil,
            Nat.add_assoc, Nat.add_zero]
      have hrest := ih (a ++ x.slot ++ [',']) y
      rw [← htext] at hrest
      rw [spansAfter, List.tail_cons]
      rw [spansAfter, List.tail_cons] at hrest
      rw [spansAfter, List.zipWith_cons_cons, hslice, Option.getD_some,
        newlinesAround_gaps x.after_gap, separations, hrest]

theorem Layout.separators_text {L : Layout} {x : Element} {ys : List Element}
    (h : L.elements = x :: ys) : separators L.text = separations x ys := by
  have htext : L.text = L.opening ++ x.slot ++ tailText ys ++ ']' :: L.trail := by
    simp [Layout.text, Layout.opening, h, bodyText]
  rw [separators, L.elementSpans_text, Layout.spans, h, htext]
  exact zipWith_spansAfter L.opening x ys _

end Json

/-! ### One round -/

def invalidCount (es : List Entry) (r : Registry) : Nat :=
  (es.filter fun e => !e.isValid r).length

theorem invalidCount_cons_valid {e : Entry} {r : Registry} (he : e.isValid r = true)
    (es : List Entry) : invalidCount (e :: es) r = invalidCount es r := by
  rw [invalidCount, List.filter_cons_of_neg (by simp [he]), invalidCount]

theorem invalidCount_cons_invalid {e : Entry} {r : Registry} (he : e.isValid r = false)
    (es : List Entry) : invalidCount (e :: es) r = invalidCount es r + 1 := by
  rw [invalidCount, List.filter_cons_of_pos (by simp [he]), List.length_cons, invalidCount]

namespace Validation

theorem flags_cons_invalid (label : String) {r : Registry} {e : Entry} (h : e.isValid r = false)
    (s : Span) (found : List (Entry × Span)) :
    flags label r ((e, s) :: found) = flag label e s :: flags label r found := by
  rw [flags, List.filter_cons_of_pos (by simp [h]), List.map_cons, flags]

theorem length_flags_zip (label : String) (r : Registry) {es : List Entry} {spans : List Span}
    (h : es.length = spans.length) : (flags label r (es.zip spans)).length = invalidCount es r := by
  rw [flags, List.length_map, invalidCount]
  induction es generalizing spans with
  | nil => rfl
  | cons e es ih =>
      cases spans with
      | nil => cases h
      | cons s spans =>
          have htail := ih (Nat.succ.inj h)
          cases he : e.isValid r with
          | true => simpa [he] using htail
          | false => simpa [he] using htail

end Validation

theorem codeActions_document {t : Text} {es : List Entry} (uri label : String) (r : Registry)
    (h : Document.parse t = .ok es) : codeActions t uri (Validation.document label t r) =
      (Validation.document label t r).map fun g =>
        ⟨uri, .delete (QuickFix.planDeletion t g.span), g⟩ := by
  rw [codeActions, List.filter_eq_self.mpr]
  intro g hg
  rw [Validation.document_eq_flags label r h, Validation.flags] at hg
  obtain ⟨p, -, rfl⟩ := List.mem_map.mp hg
  exact Validation.isFixable_flag _ _ _

/-- Whatever was published before, a pass that is not overtaken publishes the problems of its
text. -/
theorem EngineSetup.exists_update {setup : EngineSetup} {d : OpenDocument} {source : Source}
    {r : Registry} (htarget : setup.isTarget d = true) (hr : source.registry = .ok r) (s : EngineState) :
    ∃ s', setup.update s d source =
        (s', .published (Validation.document setup.label d.text r).length) ∧
      s'.diagnostics? d.uri = some (Validation.document setup.label d.text r) := by
  rw [EngineSetup.update, EngineSetup.beginPass, if_pos htarget]
  simp only [EngineSetup.finishPass, hr]
  exact ⟨_, if_pos (Dictionary.find?_insert_self _ _ _), Dictionary.find?_insert_self _ _ _⟩

namespace Cli.Fixing

variable {c : Context} {d : OpenDocument} {r : Registry}

theorem isTarget_document (c : Context) (d : OpenDocument) (t : Text) :
    (c.fixing d).engine.isTarget ((c.fixing d).document t) = true :=
  decide_eq_true rfl

theorem offers_eq (hr : c.source.registry = .ok r) (d : OpenDocument) (t : Text) :
    (c.fixing d).offers t = .ok (codeActions t d.uri
      (Validation.document c.settings.diagnosticSource t r)) := by
  have hsource : (c.fixing d).source.registry = .ok r := hr
  obtain ⟨s, hs, hdiagnostics⟩ := EngineSetup.exists_update (isTarget_document c d t) hsource {}
  change s.diagnostics? d.uri =
    some (Validation.document c.settings.diagnosticSource t r) at hdiagnostics
  rw [offers]
  simp only [hs, EngineSetup.codeActions, isTarget_document, if_true]
  show Except.ok (codeActions t d.uri ((s.diagnostics? d.uri).getD [])) = _
  rw [hdiagnostics, Option.getD_some]

theorem offers_of_error (hr : c.source.registry = .ok r) {t : Text} {e : ParseError}
    (h : Document.parse t = .error e) : (c.fixing d).offers t = .ok [] := by
  rw [offers_eq hr, Validation.document, h]
  rfl

theorem offers_of_ok (hr : c.source.registry = .ok r) {t : Text} {es : List Entry}
    (h : Document.parse t = .ok es) : (c.fixing d).offers t =
      .ok ((Validation.flags c.settings.diagnosticSource r (es.zip (elementSpans t))).map fun g =>
        ⟨d.uri, .delete (QuickFix.planDeletion t g.span), g⟩) := by
  rw [offers_eq hr, codeActions_document _ _ r h, Validation.document_eq_flags _ r h]

theorem run_of_error (hr : c.source.registry = .ok r) {s : Staged} {e : ParseError}
    (h : Document.parse s.text = .error e) (n : Nat) : (c.fixing d).run n s = ([], .ok s) := by
  cases n with
  | zero => rfl
  | succ n =>
      have hstep : (c.fixing d).step s = .ok none := by
        rw [step, offers_of_error hr h]
        rfl
      rw [run, hstep]

theorem step_of_offer {f : Fixing} {s s' : Staged} {action : CodeAction} {rest : List CodeAction}
    (hoffers : f.offers s.text = .ok (action :: rest))
    (happly : f.editor.apply s f.editor.uri action.edit = (true, s')) :
    f.step s = .ok (some (action.diagnostic.message, s')) := by
  rw [step, hoffers]
  simp only [bind, Except.bind, happly]
  rfl

/-- A round is due at the elements `zs` of a layout, which hold the entries `es'`.  The elements
before them hold the entries `es`, which are valid. -/
structure Position (r : Registry) (L : Layout) (xs zs : List Element) (es es' : List Entry) :
    Prop where
  elements_eq : L.elements = xs ++ zs
  passed : List.Forall₂ Element.Holds xs es
  ahead : List.Forall₂ Element.Holds zs es'
  valid : ∀ e ∈ es, e.isValid r = true

section Position

variable {L : Layout} {xs ys zs : List Element} {x : Element} {es es' : List Entry} {e : Entry}

theorem Position.parse_text (h : Position r L xs zs es es') :
    Document.parse L.text = .ok (es ++ es') := by
  rw [Document.parse_text, h.elements_eq]
  exact List.rel_append h.passed h.ahead

theorem Position.pass (h : Position r L xs (x :: ys) es (e :: es')) (he : e.isValid r = true) :
    Position r L (xs ++ [x]) ys (es ++ [e]) es' := by
  cases h.ahead with
  | cons hx hys =>
      refine ⟨?_, List.rel_append h.passed (.cons hx .nil), hys, fun e' he' => ?_⟩
      · rw [h.elements_eq, List.append_assoc, List.singleton_append]
      · rcases List.mem_append.mp he' with he' | he'
        · exact h.valid e' he'
        · rw [List.mem_singleton.mp he', he]

theorem offers_of_invalid (hr : c.source.registry = .ok r)
    (h : Position r L xs (x :: ys) es (e :: es')) (he : e.isValid r = false) :
    ∃ g rest, (c.fixing d).offers L.text =
      .ok (⟨d.uri, .delete (QuickFix.planDeletion L.text (.after (L.upTo xs x) x.text)), g⟩ ::
        rest) := by
  have hspans : elementSpans L.text = Json.spansAfter L.opening xs ++
      .after (L.upTo xs x) x.text ::
        Json.spansAfter (L.opening ++ Json.headText xs ++ x.slot ++ [',']) ys := by
    rw [L.elementSpans_text, Json.Layout.spans, h.elements_eq, Json.spansAfter_append]
    rfl
  have hlength : es.length = (Json.spansAfter L.opening xs).length := by
    rw [Json.length_spansAfter, h.passed.length_eq]
  have hoffers := offers_of_ok (d := d) hr h.parse_text
  rw [hspans, List.zip_append hlength, List.zip_cons_cons, Validation.flags_append,
    Validation.flags_of_valid _ h.valid, List.nil_append, Validation.flags_cons_invalid _ he,
    List.map_cons, Validation.span_flag] at hoffers
  exact ⟨_, _, hoffers⟩

theorem step_of_invalid (hr : c.source.registry = .ok r)
    (h : Position r L xs (x :: ys) es (e :: es')) (he : e.isValid r = false) {t : Text}
    (ht : L.Deletes xs x t) {s : Staged} (hs : s.text = L.text) :
    ∃ message, (c.fixing d).step s = .ok (some (message, { s with text := t, dirty := true })) := by
  obtain ⟨g, rest, hoffers⟩ := offers_of_invalid (d := d) hr h he
  have happly : (c.fixing d).editor.apply s (c.fixing d).editor.uri
      (.delete (QuickFix.planDeletion L.text (.after (L.upTo xs x) x.text))) =
        (true, { s with text := t, dirty := true }) := by
    rw [FileEditor.apply, if_pos rfl, hs, ht]
  rw [← hs] at hoffers
  rw [← hs] at happly
  exact ⟨g.message, step_of_offer hoffers happly⟩

end Position

/-! ### The whole loop -/

/-- The text holds the entries that are wanted, or else it is no document. -/
def Ends (cleared : Bool) (t : Text) (es : List Entry) : Prop :=
  if cleared then Document.parse t = .ok es else ∃ e, Document.parse t = .error e

theorem holds_of_sameObject {xs xs' : List Element} {es : List Entry}
    (h : List.Forall₂ Json.Layout.SameObject xs xs') (hes : List.Forall₂ Element.Holds xs es) :
    List.Forall₂ Element.Holds xs' es := by
  induction h generalizing es with
  | nil => exact hes
  | cons hx _ ih =>
      cases hes with
      | cons he hes =>
          refine .cons ?_ (ih hes)
          rw [Element.Holds, hx.2]
          exact he

/-- `clearable` from some element of a layout on. -/
def clearableFrom (r : Registry) (kept : Bool) : List Element → List Entry → Bool
  | x :: xs, e :: es =>
    clearable kept (x.before.count '\n') (e.isValid r)
      ((Json.separations x xs).zip (es.map (·.isValid r)))
  | _, _ => true

theorem clearableFrom_valid {e : Entry} (he : e.isValid r = true) (kept : Bool) (x : Element)
    {xs : List Element} {es : List Entry} (hes : xs.length = es.length) :
    clearableFrom r kept (x :: xs) (e :: es) = clearableFrom r true xs es := by
  rw [clearableFrom, he]
  cases xs with
  | nil => simp [Json.separations, clearable, clearableFrom]
  | cons y ys =>
      cases es with
      | nil => cases hes
      | cons e' es' => rfl

theorem clearableFrom_trailing {e : Entry} (he : e.isValid r = false) (kept : Bool) {x : Element}
    (hafter : '\n' ∉ x.after) (y : Element) (ys : List Element) {es : List Entry} (hes : es ≠ []) :
    clearableFrom r kept (x :: y :: ys) (e :: es) =
      clearableFrom r kept (x.afterGap y :: ys) es := by
  obtain ⟨e', es, rfl⟩ := List.exists_cons_of_ne_nil hes
  have hbefore : (x.afterGap y).before.count '\n' = x.before.count '\n' + y.before.count '\n' :=
    List.count_append
  have hseparations : Json.separations (x.afterGap y) ys = Json.separations y ys := by
    cases ys <;> rfl
  rw [clearableFrom, clearableFrom, he, hbefore, hseparations, Json.separations, List.map_cons,
    List.zip_cons_cons, clearable, List.count_eq_zero.mpr hafter]
  rfl

section Separated

variable {e : Entry} {x : Element} {xs ys : List Element} {es : List Entry}

theorem clearableFrom_leading (he : e.isValid r = false) (hes : ys.length = es.length)
    (hafter : ys = [] ∨ '\n' ∈ x.after)
    (hbefore : xs = [] ∧ ys = [] ∨ xs ≠ [] ∧ x.before.count '\n' ≤ 1) :
    clearableFrom r (xs ≠ []) (x :: ys) (e :: es) = clearableFrom r (xs ≠ []) ys es := by
  rw [clearableFrom, he]
  cases ys with
  | nil => rcases hbefore with ⟨rfl, -⟩ | ⟨hxs, hle⟩ <;>
      simp [Json.separations, clearable, clearableFrom, *]
  | cons y ys =>
      cases es with
      | nil => cases hes
      | cons e' es =>
          obtain ⟨hxs, hle⟩ := hbefore.resolve_left fun h => absurd h.2 (by simp)
          have hne : x.after.count '\n' ≠ 0 := fun h =>
            List.count_eq_zero.mp h (hafter.resolve_left (by simp))
          rw [Json.separations, List.map_cons, List.zip_cons_cons, clearable, if_neg hne,
            decide_eq_true hle, decide_eq_true hxs]
          rfl

theorem clearableFrom_stuck (he : e.isValid r = false) (hes : ys.length = es.length)
    (hne : xs ≠ [] ∨ ys ≠ []) (hafter : ys = [] ∨ '\n' ∈ x.after)
    (hbefore : xs = [] ∨ 1 < x.before.count '\n') :
    clearableFrom r (xs ≠ []) (x :: ys) (e :: es) = false := by
  have hlast : xs ≠ [] → ¬ x.before.count '\n' ≤ 1 := fun hxs =>
    Nat.not_le.mpr (hbefore.resolve_left hxs)
  rw [clearableFrom, he]
  cases ys with
  | nil =>
      have hxs : xs ≠ [] := hne.resolve_right (by simp)
      simp [Json.separations, clearable, hxs, hlast hxs]
  | cons y ys =>
      cases es with
      | nil => cases hes
      | cons e' es =>
          have hn : x.after.count '\n' ≠ 0 := fun h =>
            List.count_eq_zero.mp h (hafter.resolve_left (by simp))
          rw [Json.separations, List.map_cons, List.zip_cons_cons, clearable, if_neg hn]
          by_cases hxs : xs = []
          · simp [hxs]
          · simp [hlast hxs]

end Separated

/-- The loop leaves the entries `es` and what cleaning keeps of `es'`, or else no document. -/
def Clears (f : Fixing) (r : Registry) (cleared : Bool) (s : Staged) (es es' : List Entry) : Prop :=
  ∃ messages s', f.run (invalidCount es' r) s = (messages, .ok s') ∧
    Ends cleared s'.text (es ++ Keybindings.clean es' r)

section Clears

variable {L : Layout} {xs ys : List Element} {x : Element} {es es' : List Entry} {e : Entry}
  {s : Staged} {cleared : Bool}

theorem clears_nil (h : Position r L xs [] es []) (hs : s.text = L.text) :
    Clears (c.fixing d) r true s es [] := by
  refine ⟨[], s, rfl, ?_⟩
  rw [Ends, if_pos rfl, hs]
  exact h.parse_text

theorem clears_cons_valid {f : Fixing} (he : e.isValid r = true)
    (h : Clears f r cleared s (es ++ [e]) es') : Clears f r cleared s es (e :: es') := by
  obtain ⟨messages, s', hrun, hends⟩ := h
  rw [List.append_assoc, List.singleton_append, ← clean_cons_valid he] at hends
  refine ⟨messages, s', ?_, hends⟩
  rw [invalidCount_cons_valid he, hrun]

/-- After a round the rest of the loop goes on with what the quick fix leaves. -/
theorem clears_cons_invalid (hr : c.source.registry = .ok r)
    (h : Position r L xs (x :: ys) es (e :: es')) (he : e.isValid r = false) {t : Text}
    (ht : L.Deletes xs x t) (hs : s.text = L.text)
    (hrest : Clears (c.fixing d) r cleared { s with text := t, dirty := true } es es') :
    Clears (c.fixing d) r cleared s es (e :: es') := by
  obtain ⟨message, hstep⟩ := step_of_invalid (d := d) hr h he ht hs
  obtain ⟨messages, s', hrun, hends⟩ := hrest
  rw [← clean_cons_invalid he] at hends
  refine ⟨message :: messages, s', ?_, hends⟩
  rw [invalidCount_cons_invalid he, run, hstep]
  simp only [hrun]

theorem clears_of_error (hr : c.source.registry = .ok r) {err : ParseError}
    (h : Document.parse s.text = .error err) (es es' : List Entry) :
    Clears (c.fixing d) r false s es es' := by
  refine ⟨[], s, run_of_error hr h _, ?_⟩
  rw [Ends, if_neg (by simp)]
  exact ⟨err, h⟩

end Clears

theorem clears_from (hr : c.source.registry = .ok r) {xs zs : List Element} {es es' : List Entry}
    {L : Layout} {s : Staged} (h : Position r L xs zs es es') (hs : s.text = L.text) :
    Clears (c.fixing d) r (clearableFrom r (xs ≠ []) zs es') s es es' := by
  -- on the number of elements, as what is left of them may have other white space than before
  induction hn : zs.length using Nat.strongRecOn generalizing L xs zs es es' s with
  | ind n ih =>
      have hahead := h.ahead
      cases hahead with
      | nil =>
          rw [clearableFrom]
          · exact clears_nil h hs
          · simp
      | @cons x e ys es' hx hys =>
          have hlength := hys.length_eq
          have hshort : ys.length < n := by
            rw [List.length_cons] at hn
            omega
          cases he : e.isValid r with
          | true =>
              have hrest := ih ys.length hshort (h.pass he) hs rfl
              refine clears_cons_valid he ?_
              rw [clearableFrom_valid he _ x hlength]
              simpa using hrest
          | false =>
              rcases Json.Layout.delete_cases h.elements_eq with
                ⟨L', y, ys', rfl, hafter, hL', hdeletes⟩ |
                ⟨L', xs', hafter, hbefore, hL', hsame, hdeletes⟩ |
                ⟨t, hafter, hne, hbefore, hdeletes, err, hparse⟩
              · -- the next element takes over the white space before this one
                have hne : es' ≠ [] := by
                  rintro rfl
                  cases hlength
                have hys' : List.Forall₂ Element.Holds (x.afterGap y :: ys') es' := by
                  cases hys with
                  | cons hy hys => exact .cons hy hys
                refine clears_cons_invalid hr h he hdeletes hs ?_
                rw [clearableFrom_trailing he _ hafter y ys' hne]
                exact ih (ys'.length + 1) hshort ⟨hL', h.passed, hys', h.valid⟩ rfl rfl
              · -- this entry is gone with the comma before it, or was the only one left
                have hpassed := holds_of_sameObject hsame h.passed
                have hkept : xs' = [] ↔ xs = [] := by
                  rw [← List.length_eq_zero_iff, ← List.length_eq_zero_iff, hsame.length_eq]
                have hrest := ih ys.length hshort (s := { s with text := L'.text, dirty := true })
                  ⟨hL', hpassed, hys, h.valid⟩ rfl rfl
                refine clears_cons_invalid hr h he hdeletes hs ?_
                rw [clearableFrom_leading he hlength hafter hbefore]
                simpa only [ne_eq, hkept] using hrest
              · -- what is left is no document, and the loop stops at it
                refine clears_cons_invalid hr h he hdeletes hs ?_
                rw [clearableFrom_stuck he hlength hne hafter hbefore]
                exact clears_of_error hr hparse es es'

/-- As long as no valid entry precedes, the newlines in front do not count. -/
theorem clearable_false (b b' : Nat) (v : Bool) (rest : List ((Nat × Nat) × Bool)) :
    clearable false b v rest = clearable false b' v rest := by
  induction rest generalizing b b' v with
  | nil => simp [clearable]
  | cons p rest ih =>
      obtain ⟨⟨a, b₁⟩, v₁⟩ := p
      rw [clearable, clearable, ih (b + b₁) (b' + b₁)]
      simp

theorem isClearable_text {L : Layout} {es : List Entry}
    (h : List.Forall₂ Element.Holds L.elements es) :
    isClearable L.text es r = clearableFrom r false L.elements es := by
  cases hL : L.elements with
  | nil =>
      rw [hL] at h
      cases h
      rfl
  | cons x xs =>
      rw [hL] at h
      cases h with
      | cons hx hxs =>
          rw [isClearable, Json.Layout.separators_text hL, clearableFrom, List.map_cons]
          exact clearable_false 0 _ _ _

/-- Fixing all entries of a document gives what cleaning keeps, if each invalid entry in its turn
has a comma within reach, and no document at all otherwise. -/
theorem run_all (c : Context) (d : OpenDocument) {es : List Entry} {r : Registry}
    (hr : c.source.registry = .ok r) (h : Document.parse d.text = .ok es) :
    ∃ n messages s, (c.fixing d).budget true d.text = .ok n ∧
      (c.fixing d).run n (FileEditor.start d.text c.tree) = (messages, .ok s) ∧
        if isClearable d.text es r then Document.parse s.text = .ok (Keybindings.clean es r)
        else ∃ e, Document.parse s.text = .error e := by
  have hbudget : (c.fixing d).budget true d.text = .ok (invalidCount es r) := by
    rw [budget, offers_of_ok hr h]
    show Except.ok (List.length _) = _
    rw [List.length_map, Validation.length_flags_zip _ _ (length_elementSpans h).symm]
  obtain ⟨L, hL, hes⟩ := Document.parse_eq_ok_iff.mp h
  have hfirst : Position r L [] L.elements [] es := ⟨rfl, .nil, hes, by simp⟩
  obtain ⟨messages, s, hrun, hends⟩ :=
    clears_from (d := d) hr hfirst (s := FileEditor.start d.text c.tree) hL
  refine ⟨_, messages, s, hbudget, hrun, ?_⟩
  rw [hL, isClearable_text hes]
  exact hends

def sampleContext : Context where
  settings := ⟨"Code", none, some "c.json", [], defaultLabel, "info"⟩
  settingsPath := "config.toml"
  dryRun := false
  force := false
  env := ⟨[], none⟩
  tree := ⟨[(["c.json".toList], .file (.text "[\"good\"]".toList))], [], []⟩

def onOneLine : Text :=
  "[\x7b\"command\": \"good\"\x7d, \x7b\"command\": \"bad\"\x7d]".toList

theorem run_all_onOneLine : ∃ n messages s,
    (sampleContext.fixing ⟨"", "k.json", onOneLine⟩).run n
        (FileEditor.start onOneLine sampleContext.tree) = (messages, .ok s) ∧
      Document.parse s.text = .ok [⟨none, some "good", none, []⟩] := by
  obtain ⟨n, messages, s, -, hrun, hends⟩ :=
    run_all sampleContext ⟨"", "k.json", onOneLine⟩ (r := ⟨["good"], true⟩) rfl rfl
  rw [if_pos (by decide +kernel)] at hends
  exact ⟨n, messages, s, hrun, hends⟩

/-- Three entries as they are written on many lines, the last two of them invalid.  The second one
goes with the comma behind it, and the newline in front of it that is left then hides its other
comma from the third. -/
def onManyLines : Text :=
  ("[\n  \x7b\n    \"command\": \"good\"\n  \x7d,\n  \x7b\n    \"command\": \"bad1\"\n  \x7d,\n" ++
    "  \x7b\n    \"command\": \"bad2\"\n  \x7d\n]").toList

theorem run_all_onManyLines : ∃ es n messages s e,
    sampleContext.source.registry = .ok ⟨["good"], true⟩ ∧
      Document.parse onManyLines = .ok es ∧
      (sampleContext.fixing ⟨"", "k.json", onManyLines⟩).budget true onManyLines = .ok n ∧
      (sampleContext.fixing ⟨"", "k.json", onManyLines⟩).run n
        (FileEditor.start onManyLines sampleContext.tree) = (messages, .ok s) ∧
      Document.parse s.text = .error e :=
  ⟨_, _, _, _, _, rfl, rfl, rfl, rfl, rfl⟩

end Cli.Fixing

end Keybindings
