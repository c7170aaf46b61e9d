import Keybindings.Proofs.Fixing

/-!
Taking one entry out of a document by its quick fix.

The quick fix of an entry always applies.  It leaves the document without that entry if a comma goes
with it or the entry is the only one, and no document otherwise (`codeActions_delete`,
`planDeletion_decides`).  Which of the two it is can be told by the newlines around the commas next
to the entry (`isRemovable`).
-/

namespace Keybindings

open Json (Layout Element)

/-- Whether the entry at an index is the only one, or is followed by a comma on its line, or has at
most one newline between it and the comma in front. -/
def isRemovable (t : Text) (i : Nat) : Bool :=
  (separators t).isEmpty || (separators t)[i]?.any (·.1 = 0) ||
    i ≠ 0 && (separators t)[i - 1]?.any (·.2 ≤ 1)

namespace Json

@[simp] theorem length_separations (x : Element) (ys : List Element) :
    (separations x ys).length = ys.length := by
  induction ys generalizing x with
  | nil => rfl
  | cons y ys ih => rw [separations, List.length_cons, List.length_cons, ih]

theorem getElem?_separations {z w x : Element} {zs xs ys : List Element}
    (h : z :: zs = xs ++ w :: x :: ys) :
    (separations z zs)[xs.length]? = some (w.after.count '\n', x.before.count '\n') := by
  induction xs generalizing z zs with
  | nil =>
      cases h
      rfl
  | cons x' xs ih =>
      obtain ⟨rfl, hzs⟩ := List.cons_eq_cons.mp h
      obtain ⟨y, ys', rfl⟩ := List.exists_cons_of_ne_nil (l := zs) (by simp [hzs])
      rw [separations, List.length_cons, List.getElem?_cons_succ]
      exact ih hzs

variable {L : Layout} {xs ys : List Element} {x : Element}

theorem length_separators_text (h : L.elements = xs ++ x :: ys) :
    (separators L.text).length = xs.length + ys.length := by
  obtain ⟨z, zs, hz⟩ := List.exists_cons_of_ne_nil (l := L.elements) (by simp [h])
  have hlength := congrArg List.length (hz.symm.trans h)
  simp only [List.length_cons, List.length_append] at hlength
  rw [L.separators_text hz, length_separations]
  omega

theorem getElem?_separators_text {w : Element} (h : L.elements = xs ++ w :: x :: ys) :
    (separators L.text)[xs.length]? = some (w.after.count '\n', x.before.count '\n') := by
  obtain ⟨z, zs, hz⟩ := List.exists_cons_of_ne_nil (l := L.elements) (by simp [h])
  rw [L.separators_text hz]
  exact getElem?_separations (hz.symm.trans h)

theorem isRemovable_text (h : L.elements = xs ++ x :: ys) :
    isRemovable L.text xs.length = true ↔
      xs = [] ∧ ys = [] ∨ ys ≠ [] ∧ '\n' ∉ x.after ∨ xs ≠ [] ∧ x.before.count '\n' ≤ 1 := by
  have hlength := length_separators_text h
  have halone : (separators L.text).isEmpty = true ↔ xs = [] ∧ ys = [] := by
    rw [List.isEmpty_iff, ← List.length_eq_zero_iff, hlength, Nat.add_eq_zero_iff,
      List.length_eq_zero_iff, List.length_eq_zero_iff]
  have hafter : (separators L.text)[xs.length]?.any (·.1 = 0) = true ↔
      ys ≠ [] ∧ '\n' ∉ x.after := by
    cases ys with
    | nil => simp [hlength]
    | cons y ys => simp [getElem?_separators_text h, List.count_eq_zero]
  have hbefore : (xs.length ≠ 0 ∧ (separators L.text)[xs.length - 1]?.any (·.2 ≤ 1) = true) ↔
      xs ≠ [] ∧ x.before.count '\n' ≤ 1 := by
    rcases List.eq_nil_or_concat xs with rfl | ⟨xs, w, rfl⟩
    · simp
    · rw [List.concat_eq_append, List.append_assoc, List.singleton_append] at h
      simp [getElem?_separators_text h]
  simp only [isRemovable, Bool.or_eq_true, Bool.and_eq_true, decide_eq_true_eq, halone, hafter,
    hbefore, or_assoc]

end Json

/-- The deletion of an element always applies, and leaves the other objects as they are or else a
text that is no document. -/
theorem delete_element {L : Layout} {i : Nat} {s : Span}
    (hs : (elementSpans L.text)[i]? = some s) :
    ∃ t, (Edit.delete (QuickFix.planDeletion L.text s)).apply L.text = .ok t ∧
      if isRemovable L.text i then
        ∃ L' : Layout, t = L'.text ∧
          List.Forall₂ Layout.SameObject (L.elements.eraseIdx i) L'.elements
      else ∃ e, Document.parse t = .error e := by
  obtain ⟨xs, x, ys, hsplit, rfl, rfl, herase⟩ := Layout.exists_split hs
  have hremovable := Json.isRemovable_text hsplit
  rw [herase]
  rcases Layout.delete_cases hsplit with
    ⟨L', y, ys, rfl, hafter, hL', hdeletes⟩ | ⟨L', xs', -, hcomma, hL', hsame, hdeletes⟩ |
    ⟨t, hafter, hne, hfar, hdeletes, hparse⟩
  · refine ⟨_, hdeletes, ?_⟩
    rw [if_pos (hremovable.mpr (.inr (.inl ⟨by simp, hafter⟩)))]
    refine ⟨L', rfl, hL' ▸ List.rel_append (Layout.forall₂_sameObject_refl xs) ?_⟩
    exact .cons ⟨rfl, rfl⟩ (Layout.forall₂_sameObject_refl ys)
  · refine ⟨_, hdeletes, ?_⟩
    rw [if_pos (hremovable.mpr (hcomma.imp_right .inr))]
    exact ⟨L', rfl, hL' ▸ List.rel_append hsame (Layout.forall₂_sameObject_refl ys)⟩
  · refine ⟨t, hdeletes, ?_⟩
    rwa [if_neg]
    rw [hremovable]
    rintro (⟨rfl, rfl⟩ | ⟨hys, hn⟩ | ⟨hxs, hle⟩)
    · simp at hne
    · exact hn (hafter.resolve_left hys)
    · exact Nat.not_le.mpr (hfar.resolve_left hxs) hle

theorem parse_of_sameObject {L L' : Layout} {es : List Entry} {i : Nat}
    (hes : List.Forall₂ Element.Holds L.elements es)
    (hsame : List.Forall₂ Layout.SameObject (L.elements.eraseIdx i) L'.elements) :
    Document.parse L'.text = .ok (es.eraseIdx i) := by
  have hkept : List.Forall₂ Element.Holds (L.elements.eraseIdx i) (es.eraseIdx i) := by
    rw [List.eraseIdx_eq_take_drop_succ, List.eraseIdx_eq_take_drop_succ]
    exact List.rel_append (List.forall₂_take i hes) (List.forall₂_drop (i + 1) hes)
  exact Document.parse_text.mpr (Cli.Fixing.holds_of_sameObject hsame hkept)

theorem map_text_of_sameObject {xs xs' : List Element}
    (h : List.Forall₂ Layout.SameObject xs xs') :
    xs'.map Element.text = xs.map Element.text := by
  induction h with
  | nil => rfl
  | cons hx _ ih => rw [List.map_cons, List.map_cons, hx.1, ih]

theorem delete_entry {L : Layout} {es : List Entry} {i : Nat} {s : Span}
    (hes : List.Forall₂ Element.Holds L.elements es) (hs : (elementSpans L.text)[i]? = some s) :
    ∃ t, (Edit.delete (QuickFix.planDeletion L.text s)).apply L.text = .ok t ∧
      if isRemovable L.text i then Document.parse t = .ok (es.eraseIdx i)
      else ∃ e, Document.parse t = .error e := by
  obtain ⟨t, happly, hleft⟩ := delete_element hs
  refine ⟨t, happly, ?_⟩
  split at hleft
  · next hremovable =>
    obtain ⟨L', rfl, hsame⟩ := hleft
    rw [if_pos hremovable]
    exact parse_of_sameObject hes hsame
  · next hremovable =>
    rwa [if_neg hremovable]

/-- An entry is removable if it is the only one or a comma goes with it. -/
theorem isRemovable_iff {L : Layout} {i : Nat} {s : Span}
    (hs : (elementSpans L.text)[i]? = some s) : isRemovable L.text i = true ↔
      L.elements.length = 1 ∨ QuickFix.planDeletion L.text s ≠ s := by
  obtain ⟨xs, x, ys, hsplit, rfl, rfl, -⟩ := Layout.exists_split hs
  have halone : L.elements.length = 1 ↔ xs = [] ∧ ys = [] := by
    rw [hsplit, List.length_append, List.length_cons, ← List.length_eq_zero_iff,
      ← List.length_eq_zero_iff]
    omega
  rw [Json.isRemovable_text hsplit, halone]
  simp only [ne_eq, Layout.planDeletion_eq_self_iff hsplit, not_and_or, not_or, Nat.not_lt]

/-- A quick fix deletes the entry that its diagnostic is about and nothing else, if a comma goes
with it or there is no other entry, and otherwise spoils the document. -/
theorem codeActions_delete {t : Text} {es : List Entry} (uri label : String) (r : Registry)
    (h : Document.parse t = .ok es) {k : Nat} {action : CodeAction}
    (hk : (codeActions t uri (Validation.document label t r))[k]? = some action) :
    ∃ i t', (droppedIndices es r)[k]? = some i ∧
      (elementSpans t)[i]? = some action.diagnostic.span ∧ action.edit.apply t = .ok t' ∧
        if isRemovable t i then Document.parse t' = .ok (es.eraseIdx i)
        else ∃ e, Document.parse t' = .error e := by
  rw [codeActions_document uri label r h, List.getElem?_map, Option.map_eq_some_iff] at hk
  obtain ⟨g, hg, rfl⟩ := hk
  obtain ⟨i, hi⟩ : ∃ i, (droppedIndices es r)[k]? = some i := by
    obtain ⟨hlt, -⟩ := List.getElem?_eq_some_iff.mp hg
    rw [length_document label r h] at hlt
    exact ⟨_, List.getElem?_eq_getElem hlt⟩
  obtain ⟨e, s, -, hs, -, hflag⟩ := getElem?_document label r h hi
  obtain rfl : g = Validation.flag label e s := Option.some.inj (hg.symm.trans hflag)
  obtain ⟨L, rfl, hes⟩ := Document.parse_eq_ok_iff.mp h
  obtain ⟨t', happly, hparse⟩ := delete_entry hes hs
  rw [Validation.span_flag]
  exact ⟨i, t', hi, hs, happly, hparse⟩

/-- Three entries of which the one in the middle, which has no command, is on a line of its own with
the comma behind it. -/
def commasAtEnds : Text :=
  "[\x7b\"command\": \"a\"\x7d,\n \x7b\x7d, \x7b\"command\": \"b\"\x7d]".toList

theorem codeActions_delete_middle : ∃ action t',
    (codeActions commasAtEnds "" (Validation.document "" commasAtEnds ⟨["a", "b"], true⟩))[0]? =
      some action ∧
    action.edit.apply commasAtEnds = .ok t' ∧
    Document.parse t' = .ok [⟨none, some "a", none, []⟩, ⟨none, some "b", none, []⟩] := by
  obtain ⟨i, t', hi, -, happly, hparse⟩ :=
    codeActions_delete (t := commasAtEnds) "" "" ⟨["a", "b"], true⟩ (k := 0) rfl rfl
  obtain rfl : 1 = i := Option.some.inj hi
  rw [if_pos (by decide +kernel)] at hparse
  exact ⟨_, t', rfl, happly, hparse⟩

/-- Two entries of which the second comes with the comma in front of it on its line. -/
def commasAtStarts : Text :=
  "[\x7b\x7d\n,\x7b\"command\": \"a\"\x7d]".toList

theorem codeActions_delete_first : ∃ es action t' e, Document.parse commasAtStarts = .ok es ∧
    codeActions commasAtStarts "" (Validation.document "" commasAtStarts ⟨["a"], true⟩) =
      [action] ∧
    action.edit.apply commasAtStarts = .ok t' ∧ Document.parse t' = .error e :=
  ⟨_, _, _, _, rfl, rfl, rfl, rfl⟩

/-- Deleting an entry takes it out of the document and leaves the other objects as they were, if it
is the only entry or a comma goes with it, and otherwise spoils the document. -/
theorem planDeletion_decides {t : Text} {es : List Entry} (h : Document.parse t = .ok es) {i : Nat}
    (hi : i < es.length) :
    ∃ s t' xs, (elementSpans t)[i]? = some s ∧
      (elementSpans t).map (·.slice? t) = List.map some xs ∧
      (Edit.delete (QuickFix.planDeletion t s)).apply t = .ok t' ∧
      (es.length = 1 ∨ QuickFix.planDeletion t s ≠ s →
        Document.parse t' = .ok (es.eraseIdx i) ∧
          (elementSpans t').map (·.slice? t') = (xs.eraseIdx i).map some) ∧
      (2 ≤ es.length → QuickFix.planDeletion t s = s → ∃ e, Document.parse t' = .error e) := by
  obtain ⟨s, hs⟩ : ∃ s, (elementSpans t)[i]? = some s :=
    ⟨_, List.getElem?_eq_getElem ((length_elementSpans h).symm ▸ hi)⟩
  obtain ⟨L, rfl, hes⟩ := Document.parse_eq_ok_iff.mp h
  obtain ⟨t', happly, hleft⟩ := delete_element hs
  have hremovable := isRemovable_iff hs
  rw [hes.length_eq] at hremovable
  refine ⟨s, t', _, hs, L.slices_elementSpans, happly, fun hor => ?_, fun hle hself => ?_⟩
  · rw [if_pos (hremovable.mpr hor)] at hleft
    obtain ⟨L', rfl, hsame⟩ := hleft
    refine ⟨parse_of_sameObject hes hsame, ?_⟩
    rw [L'.slices_elementSpans, map_text_of_sameObject hsame, List.eraseIdx_map]
  · have hnot : ¬ isRemovable L.text i = true := by
      rw [hremovable]
      rintro (hone | hne)
      · omega
      · exact hne hself
    rwa [if_neg hnot] at hleft

theorem planDeletion_decides_commas :
    (∃ s t', (elementSpans commasAtEnds)[1]? = some s ∧
      QuickFix.planDeletion commasAtEnds s ≠ s ∧
      (Edit.delete (QuickFix.planDeletion commasAtEnds s)).apply commasAtEnds = .ok t' ∧
      Document.parse t' = .ok [⟨none, some "a", none, []⟩, ⟨none, some "b", none, []⟩]) ∧
    ∃ s t' e, (elementSpans commasAtStarts)[0]? = some s ∧
      QuickFix.planDeletion commasAtStarts s = s ∧
      (Edit.delete (QuickFix.planDeletion commasAtStarts s)).apply commasAtStarts = .ok t' ∧
      Document.parse t' = .error e := by
  refine ⟨?_, ?_⟩
  · obtain ⟨s, t', xs, hs, -, happly, hkeeps, -⟩ :=
      planDeletion_decides (t := commasAtEnds) (i := 1) rfl (by decide)
    obtain rfl : ⟨20, 22⟩ = s := Option.some.inj hs
    have hne : QuickFix.planDeletion commasAtEnds ⟨20, 22⟩ ≠ ⟨20, 22⟩ := by decide +kernel
    exact ⟨_, t', hs, hne, happly, (hkeeps (.inr hne)).1⟩
  · obtain ⟨s, t', xs, hs, -, happly, -, hspoils⟩ :=
      planDeletion_decides (t := commasAtStarts) (i := 0) rfl (by decide)
    obtain rfl : ⟨1, 3⟩ = s := Option.some.inj hs
    have hself : QuickFix.planDeletion commasAtStarts ⟨1, 3⟩ = ⟨1, 3⟩ := rfl
    obtain ⟨e, hparse⟩ := hspoils (by decide) hself
    exact ⟨_, t', e, hs, hself, happly, hparse⟩

end Keybindings
