import Keybindings.Proofs.Extent
import Keybindings.Proofs.Location

/-!
What a quick fix makes of a layout.

The comma after an element goes with it if the element's line goes on to it, and otherwise the comma
before it if no more than one newline is in between.  The white space on the other sides of the
element and the comma is left to a neighbour (`Layout.delete_trailing`, `Layout.delete_leading`).
An element of several that has neither comma is deleted alone, and what is left is no JSON text
(`Layout.delete_stuck`).
-/

namespace Keybindings

open Json (Layout Element IsGapText)

/-! ### Gaps as white space -/

theorem isBlank_of_isGap {c : Char} (h : Json.isGap c) : isBlank c := by
  simp only [Json.isGap, Bool.or_eq_true, beq_iff_eq] at h
  rcases h with ((rfl | rfl) | rfl) | rfl <;> rfl

theorem Json.IsGapText.isBlank {g : Text} (hg : IsGapText g) : ∀ c ∈ g, isBlank c :=
  fun c hc => isBlank_of_isGap (hg c hc)

/-! ### Layouts without one element -/

namespace Json

/-- The element `y` with the white space before `x` in front of its own. -/
def Element.afterGap (x y : Element) : Element :=
  { y with before := x.before ++ y.before, before_gap := x.before_gap.append y.before_gap }

/-- The element `w` with the white space behind `x` behind its own. -/
def Element.beforeGap (w x : Element) : Element :=
  { w with after := w.after ++ x.after, after_gap := w.after_gap.append x.after_gap }

namespace Layout

variable {L : Layout} {xs ys : List Element} {w x y : Element}

theorem upTo_nil (L : Layout) (x : Element) : L.upTo [] x = L.lead ++ '[' :: x.before := by
  simp [upTo, opening]

theorem upTo_concat (L : Layout) (xs : List Element) (w x : Element) :
    L.upTo (xs ++ [w]) x = L.upTo xs w ++ w.text ++ w.after ++ ',' :: x.before := by
  simp [upTo, Element.slot]

theorem onFrom_nil (L : Layout) (x : Element) : L.onFrom x [] = x.after ++ ']' :: L.trail := by
  simp [onFrom]

theorem onFrom_cons (L : Layout) (x y : Element) (ys : List Element) :
    L.onFrom x (y :: ys) = x.after ++ ',' :: (y.before ++ y.text ++ L.onFrom y ys) := by
  simp [onFrom, Element.slot]

theorem not_isInlineBlank_onFrom (hafter : ys = [] ∨ '\n' ∈ x.after) (g b' : Text)
    (h : L.onFrom x ys = g ++ ',' :: b') : ¬ IsInlineBlank g := by
  intro hg
  cases ys with
  | nil =>
      rw [onFrom_nil] at h
      exact absurd (blank_cons_inj x.after_gap.isBlank hg.isBlank rfl rfl h).2.1 (by decide)
  | cons y ys =>
      rw [onFrom_cons] at h
      obtain ⟨rfl, -, -⟩ := blank_cons_inj x.after_gap.isBlank hg.isBlank rfl rfl h
      exact hg.notMem (hafter.resolve_left (by simp))

theorem lt_count_upTo (hbefore : xs = [] ∨ 1 < x.before.count '\n') (a' g : Text)
    (h : L.upTo xs x = a' ++ ',' :: g) (hg : ∀ c ∈ g, Keybindings.isBlank c) :
    1 < g.count '\n' := by
  rcases List.eq_nil_or_concat xs with rfl | ⟨xs, w, rfl⟩
  · rw [upTo_nil] at h
    exact absurd (concat_blank_inj x.before_gap.isBlank hg rfl rfl h).2.1 (by decide)
  · rw [List.concat_eq_append, upTo_concat] at h
    obtain ⟨-, -, rfl⟩ := concat_blank_inj x.before_gap.isBlank hg rfl rfl h
    exact hbefore.resolve_left (by simp)

/-! ### What is deleted with an element -/

theorem planDeletion_trailing (h : L.elements = xs ++ x :: y :: ys) (hafter : '\n' ∉ x.after) :
    QuickFix.planDeletion L.text (.after (L.upTo xs x) x.text) =
      .after (L.upTo xs x) (x.text ++ x.after ++ [',']) := by
  rw [L.text_split h, onFrom_cons]
  exact QuickFix.planDeletion_trailing (isInlineBlank_of_notMem x.after_gap.isBlank hafter)

theorem planDeletion_leading (h : L.elements = xs ++ [w] ++ x :: ys)
    (hafter : ys = [] ∨ '\n' ∈ x.after) (hbefore : x.before.count '\n' ≤ 1) :
    QuickFix.planDeletion L.text (.after (L.upTo (xs ++ [w]) x) x.text) =
      .after (L.upTo xs w ++ w.text ++ w.after) (',' :: x.before ++ x.text) := by
  rw [L.text_split h, upTo_concat]
  exact QuickFix.planDeletion_leading (not_isInlineBlank_onFrom hafter) x.before_gap.isBlank
    hbefore

theorem planDeletion_alone (h : L.elements = xs ++ x :: ys) (hafter : ys = [] ∨ '\n' ∈ x.after)
    (hbefore : xs = [] ∨ 1 < x.before.count '\n') :
    QuickFix.planDeletion L.text (.after (L.upTo xs x) x.text) = .after (L.upTo xs x) x.text := by
  rw [L.text_split h]
  exact QuickFix.planDeletion_alone (not_isInlineBlank_onFrom hafter) (lt_count_upTo hbefore)

/-- An element is deleted alone if both commas next to it are out of reach. -/
theorem planDeletion_eq_self_iff (h : L.elements = xs ++ x :: ys) :
    QuickFix.planDeletion L.text (.after (L.upTo xs x) x.text) = .after (L.upTo xs x) x.text ↔
      (ys = [] ∨ '\n' ∈ x.after) ∧ (xs = [] ∨ 1 < x.before.count '\n') := by
  refine ⟨fun hself => ?_, fun ⟨hafter, hbefore⟩ => planDeletion_alone h hafter hbefore⟩
  have hafter : ys = [] ∨ '\n' ∈ x.after := by
    by_contra hnot
    obtain ⟨hys, hn⟩ := not_or.mp hnot
    obtain ⟨y, ys, rfl⟩ := List.exists_cons_of_ne_nil hys
    rw [planDeletion_trailing h hn] at hself
    have hstop := congrArg Span.stop hself
    simp [Span.after] at hstop
    exact absurd hstop.2 (by decide)
  refine ⟨hafter, ?_⟩
  by_contra hnot
  obtain ⟨hxs, hcount⟩ := not_or.mp hnot
  obtain ⟨xs, w, rfl⟩ := (List.eq_nil_or_concat xs).resolve_left hxs
  rw [List.concat_eq_append] at h hself
  rw [planDeletion_leading h hafter (Nat.le_of_not_lt hcount)] at hself
  have hstart := congrArg Span.start hself
  simp [Span.after, upTo_concat] at hstart
  exact absurd hstart.1 (by decide)

/-! ### What is left -/

/-- What applying a quick fix for the element `x`, which comes after `xs`, makes of the text. -/
def Deletes (L : Layout) (xs : List Element) (x : Element) (t : Text) : Prop :=
  (Edit.delete (QuickFix.planDeletion L.text (.after (L.upTo xs x) x.text))).apply L.text = .ok t

theorem delete_trailing (h : L.elements = xs ++ x :: y :: ys) (hafter : '\n' ∉ x.after) :
    ∃ L' : Layout, L'.elements = xs ++ x.afterGap y :: ys ∧ L.Deletes xs x L'.text := by
  let L' : Layout := { L with elements := xs ++ x.afterGap y :: ys }
  refine ⟨L', rfl, ?_⟩
  have htext' : L'.text = L'.upTo xs (x.afterGap y) ++ (x.afterGap y).text ++
      L'.onFrom (x.afterGap y) ys := text_split rfl
  have htext : L.text = L.upTo xs x ++ (x.text ++ x.after ++ [',']) ++
      (y.before ++ y.text ++ L.onFrom y ys) := by
    rw [L.text_split h, onFrom_cons]
    simp only [List.append_assoc, List.singleton_append]
  have hedit := Edit.apply_after (L.upTo xs x) (x.text ++ x.after ++ [','])
    (y.before ++ y.text ++ L.onFrom y ys) []
  rw [Deletes, planDeletion_trailing h hafter, htext, Edit.delete, hedit, htext']
  simp only [L', upTo, opening, onFrom, Element.afterGap, List.append_assoc, List.append_nil]

theorem delete_leading (h : L.elements = xs ++ [w] ++ x :: ys)
    (hafter : ys = [] ∨ '\n' ∈ x.after) (hbefore : x.before.count '\n' ≤ 1) :
    ∃ L' : Layout, L'.elements = xs ++ w.beforeGap x :: ys ∧ L.Deletes (xs ++ [w]) x L'.text := by
  let L' : Layout := { L with elements := xs ++ w.beforeGap x :: ys }
  refine ⟨L', rfl, ?_⟩
  have htext' : L'.text = L'.upTo xs (w.beforeGap x) ++ (w.beforeGap x).text ++
      L'.onFrom (w.beforeGap x) ys := text_split rfl
  have htext : L.text = L.upTo xs w ++ w.text ++ w.after ++ (',' :: x.before ++ x.text) ++
      L.onFrom x ys := by
    rw [L.text_split h, upTo_concat]
    simp only [List.append_assoc, List.cons_append]
  have hedit := Edit.apply_after (L.upTo xs w ++ w.text ++ w.after) (',' :: x.before ++ x.text)
    (L.onFrom x ys) []
  rw [Deletes, planDeletion_leading h hafter hbefore, htext, Edit.delete, hedit, htext']
  simp only [L', upTo, opening, onFrom, Element.beforeGap, List.append_assoc, List.append_nil]

theorem deletes_alone (h : L.elements = xs ++ x :: ys) (hafter : ys = [] ∨ '\n' ∈ x.after)
    (hbefore : xs = [] ∨ 1 < x.before.count '\n') :
    L.Deletes xs x (L.upTo xs x ++ L.onFrom x ys) := by
  have hedit := Edit.apply_after (L.upTo xs x) x.text (L.onFrom x ys) []
  rw [Deletes, planDeletion_alone h hafter hbefore, L.text_split h, Edit.delete, hedit,
    List.append_nil]

theorem delete_single (h : L.elements = [x]) :
    ∃ L' : Layout, L'.elements = [] ∧ L.Deletes [] x L'.text := by
  -- the white space on both sides meets between the brackets
  let L' : Layout := { L with
    elements := [], hollow := x.before ++ x.after,
    hollow_gap := x.before_gap.append x.after_gap }
  refine ⟨L', rfl, ?_⟩
  have hdeletes : L.Deletes [] x (L.upTo [] x ++ L.onFrom x []) :=
    deletes_alone h (.inl rfl) (.inl rfl)
  have htext : L'.text = L.upTo [] x ++ L.onFrom x [] := by
    simp [L', text, bodyText, upTo, opening, onFrom]
  rw [htext]
  exact hdeletes

end Layout

/-! ### A comma too many -/

namespace State

theorem feed_headText (xs : List Element) (items : List Value) {m : Mode} (hgap : m.SkipsGaps)
    (hm : m.BeginsValue) :
    ∃ items' m', (⟨[.array items], m⟩ : State).feed (headText xs) = some ⟨[.array items'], m'⟩ ∧
      (xs = [] ∧ m' = m ∨ xs ≠ [] ∧ m' = .item) := by
  induction xs generalizing items m with
  | nil => exact ⟨items, m, rfl, .inl ⟨rfl, rfl⟩⟩
  | cons x xs ih =>
      have hcomma : (⟨[.array (x.value :: items)], .after⟩ : State).next? ',' =
          some ⟨[.array (x.value :: items)], .item⟩ := rfl
      obtain ⟨items', m', hfeed, hm'⟩ := ih (x.value :: items) (m := .item) trivial trivial
      refine ⟨items', m', ?_, .inr ⟨by simp, ?_⟩⟩
      · rw [headText_cons, feed_append, feed_slot x items hgap hm, Option.bind_some, feed_cons,
          hcomma, Option.bind_some, hfeed]
      · rcases hm' with ⟨-, rfl⟩ | ⟨-, rfl⟩ <;> rfl

end State

namespace Layout

variable {L : Layout} {xs ys : List Element} {x : Element}

theorem feed_upTo (L : Layout) (xs : List Element) (x : Element) :
    ∃ items m, State.start.feed (L.upTo xs x) = some ⟨[.array items], m⟩ ∧
      (xs = [] ∧ m = .firstItem ∨ xs ≠ [] ∧ m = .item) := by
  have hopen : (⟨[], .value⟩ : State).next? '[' = some ⟨[.array []], .firstItem⟩ := rfl
  obtain ⟨items, m, hfeed, hm⟩ := State.feed_headText xs [] (m := .firstItem) trivial trivial
  refine ⟨items, m, ?_, hm⟩
  have hgap : m.SkipsGaps := by
    rcases hm with ⟨-, rfl⟩ | ⟨-, rfl⟩ <;> trivial
  rw [upTo, opening, State.feed_append, State.feed_append, State.feed_append, State.start,
    State.feed_gap (m := .value) trivial L.lead_gap, Option.bind_some, State.feed_cons, hopen,
    Option.bind_some, State.feed_nil, Option.bind_some, hfeed, Option.bind_some]
  exact State.feed_gap hgap x.before_gap

/-- An element of several that goes without a comma leaves a comma next to a bracket or to another
comma. -/
theorem not_accepts_alone (hne : xs ≠ [] ∨ ys ≠ []) (v : Value) :
    ¬ State.start.Accepts (L.upTo xs x ++ L.onFrom x ys) v := by
  intro h
  obtain ⟨items, m, hfeed, hm⟩ := L.feed_upTo xs x
  have hgap : m.SkipsGaps := by
    rcases hm with ⟨-, rfl⟩ | ⟨-, rfl⟩ <;> trivial
  rw [State.accepts_append hfeed] at h
  -- what comes next is a bracket after a comma, or a comma where a value is due
  cases ys with
  | nil =>
      obtain ⟨-, rfl⟩ := hm.resolve_left fun h => (hne.resolve_right (by simp)) h.1
      rw [onFrom_nil, State.accepts_gap hgap x.after_gap] at h
      obtain ⟨s, hs, -⟩ := State.accepts_cons.mp h
      cases hs
  | cons y ys =>
      rw [onFrom_cons, State.accepts_gap hgap x.after_gap] at h
      obtain ⟨s, hs, -⟩ := State.accepts_cons.mp h
      rcases hm with ⟨-, rfl⟩ | ⟨-, rfl⟩ <;> cases hs

theorem delete_stuck (h : L.elements = xs ++ x :: ys) (hne : xs ≠ [] ∨ ys ≠ [])
    (hafter : ys = [] ∨ '\n' ∈ x.after) (hbefore : xs = [] ∨ 1 < x.before.count '\n') :
    ∃ t, L.Deletes xs x t ∧ ∃ e, Document.parse t = .error e := by
  refine ⟨_, deletes_alone h hafter hbefore, ?_⟩
  cases hparse : Document.parse (L.upTo xs x ++ L.onFrom x ys) with
  | error e => exact ⟨e, rfl⟩
  | ok es =>
      obtain ⟨v, hread, -⟩ := Document.parse_eq_ok.mp hparse
      exact absurd (read_eq_ok_iff.mp hread) (not_accepts_alone hne v)

/-- The object of `x`, possibly with other white space around it. -/
def SameObject (x x' : Element) : Prop :=
  x'.text = x.text ∧ x'.members = x.members

theorem forall₂_sameObject_refl (xs : List Element) : List.Forall₂ SameObject xs xs :=
  List.forall₂_same.mpr fun _ _ => ⟨rfl, rfl⟩

/-- A quick fix takes one element away or leaves a text that is no document. -/
theorem delete_cases (h : L.elements = xs ++ x :: ys) :
    (∃ (L' : Layout) (y : Element) (ys' : List Element), ys = y :: ys' ∧ '\n' ∉ x.after ∧
      L'.elements = xs ++ x.afterGap y :: ys' ∧ L.Deletes xs x L'.text) ∨
    (∃ (L' : Layout) (xs' : List Element), (ys = [] ∨ '\n' ∈ x.after) ∧
      (xs = [] ∧ ys = [] ∨ xs ≠ [] ∧ x.before.count '\n' ≤ 1) ∧
      L'.elements = xs' ++ ys ∧ List.Forall₂ SameObject xs xs' ∧ L.Deletes xs x L'.text) ∨
    ∃ t, (ys = [] ∨ '\n' ∈ x.after) ∧ (xs ≠ [] ∨ ys ≠ []) ∧
      (xs = [] ∨ 1 < x.before.count '\n') ∧ L.Deletes xs x t ∧
        ∃ e, Document.parse t = .error e := by
  by_cases hafter : ys = [] ∨ '\n' ∈ x.after
  · right
    by_cases hne : xs = [] ∧ ys = []
    · obtain ⟨rfl, rfl⟩ := hne
      obtain ⟨L', hL', hdeletes⟩ := delete_single h
      exact .inl ⟨L', [], hafter, .inl ⟨rfl, rfl⟩, hL', .nil, hdeletes⟩
    · have hne' : xs ≠ [] ∨ ys ≠ [] := Decidable.not_and_iff_or_not.mp hne
      by_cases hbefore : xs = [] ∨ 1 < x.before.count '\n'
      · obtain ⟨t, hdeletes, hparse⟩ := delete_stuck h hne' hafter hbefore
        exact .inr ⟨t, hafter, hne', hbefore, hdeletes, hparse⟩
      · obtain ⟨hxs, hcount⟩ := not_or.mp hbefore
        obtain ⟨xs, w, rfl⟩ := (List.eq_nil_or_concat xs).resolve_left hxs
        rw [List.concat_eq_append] at h hxs ⊢
        have hle : x.before.count '\n' ≤ 1 := Nat.le_of_not_lt hcount
        obtain ⟨L', hL', hdeletes⟩ := delete_leading h hafter hle
        refine .inl ⟨L', xs ++ [w.beforeGap x], hafter, .inr ⟨hxs, hle⟩, ?_, ?_, hdeletes⟩
        · rw [hL', List.append_assoc, List.singleton_append]
        · exact List.rel_append (forall₂_sameObject_refl xs) (.cons ⟨rfl, rfl⟩ .nil)
  · left
    obtain ⟨hys, hn⟩ := not_or.mp hafter
    obtain ⟨y, ys, rfl⟩ := List.exists_cons_of_ne_nil hys
    obtain ⟨L', hL', hdeletes⟩ := delete_trailing h hn
    exact ⟨L', y, ys, rfl, hn, hL', hdeletes⟩

end Layout

end Json

end Keybindings
