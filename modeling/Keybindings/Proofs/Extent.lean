import Keybindings.Proofs.QuickFix

/-!
How far a planned deletion reaches.

Whatever the text is, the deletion of a span takes at most one comma along, and the white space
between that comma and the span (`planDeletion_cases`).  Everything else is spared, and the deletion
always applies (`extends_planDeletion`).
-/

namespace Keybindings

/-! ### White space next to a character -/

theorem blank_cons_inj {g h b b' : Text} {c d : Char} (hg : ∀ e ∈ g, isBlank e)
    (hh : ∀ e ∈ h, isBlank e) (hc : isBlank c = false) (hd : isBlank d = false)
    (heq : g ++ c :: b = h ++ d :: b') : g = h ∧ c = d ∧ b = b' := by
  have htrim := Text.trimStart_append (b := b) hg hc
  rw [heq, Text.trimStart_append hh hd] at htrim
  cases htrim
  exact ⟨List.append_cancel_right heq, rfl, rfl⟩

theorem concat_blank_inj {g h a a' : Text} {c d : Char} (hg : ∀ e ∈ g, isBlank e)
    (hh : ∀ e ∈ h, isBlank e) (hc : isBlank c = false) (hd : isBlank d = false)
    (heq : a ++ c :: g = a' ++ d :: h) : a = a' ∧ c = d ∧ g = h := by
  have htrim := Text.trimEnd_append (a := a) hg hc
  rw [heq, Text.trimEnd_append hh hd] at htrim
  obtain ⟨rfl, hcd⟩ := List.append_inj' htrim.symm rfl
  cases hcd
  have hcons := List.append_cancel_left heq
  exact ⟨rfl, rfl, (List.cons_eq_cons.mp hcons).2⟩

/-! ### The three searches together -/

namespace QuickFix

variable {a x b g : Text}

theorem planDeletion_trailing (hg : IsInlineBlank g) :
    planDeletion (a ++ x ++ (g ++ ',' :: b)) (.after a x) = .after a (x ++ g ++ [',']) := by
  have h := (trailingComma?_eq_some_iff (a := a) (x := x)).mpr ⟨g, b, rfl, hg, rfl⟩
  have hsize : Text.size (a ++ x) + Text.size g + 1 =
      Text.size a + Text.size (x ++ g ++ [',']) := by
    have hcomma : Text.size [','] = 1 := rfl
    simp only [Text.size_append, hcomma, Nat.add_assoc]
  simp only [planDeletion, h, hsize]
  rfl

theorem trailingComma?_eq_none (hafter : ∀ g b', b = g ++ ',' :: b' → ¬ IsInlineBlank g) :
    trailingComma? (a ++ x ++ b) (.ofText (a ++ x ++ b)) (.after a x) = none := by
  rw [Option.eq_none_iff_forall_ne_some]
  intro stop h
  obtain ⟨g, b', rfl, hg, -⟩ := trailingComma?_eq_some_iff.mp h
  exact hafter g b' rfl hg

theorem isBlank_append_newline {g g' : Text} (hg : IsInlineBlank g) (hg' : IsInlineBlank g') :
    ∀ c ∈ g ++ '\n' :: g', isBlank c := by
  intro c hc
  rcases List.mem_append.mp hc with hc | hc
  · exact hg.isBlank c hc
  · rcases List.mem_cons.mp hc with rfl | hc
    · rfl
    · exact hg'.isBlank c hc

/-- If the comma before the span is at most one newline away, one of the two searches finds it. -/
theorem planDeletion_leading (hafter : ∀ g' b', b = g' ++ ',' :: b' → ¬ IsInlineBlank g')
    (hg : ∀ c ∈ g, isBlank c) (hcount : g.count '\n' ≤ 1) :
    planDeletion (a ++ ',' :: g ++ x ++ b) (.after (a ++ ',' :: g) x) =
      .after a (',' :: g ++ x) := by
  have hsize : Text.size (a ++ ',' :: g) + Text.size x =
      Text.size a + Text.size (',' :: g ++ x) := by
    simp only [Text.size_append, Text.size_cons, Nat.add_assoc]
  simp only [planDeletion, trailingComma?_eq_none hafter]
  cases hp : previousLineComma? (a ++ ',' :: g ++ x ++ b) (.ofText (a ++ ',' :: g ++ x ++ b))
      (.after (a ++ ',' :: g) x) with
  | some start =>
      obtain ⟨a', g₁, g₂, heq, hg₁, hg₂, rfl⟩ := previousLineComma?_eq_some_iff.mp hp
      rw [(concat_blank_inj hg (isBlank_append_newline hg₁ hg₂) rfl rfl heq).1] at hsize ⊢
      simp only [Span.after, hsize]
  | none =>
      have hinline : IsInlineBlank g := by
        refine isInlineBlank_of_notMem hg fun hn => ?_
        -- with its one newline the comma would end the line before
        obtain ⟨g₁, g₂, rfl⟩ := List.append_of_mem hn
        rw [List.count_append, List.count_cons_self] at hcount
        have hn₁ : '\n' ∉ g₁ := List.count_eq_zero.mp (by omega)
        have hn₂ : '\n' ∉ g₂ := List.count_eq_zero.mp (by omega)
        have hg₁ : IsInlineBlank g₁ :=
          isInlineBlank_of_notMem (fun c hc => hg c (List.mem_append_left _ hc)) hn₁
        have hg₂ : IsInlineBlank g₂ := isInlineBlank_of_notMem
          (fun c hc => hg c (List.mem_append_right _ (List.mem_cons_of_mem _ hc))) hn₂
        have h := (previousLineComma?_eq_some_iff (x := x) (b := b)).mpr
          ⟨a, g₁, g₂, rfl, hg₁, hg₂, rfl⟩
        rw [hp] at h
        cases h
      have h := (leadingComma?_eq_some_iff (x := x) (b := b)).mpr ⟨a, g, rfl, hinline, rfl⟩
      simp only [h]
      simp only [Span.after, hsize]

theorem planDeletion_alone (hafter : ∀ g b', b = g ++ ',' :: b' → ¬ IsInlineBlank g)
    (hbefore : ∀ a' g, a = a' ++ ',' :: g → (∀ c ∈ g, isBlank c) → 1 < g.count '\n') :
    planDeletion (a ++ x ++ b) (.after a x) = .after a x := by
  have hprevious :
      previousLineComma? (a ++ x ++ b) (.ofText (a ++ x ++ b)) (.after a x) = none := by
    rw [Option.eq_none_iff_forall_ne_some]
    intro start h
    obtain ⟨a', g₁, g₂, rfl, hg₁, hg₂, -⟩ := previousLineComma?_eq_some_iff.mp h
    have hlt := hbefore a' (g₁ ++ '\n' :: g₂) rfl (isBlank_append_newline hg₁ hg₂)
    rw [List.count_append, List.count_cons_self, List.count_eq_zero.mpr hg₁.notMem,
      List.count_eq_zero.mpr hg₂.notMem] at hlt
    omega
  have hleading : leadingComma? (a ++ x ++ b) (.ofText (a ++ x ++ b)) (.after a x) = none := by
    rw [Option.eq_none_iff_forall_ne_some]
    intro start h
    obtain ⟨a', g, rfl, hg, -⟩ := leadingComma?_eq_some_iff.mp h
    have hlt := hbefore a' g rfl hg.isBlank
    rw [List.count_eq_zero.mpr hg.notMem] at hlt
    omega
  simp only [planDeletion, trailingComma?_eq_none hafter, hprevious, hleading]

/-- Nothing, or white space with a comma in front. -/
def IsSeparatorBefore (l : Text) : Prop :=
  l = [] ∨ ∃ g, l = ',' :: g ∧ ∀ c ∈ g, isBlank c

/-- Nothing, or white space with a comma at the end. -/
def IsSeparatorBehind (r : Text) : Prop :=
  r = [] ∨ ∃ g, r = g ++ [','] ∧ ∀ c ∈ g, isBlank c

/-- What goes besides the span is a comma and white space, on one side of it. -/
theorem planDeletion_cases (a x b : Text) : ∃ a' l r b', a = a' ++ l ∧ b = r ++ b' ∧
    (l = [] ∨ r = []) ∧ IsSeparatorBefore l ∧ IsSeparatorBehind r ∧
      planDeletion (a ++ x ++ b) (.after a x) = .after a' (l ++ x ++ r) := by
  by_cases hafter : ∃ g b', b = g ++ ',' :: b' ∧ IsInlineBlank g
  · obtain ⟨g, b', rfl, hg⟩ := hafter
    refine ⟨a, [], g ++ [','], b', (List.append_nil a).symm, by simp, .inl rfl, .inl rfl,
      .inr ⟨g, rfl, hg.isBlank⟩, ?_⟩
    rw [planDeletion_trailing hg, List.nil_append, List.append_assoc]
  · have hnone : ∀ g b', b = g ++ ',' :: b' → ¬ IsInlineBlank g :=
      fun g b' hb hg => hafter ⟨g, b', hb, hg⟩
    by_cases hbefore : ∃ a' g, a = a' ++ ',' :: g ∧ (∀ c ∈ g, isBlank c) ∧ g.count '\n' ≤ 1
    · obtain ⟨a', g, rfl, hg, hcount⟩ := hbefore
      refine ⟨a', ',' :: g, [], b, rfl, rfl, .inr rfl, .inr ⟨g, rfl, hg⟩, .inl rfl, ?_⟩
      rw [planDeletion_leading hnone hg hcount, List.append_nil]
    · refine ⟨a, [], [], b, (List.append_nil a).symm, rfl, .inl rfl, .inl rfl, .inl rfl, ?_⟩
      rw [List.nil_append, List.append_nil]
      refine planDeletion_alone hnone fun a' g ha hg => ?_
      exact Nat.lt_of_not_le fun hcount => hbefore ⟨a', g, ha, hg, hcount⟩

/-- The span `p` holds `s` and, on one side of it at most, white space and a comma at the far
end. -/
structure Extends (t : Text) (s p : Span) : Prop where
  start_le : p.start ≤ s.start
  le_stop : s.stop ≤ p.stop
  oneSided : p.start = s.start ∨ p.stop = s.stop
  before : ∃ l, Text.slice? t p.start s.start = some l ∧ IsSeparatorBefore l
  behind : ∃ r, Text.slice? t s.stop p.stop = some r ∧ IsSeparatorBehind r

theorem extends_after {a l x r b : Text} (hone : l = [] ∨ r = []) (hl : IsSeparatorBefore l)
    (hr : IsSeparatorBehind r) :
    Extends (a ++ l ++ x ++ (r ++ b)) (.after (a ++ l) x) (.after a (l ++ x ++ r)) where
  start_le := by
    simp only [Span.after, Text.size_append]
    omega
  le_stop := by
    simp only [Span.after, Text.size_append]
    omega
  oneSided := by
    rcases hone with rfl | rfl
    · left
      simp [Span.after]
    · right
      simp [Span.after, Nat.add_assoc]
  before := by
    refine ⟨l, Text.slice?_eq_some_iff.mpr ⟨a, x ++ (r ++ b), ?_, rfl, ?_⟩, hl⟩
    · simp only [List.append_assoc]
    · exact Text.size_append a l
  behind := by
    refine ⟨r, Text.slice?_eq_some_iff.mpr ⟨a ++ l ++ x, b, ?_, ?_, ?_⟩, hr⟩
    · simp only [List.append_assoc]
    · simp only [Span.after, Text.size_append]
    · simp only [Span.after, Text.size_append, Nat.add_assoc]

/-- A planned deletion always applies, and spares what is neither the span nor a separator. -/
theorem extends_planDeletion {t x : Text} {s : Span} (h : s.slice? t = some x) :
    Extends t s (planDeletion t s) ∧ ∃ t', (Edit.delete (planDeletion t s)).apply t = .ok t' := by
  obtain ⟨a, b, rfl, hstart, hstop⟩ := Text.slice?_eq_some_iff.mp h
  obtain rfl : s = .after a x := by
    rw [Span.after, ← hstop, ← hstart]
  obtain ⟨a, l, r, b, rfl, rfl, hone, hl, hr, hplan⟩ := planDeletion_cases a x b
  rw [hplan]
  refine ⟨extends_after hone hl hr, a ++ b, ?_⟩
  have happly := Edit.apply_after a (l ++ x ++ r) b []
  simpa [Edit.delete] using happly

/-- An object whose comma is on the line before, with wide characters and a wide space around. -/
def indented : Text :=
  "é,\r\n\u3000\x7b\x7d\r".toList

theorem extends_planDeletion_indented :
    (Span.mk 8 10).slice? indented = some "\x7b\x7d".toList ∧
      planDeletion indented ⟨8, 10⟩ = ⟨2, 10⟩ ∧ Extends indented ⟨8, 10⟩ ⟨2, 10⟩ :=
  ⟨rfl, rfl, (extends_planDeletion (s := ⟨8, 10⟩) (x := "\x7b\x7d".toList) rfl).1⟩

end QuickFix

end Keybindings
