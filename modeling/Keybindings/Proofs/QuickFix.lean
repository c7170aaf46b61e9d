import Keybindings.Proofs.Text.Lines
import Keybindings.QuickFix
import Mathlib.Data.List.TakeWhile

/-!
Which comma goes away together with a span.

Each of the three searches of a quick fix finds a comma exactly if the text on one side of the span
has a certain form, which makes no use of lines or offsets (`trailingComma?_eq_some_iff`,
`previousLineComma?_eq_some_iff`, `leadingComma?_eq_some_iff`).
-/

namespace Keybindings

/-- White space within a line. -/
def IsInlineBlank (g : Text) : Prop :=
  ∀ c ∈ g, isBlank c ∧ c ≠ '\n'

theorem IsInlineBlank.isBlank {g : Text} (hg : IsInlineBlank g) : ∀ c ∈ g, isBlank c :=
  fun c hc => (hg c hc).1

theorem IsInlineBlank.notMem {g : Text} (hg : IsInlineBlank g) : '\n' ∉ g :=
  fun h => (hg '\n' h).2 rfl

theorem isInlineBlank_of_notMem {g : Text} (hg : ∀ c ∈ g, isBlank c) (hn : '\n' ∉ g) :
    IsInlineBlank g :=
  fun c hc => ⟨hg c hc, fun h => hn (h ▸ hc)⟩

namespace Text

/-! ### Trimming -/

theorem trimStart_append {g b : Text} {c : Char} (hg : ∀ d ∈ g, isBlank d)
    (hc : isBlank c = false) : trimStart (g ++ c :: b) = c :: b := by
  rw [trimStart, List.dropWhile_append_of_pos hg, List.dropWhile_cons_of_neg (by simp [hc])]

theorem exists_append_trimStart (t : Text) : ∃ g, t = g ++ trimStart t ∧ ∀ d ∈ g, isBlank d :=
  ⟨t.takeWhile isBlank, List.takeWhile_append_dropWhile.symm, fun _ hd =>
    List.mem_takeWhile_imp hd⟩

theorem trimEnd_append {a g : Text} {c : Char} (hg : ∀ d ∈ g, isBlank d)
    (hc : isBlank c = false) : trimEnd (a ++ c :: g) = a ++ [c] := by
  have hreverse : ∀ d ∈ g.reverse, isBlank d := fun d hd => hg d (List.mem_reverse.mp hd)
  have h := trimStart_append (b := a.reverse) hreverse hc
  rw [trimStart] at h
  rw [trimEnd, List.reverse_append, List.reverse_cons, List.append_assoc, List.singleton_append, h]
  simp

theorem exists_trimEnd_append (t : Text) : ∃ g, t = trimEnd t ++ g ∧ ∀ d ∈ g, isBlank d := by
  obtain ⟨g, ht, hg⟩ := exists_append_trimStart t.reverse
  refine ⟨g.reverse, ?_, fun d hd => hg d (List.mem_reverse.mp hd)⟩
  rw [trimEnd, ← List.reverse_append, ← trimStart, ← ht, List.reverse_reverse]

/-- A text that ends with a given character but for white space. -/
theorem getLast?_trimEnd_eq_some_iff {t : Text} {c : Char} (hc : isBlank c = false) :
    (trimEnd t).getLast? = some c ↔ ∃ a g, t = a ++ c :: g ∧ ∀ d ∈ g, isBlank d := by
  constructor
  · intro h
    obtain ⟨a, ha⟩ := List.getLast?_eq_some_iff.mp h
    obtain ⟨g, ht, hg⟩ := exists_trimEnd_append t
    refine ⟨a, g, ?_, hg⟩
    rw [ha, List.append_assoc, List.singleton_append] at ht
    exact ht
  · rintro ⟨a, g, rfl, hg⟩
    rw [trimEnd_append hg hc, List.getLast?_concat]

theorem beforeLast_append {a g : Text} {c : Char} (hg : c ∉ g) :
    beforeLast c (a ++ c :: g) = some a := by
  have hreverse : ∀ d ∈ g.reverse, (d != c) = true := by
    intro d hd
    rw [bne_iff_ne]
    rintro rfl
    exact hg (List.mem_reverse.mp hd)
  rw [beforeLast, List.reverse_append, List.reverse_cons, List.append_assoc,
    List.singleton_append, List.dropWhile_append_of_pos hreverse,
    List.dropWhile_cons_of_neg (by simp)]
  simp

theorem dropReturn_append_of_ne_nil (a : Text) {b : Text} (hb : b ≠ []) :
    dropReturn (a ++ b) = a ++ dropReturn b := by
  have hlast : (a ++ b).getLast? = b.getLast? := by
    obtain ⟨d, hd⟩ := Option.isSome_iff_exists.mp (List.getLast?_isSome.mpr hb)
    rw [List.getLast?_append, hd, Option.some_or]
  rw [dropReturn, dropReturn, hlast]
  split
  · rw [List.dropLast_append_of_ne_nil hb]
  · rfl

theorem dropReturn_append_comma (a g : Text) :
    dropReturn (a ++ ',' :: g) = a ++ ',' :: dropReturn g := by
  rw [dropReturn_append_of_ne_nil a (by simp)]
  cases g with
  | nil => rfl
  | cons c g =>
      have h := dropReturn_append_of_ne_nil [','] (List.cons_ne_nil c g)
      rw [List.singleton_append, List.singleton_append] at h
      rw [h]

theorem size_append_sub (a b : Text) : size (a ++ b) - size b = size a := by
  rw [size_append, Nat.add_sub_cancel]

theorem size_dropReturn_le (t : Text) : size (dropReturn t) ≤ size t := by
  obtain ⟨e, he, -⟩ := dropReturn_append t
  have hsize := congrArg size he
  rw [size_append] at hsize
  omega

end Text

namespace QuickFix

section Searches

variable {a x b : Text}

theorem trailingComma?_line {l m m' r : Text} (hl : Text.EndsLine l) (hm : '\n' ∉ m)
    (hm' : '\n' ∉ m') (hr : Text.StartsBreak r) (ha : a ++ x = l ++ m) (hb : b = m' ++ r) :
    trailingComma? (a ++ x ++ b) (.ofText (a ++ x ++ b)) (.after a x) =
      match Text.trimStart (Text.dropReturn m') with
      | ',' :: _ => some (Text.size (a ++ x) +
          (Text.size (Text.dropReturn m') - Text.size (Text.trimStart (Text.dropReturn m'))) + 1)
      | _ => none := by
  have hstop : (Span.after a x).stop = Text.size (l ++ m) := by
    rw [← ha, Text.size_append, Span.after]
  have htext : a ++ x ++ b = l ++ (m ++ m') ++ r := by
    rw [ha, hb]
    simp only [List.append_assoc]
  have hline : (LineIndex.ofText (l ++ (m ++ m') ++ r)).lineOf (Text.size (l ++ m)) =
      l.count '\n' := by
    have h := LineIndex.lineOf_append (l ++ m) (m' ++ r)
    rw [List.count_append, List.count_eq_zero_of_not_mem hm, Nat.add_zero] at h
    rw [← h]
    simp only [List.append_assoc]
  have hend := LineIndex.lineEnd?_line (m := m ++ m') hl (by simp [hm, hm']) hr
  -- a carriage return is no part of a line, unless the span ends with it
  have hmax : max (Text.size l + Text.size (Text.dropReturn (m ++ m'))) (Text.size (l ++ m)) =
      Text.size (l ++ m) + Text.size (Text.dropReturn m') := by
    by_cases hne : m' = []
    · have hle := Text.size_dropReturn_le m
      subst hne
      rw [List.append_nil, Text.size_append]
      show max _ _ = Text.size l + Text.size m + 0
      omega
    · rw [Text.dropReturn_append_of_ne_nil m hne, Text.size_append, Text.size_append]
      omega
  obtain ⟨e, he, -⟩ := Text.dropReturn_append m'
  have hslice : Text.slice? (l ++ (m ++ m') ++ r) (Text.size (l ++ m))
      (Text.size (l ++ m) + Text.size (Text.dropReturn m')) = some (Text.dropReturn m') := by
    refine Text.slice?_eq_some_iff.mpr ⟨l ++ m, e ++ r, ?_, rfl, rfl⟩
    rw [← List.append_assoc (l ++ m ++ _), List.append_assoc (l ++ m), ← he]
    simp only [List.append_assoc]
  rw [trailingComma?, hstop, htext, hline, hend, ha]
  simp only [Option.bind_eq_bind, Option.bind_some, hmax, hslice]
  rfl

/-- The comma after a span has nothing but white space before it, and is on the same line. -/
theorem trailingComma?_eq_some_iff {stop : Nat} :
    trailingComma? (a ++ x ++ b) (.ofText (a ++ x ++ b)) (.after a x) = some stop ↔
      ∃ g b', b = g ++ ',' :: b' ∧ IsInlineBlank g ∧
        stop = Text.size (a ++ x) + Text.size g + 1 := by
  obtain ⟨l, m, ha, hl, hm⟩ := Text.exists_lineStart (a ++ x)
  constructor
  · intro h
    obtain ⟨m', r, hb, hm', hr⟩ := Text.exists_lineEnd b
    rw [trailingComma?_line hl hm hm' hr ha hb] at h
    obtain ⟨g, hg, hblank⟩ := Text.exists_append_trimStart (Text.dropReturn m')
    obtain ⟨e, he, -⟩ := Text.dropReturn_append m'
    split at h
    · next b' htrim =>
      rw [htrim] at hg h
      rw [hg] at he h
      refine ⟨g, b' ++ e ++ r, ?_, isInlineBlank_of_notMem hblank ?_, ?_⟩
      · rw [hb, he]
        simp only [List.append_assoc, List.cons_append]
      · intro hn
        rw [he] at hm'
        exact hm' (by simp [hn])
      · rw [Text.size_append_sub] at h
        exact (Option.some.inj h).symm
    · cases h
  · rintro ⟨g, b', rfl, hg, rfl⟩
    obtain ⟨m', r, rfl, hm', hr⟩ := Text.exists_lineEnd b'
    have hline : '\n' ∉ g ++ ',' :: m' := by simp [hg.notMem, hm']
    rw [trailingComma?_line hl hm hline hr ha (by simp), Text.dropReturn_append_comma,
      Text.trimStart_append hg.isBlank rfl]
    simp only [Text.size_append_sub]

/-- The start of a span on its line. -/
theorem lineStart?_span {l m : Text} (hl : Text.EndsLine l) (hm : '\n' ∉ m) (ha : a = l ++ m) :
    (LineIndex.ofText (a ++ x ++ b)).lineOf (Span.after a x).start = l.count '\n' ∧
      (LineIndex.ofText (a ++ x ++ b)).lineStart? (l.count '\n') = some (Text.size l) ∧
        Text.slice? (a ++ x ++ b) (Text.size l) (Span.after a x).start = some m := by
  subst ha
  have htext : l ++ m ++ x ++ b = l ++ (m ++ (x ++ b)) := by simp only [List.append_assoc]
  refine ⟨?_, ?_, ?_⟩
  · have h := LineIndex.lineOf_append (l ++ m) (x ++ b)
    rw [List.count_append, List.count_eq_zero_of_not_mem hm, Nat.add_zero] at h
    rw [← h, ← List.append_assoc]
    rfl
  · rw [htext]
    exact LineIndex.lineStart?_append hl _
  · refine Text.slice?_eq_some_iff.mpr ⟨l, x ++ b, ?_, rfl, ?_⟩
    · simp only [List.append_assoc]
    · exact Text.size_append l m

theorem leadingComma?_line {l m : Text} (hl : Text.EndsLine l) (hm : '\n' ∉ m) (ha : a = l ++ m) :
    leadingComma? (a ++ x ++ b) (.ofText (a ++ x ++ b)) (.after a x) =
      if (Text.trimEnd m).getLast? = some ',' then
        some (Text.size l + Text.size (Text.trimEnd m) - 1)
      else none := by
  obtain ⟨hline, hstart, hslice⟩ := lineStart?_span (x := x) (b := b) hl hm ha
  rw [leadingComma?, hline, hstart]
  simp only [Option.bind_eq_bind, Option.bind_some, hslice]
  by_cases hlast : (Text.trimEnd m).getLast? = some ','
  · simp only [hlast, ne_eq, not_true_eq_false, if_false, if_true]
    rfl
  · simp only [hlast, ne_eq, not_false_eq_true, if_false, if_true]
    rfl

/-- The comma before a span has nothing but white space after it, and is on the same line. -/
theorem leadingComma?_eq_some_iff {start : Nat} :
    leadingComma? (a ++ x ++ b) (.ofText (a ++ x ++ b)) (.after a x) = some start ↔
      ∃ a' g, a = a' ++ ',' :: g ∧ IsInlineBlank g ∧ start = Text.size a' := by
  have hcomma : Text.size [','] = 1 := rfl
  constructor
  · intro h
    obtain ⟨l, m, rfl, hl, hm⟩ := Text.exists_lineStart a
    rw [leadingComma?_line hl hm rfl] at h
    split at h
    · next hlast =>
      obtain ⟨a₁, g, rfl, hg⟩ := (Text.getLast?_trimEnd_eq_some_iff rfl).mp hlast
      refine ⟨l ++ a₁, g, ?_, isInlineBlank_of_notMem hg ?_, ?_⟩
      · simp only [List.append_assoc]
      · exact fun hn => hm (by simp [hn])
      · rw [Text.trimEnd_append hg rfl, Text.size_append, hcomma] at h
        rw [← Option.some.inj h, Text.size_append]
        omega
    · cases h
  · rintro ⟨a', g, rfl, hg, rfl⟩
    obtain ⟨l, m, rfl, hl, hm⟩ := Text.exists_lineStart a'
    have hline : '\n' ∉ m ++ ',' :: g := by simp [hm, hg.notMem]
    rw [leadingComma?_line hl hline (by simp only [List.append_assoc]),
      Text.trimEnd_append hg.isBlank rfl, List.getLast?_concat, if_pos rfl, Text.size_append,
      Text.size_append, hcomma]
    rfl

theorem previousLineComma?_eq_none (ha : '\n' ∉ a) :
    previousLineComma? (a ++ x ++ b) (.ofText (a ++ x ++ b)) (.after a x) = none := by
  obtain ⟨hline, -, -⟩ := lineStart?_span (x := x) (b := b) (.inl rfl) ha (List.nil_append a).symm
  rw [previousLineComma?, hline]
  rfl

theorem previousLineComma?_line {k n m : Text} (hk : Text.EndsLine k) (hn : '\n' ∉ n)
    (hm : '\n' ∉ m) (ha : a = k ++ n ++ '\n' :: m) :
    previousLineComma? (a ++ x ++ b) (.ofText (a ++ x ++ b)) (.after a x) =
      if Text.isAllBlank m ∧ (Text.trimEnd (Text.dropReturn n)).getLast? = some ',' then
        (Text.beforeLast ',' (Text.dropReturn n)).map (Text.size k + Text.size ·)
      else none := by
  have hl : Text.EndsLine (k ++ n ++ ['\n']) := .inr ⟨k ++ n, rfl⟩
  obtain ⟨hline, hstart, hslice⟩ := lineStart?_span (x := x) (b := b) hl hm
    (ha.trans (by simp only [List.append_assoc, List.singleton_append]))
  have hcount : (k ++ n ++ ['\n']).count '\n' = k.count '\n' + 1 := by
    rw [List.count_append, List.count_append, List.count_eq_zero_of_not_mem hn]
    rfl
  have htext : a ++ x ++ b = k ++ n ++ '\n' :: (m ++ (x ++ b)) := by
    rw [ha]
    simp only [List.append_assoc, List.cons_append]
  have hprevious := LineIndex.lineText?_line (r := '\n' :: (m ++ (x ++ b))) hk hn (.inr ⟨_, rfl⟩)
  have hstart' := LineIndex.lineStart?_append hk (n ++ '\n' :: (m ++ (x ++ b)))
  rw [← List.append_assoc, ← htext] at hstart'
  rw [← htext] at hprevious
  rw [hcount] at hline hstart
  rw [previousLineComma?, hline, if_neg (Nat.succ_ne_zero _)]
  simp only [Option.bind_eq_bind, Option.bind_some, hstart, hslice, Nat.add_sub_cancel, hprevious,
    hstart']
  by_cases hblank : Text.isAllBlank m
  · by_cases hlast : (Text.trimEnd (Text.dropReturn n)).getLast? = some ','
    · simp only [hblank, hlast]
      cases Text.beforeLast ',' (Text.dropReturn n) <;> rfl
    · simp [hlast]
  · simp [hblank]

/-- The comma at the end of the line before has only white space after it, and one newline. -/
theorem previousLineComma?_eq_some_iff {start : Nat} :
    previousLineComma? (a ++ x ++ b) (.ofText (a ++ x ++ b)) (.after a x) = some start ↔
      ∃ a' g g', a = a' ++ ',' :: (g ++ '\n' :: g') ∧ IsInlineBlank g ∧ IsInlineBlank g' ∧
        start = Text.size a' := by
  constructor
  · intro h
    obtain ⟨l, m, ha, hl, hm⟩ := Text.exists_lineStart a
    rcases hl with rfl | ⟨l, rfl⟩
    · rw [previousLineComma?_eq_none (by rwa [ha])] at h
      cases h
    · obtain ⟨k, n, rfl, hk, hn⟩ := Text.exists_lineStart l
      rw [List.append_assoc (k ++ n), List.singleton_append] at ha
      rw [previousLineComma?_line hk hn hm ha] at h
      split at h
      · next hif =>
        obtain ⟨hblank, hlast⟩ := hif
        obtain ⟨a₁, g, hreturn, hg⟩ := (Text.getLast?_trimEnd_eq_some_iff rfl).mp hlast
        have hcomma : ',' ∉ g := fun hc => absurd (hg ',' hc) (by decide)
        obtain ⟨e, he, hcr⟩ := Text.dropReturn_append n
        rw [hreturn] at he
        rw [hreturn, Text.beforeLast_append hcomma, Option.map_some] at h
        -- the carriage return that the line does not show is white space too
        have hge : ∀ d ∈ g ++ e, isBlank d := by
          intro d hd
          rcases List.mem_append.mp hd with hd | hd
          · exact hg d hd
          · rcases hcr with rfl | rfl
            · cases hd
            · rw [List.mem_singleton.mp hd]
              rfl
        refine ⟨k ++ a₁, g ++ e, m, ?_, isInlineBlank_of_notMem hge ?_,
          isInlineBlank_of_notMem (List.all_eq_true.mp hblank) hm, ?_⟩
        · rw [ha, he]
          simp only [List.append_assoc, List.cons_append]
        · intro hge
          rw [he, List.append_assoc, List.cons_append] at hn
          exact hn (List.mem_append_right a₁ (List.mem_cons_of_mem _ hge))
        · rw [← Option.some.inj h, Text.size_append]
      · cases h
  · rintro ⟨a', g, g', rfl, hg, hg', rfl⟩
    obtain ⟨k, n, rfl, hk, hn⟩ := Text.exists_lineStart a'
    have hline : '\n' ∉ n ++ ',' :: g := by simp [hn, hg.notMem]
    obtain ⟨e, he, -⟩ := Text.dropReturn_append g
    have hblank : ∀ d ∈ Text.dropReturn g, isBlank d := fun d hd =>
      hg.isBlank d (he ▸ List.mem_append_left e hd)
    have hcomma : ',' ∉ Text.dropReturn g := fun hc => absurd (hblank ',' hc) (by decide)
    have hsplit : k ++ n ++ ',' :: (g ++ '\n' :: g') = k ++ (n ++ ',' :: g) ++ '\n' :: g' := by
      simp only [List.append_assoc, List.cons_append]
    rw [previousLineComma?_line hk hline hg'.notMem hsplit,
      Text.dropReturn_append_comma, Text.trimEnd_append hblank rfl, List.getLast?_concat,
      if_pos ⟨List.all_eq_true.mpr hg'.isBlank, rfl⟩, Text.beforeLast_append hcomma,
      Option.map_some, Text.size_append]

end Searches

end QuickFix

end Keybindings
