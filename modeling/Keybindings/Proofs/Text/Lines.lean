import Keybindings.Proofs.Text.Offsets
import Keybindings.Text.LineIndex
import Mathlib.Data.List.Induction

/-!
What the line index says about a text that is cut at some place.

One pass over a text gives the same index as first splitting it into lines (`LineIndex.ofText_eq`).
The number of the line at an offset is therefore the number of newlines before it
(`LineIndex.lineOf_append`).  For a text `l ++ m ++ r`, of which `m` is one line, the index gives the
ends and the content of `m`.
-/

namespace Keybindings

namespace Text

/-- The text ends where a line starts. -/
def EndsLine (l : Text) : Prop :=
  l = [] ∨ ∃ l', l = l' ++ ['\n']

/-- The text starts where a line ends. -/
def StartsBreak (r : Text) : Prop :=
  r = [] ∨ ∃ r', r = '\n' :: r'

theorem exists_lineStart (a : Text) : ∃ l m, a = l ++ m ∧ EndsLine l ∧ '\n' ∉ m := by
  induction a using List.reverseRecOn with
  | nil => exact ⟨[], [], rfl, .inl rfl, by simp⟩
  | append_singleton a c ih =>
      by_cases hc : c = '\n'
      · subst hc
        exact ⟨a ++ ['\n'], [], by simp, .inr ⟨a, rfl⟩, by simp⟩
      · obtain ⟨l, m, rfl, hl, hm⟩ := ih
        refine ⟨l, m ++ [c], by simp, hl, ?_⟩
        simp [hm, Ne.symm hc]

theorem exists_lineEnd (b : Text) : ∃ m r, b = m ++ r ∧ '\n' ∉ m ∧ StartsBreak r := by
  induction b with
  | nil => exact ⟨[], [], rfl, by simp, .inl rfl⟩
  | cons c b ih =>
      by_cases hc : c = '\n'
      · subst hc
        exact ⟨[], '\n' :: b, rfl, by simp, .inr ⟨b, rfl⟩⟩
      · obtain ⟨m, r, rfl, hm, hr⟩ := ih
        refine ⟨c :: m, r, rfl, ?_, hr⟩
        simp [hm, Ne.symm hc]

/-- The pieces of a text between its newlines. -/
def lines (t : Text) : List Text :=
  t.splitOn '\n'

theorem lines_ne_nil (t : Text) : lines t ≠ [] :=
  List.splitOn_ne_nil '\n' t

theorem lines_cons_newline (t : Text) : lines ('\n' :: t) = [] :: lines t := by
  rw [lines, List.splitOn_cons_eq_if_modifyHead, if_pos (beq_self_eq_true '\n'), lines]

theorem lines_cons_of_ne {c : Char} (hc : c ≠ '\n') {t p : Text} {ps : List Text}
    (h : lines t = p :: ps) : lines (c :: t) = (c :: p) :: ps := by
  rw [lines] at h ⊢
  rw [List.splitOn_cons_eq_if_modifyHead, if_neg (by simpa using hc), h, List.modifyHead_cons]

theorem lines_append_newline (a b : Text) : lines (a ++ '\n' :: b) = lines a ++ lines b :=
  List.splitOn_append_cons_self a b

theorem length_lines (t : Text) : (lines t).length = t.count '\n' + 1 := by
  induction t with
  | nil => rfl
  | cons c t ih =>
      by_cases hc : c = '\n'
      · subst hc
        rw [lines_cons_newline, List.length_cons, ih, List.count_cons_self]
      · obtain ⟨p, ps, hp⟩ := List.exists_cons_of_ne_nil (lines_ne_nil t)
        have hlength := congrArg List.length hp
        rw [lines_cons_of_ne hc hp, List.count_cons_of_ne hc]
        exact hlength.symm.trans ih

/-- A text without a newline, up to a newline or the end, is a line. -/
theorem exists_lines_append {m r : Text} (hm : '\n' ∉ m) (hr : StartsBreak r) :
    ∃ ls, lines (m ++ r) = m :: ls := by
  rcases hr with rfl | ⟨r, rfl⟩
  · exact ⟨[], by rw [lines, List.append_nil, List.splitOn_eq_singleton hm]⟩
  · exact ⟨lines r, List.splitOn_append_cons_self_of_not_mem hm r⟩

theorem EndsLine.append {l : Text} (hl : EndsLine l) (m : Text) : EndsLine (m ++ '\n' :: l) := by
  rcases hl with rfl | ⟨l, rfl⟩
  · exact .inr ⟨m, rfl⟩
  · exact .inr ⟨m ++ '\n' :: l, by rw [List.append_assoc, List.cons_append]⟩

/-- As many newlines as a text has, so many times it can be cut at the start of a line. -/
theorem exists_line {t : Text} {n : Nat} (h : n ≤ t.count '\n') :
    ∃ l m r, t = l ++ m ++ r ∧ EndsLine l ∧ '\n' ∉ m ∧ StartsBreak r ∧ l.count '\n' = n ∧
      (lines t)[n]? = some m := by
  induction n generalizing t with
  | zero =>
      obtain ⟨m, r, rfl, hm, hr⟩ := exists_lineEnd t
      obtain ⟨ls, hls⟩ := exists_lines_append hm hr
      exact ⟨[], m, r, rfl, .inl rfl, hm, hr, rfl, by rw [hls, List.getElem?_cons_zero]⟩
  | succ n ih =>
      obtain ⟨m, r, rfl, hm, hr⟩ := exists_lineEnd t
      have hcount : m.count '\n' = 0 := List.count_eq_zero.mpr hm
      rcases hr with rfl | ⟨r, rfl⟩
      · rw [List.append_nil, hcount] at h
        omega
      · rw [List.count_append, hcount, List.count_cons_self] at h
        obtain ⟨l, m', r', rfl, hl, hm', hr', hn, hline⟩ := ih (t := r) (by omega)
        refine ⟨m ++ '\n' :: l, m', r', ?_, hl.append m, hm', hr', ?_, ?_⟩
        · simp only [List.append_assoc, List.cons_append]
        · rw [List.count_append, hcount, List.count_cons_self, hn, Nat.zero_add]
        · rw [lines_append_newline, lines, List.splitOn_eq_singleton hm, List.singleton_append,
            List.getElem?_cons_succ, hline]

theorem dropReturn_append (l : Text) : ∃ e, l = dropReturn l ++ e ∧ (e = [] ∨ e = ['\r']) := by
  rw [dropReturn]
  split
  · next h =>
    obtain ⟨l', rfl⟩ := List.getLast?_eq_some_iff.mp h
    exact ⟨['\r'], by rw [List.dropLast_concat], .inr rfl⟩
  · exact ⟨[], (List.append_nil l).symm, .inl rfl⟩

end Text

namespace LineIndex

open Text (EndsLine StartsBreak)

/-! ### One pass -/

/-- The wide characters of a piece of a line that begins `column` bytes after the line start. -/
def wideChars (column : Nat) : Text → List WideChar
  | [] => []
  | c :: t =>
    let rest := wideChars (column + c.utf8Size) t
    if c.utf8Size = 1 then rest else ⟨column, c.utf8Size, utf16Units c⟩ :: rest

/-- The lines with the given contents, the first of which starts at `start`. -/
def linesFrom (start : Nat) : List Text → List Line
  | [] => []
  | l :: ls => ⟨start, wideChars 0 l⟩ :: linesFrom (start + Text.size l + 1) ls

theorem scan_eq {start offset : Nat} (hle : start ≤ offset) {t p : Text} {ps : List Text}
    (h : Text.lines t = p :: ps) : scan start offset t =
      ⟨start, wideChars (offset - start) p⟩ :: linesFrom (offset + Text.size p + 1) ps := by
  induction t generalizing start offset p ps with
  | nil =>
      cases h
      rfl
  | cons c t ih =>
      obtain ⟨q, qs, hq⟩ := List.exists_cons_of_ne_nil (Text.lines_ne_nil t)
      by_cases hc : c = '\n'
      · subst hc
        have hnext := ih (Nat.le_refl (offset + 1)) hq
        rw [Text.lines_cons_newline, hq] at h
        cases h
        rw [scan, if_pos rfl, hnext, Nat.sub_self]
        rfl
      · have hnext := ih (Nat.le_add_right_of_le (k := c.utf8Size) hle) hq
        have hcolumn : offset + c.utf8Size - start = offset - start + c.utf8Size := by omega
        rw [Text.lines_cons_of_ne hc hq] at h
        cases h
        rw [scan, if_neg hc, wideChars, Text.size_cons, ← Nat.add_assoc]
        split
        · next hone =>
          rw [hone] at hnext hcolumn ⊢
          rw [hnext, hcolumn]
        · rw [hnext, List.modifyHead_cons, hcolumn]

theorem ofText_eq (t : Text) : ofText t = ⟨linesFrom 0 (Text.lines t), Text.size t⟩ := by
  obtain ⟨p, ps, hp⟩ := List.exists_cons_of_ne_nil (Text.lines_ne_nil t)
  rw [ofText, scan_eq (Nat.le_refl 0) hp, hp, linesFrom]

/-! ### Where lines start -/

theorem length_linesFrom (start : Nat) (ps : List Text) :
    (linesFrom start ps).length = ps.length := by
  induction ps generalizing start with
  | nil => rfl
  | cons p ps ih => rw [linesFrom, List.length_cons, List.length_cons, ih]

theorem linesFrom_append_newline (start : Nat) (a b : Text) :
    linesFrom start (Text.lines (a ++ '\n' :: b)) =
      linesFrom start (Text.lines a) ++ linesFrom (start + Text.size a + 1) (Text.lines b) := by
  rw [Text.lines_append_newline]
  induction a generalizing start with
  | nil => rfl
  | cons c a ih =>
      by_cases hc : c = '\n'
      · subst hc
        have hsize : start + Text.size ('\n' :: a) + 1 =
            start + Text.size [] + 1 + Text.size a + 1 := by
          have hnewline : Char.utf8Size '\n' = 1 := rfl
          rw [Text.size_cons, Text.size_nil, hnewline]
          omega
        rw [Text.lines_cons_newline, List.cons_append, linesFrom, ih, linesFrom, List.cons_append,
          hsize]
      · obtain ⟨p, ps, hp⟩ := List.exists_cons_of_ne_nil (Text.lines_ne_nil a)
        have h := ih (start + c.utf8Size)
        rw [hp, List.cons_append, linesFrom, linesFrom, List.cons_append,
          List.cons_eq_cons] at h
        rw [Text.lines_cons_of_ne hc hp, List.cons_append, linesFrom, linesFrom, List.cons_append]
        simp only [Text.size_cons, Nat.add_assoc] at h ⊢
        rw [h.2]

theorem length_takeWhile_linesFrom (start : Nat) (a b : Text) :
    ((linesFrom start (Text.lines (a ++ b))).takeWhile (·.start ≤ start + Text.size a)).length =
      a.count '\n' + 1 := by
  induction a generalizing start with
  | nil =>
      obtain ⟨p, ps, hp⟩ := List.exists_cons_of_ne_nil (Text.lines_ne_nil b)
      rw [List.nil_append, hp, linesFrom, List.takeWhile_cons_of_pos (by simp)]
      cases ps with
      | nil => rfl
      | cons q qs =>
          rw [linesFrom, List.takeWhile_cons_of_neg]
          · rfl
          · -- the next line starts behind a newline, and so after the offset
            have hlt : ¬ start + Text.size p + 1 ≤ start := by omega
            exact fun h => hlt (of_decide_eq_true h)
  | cons c a ih =>
      by_cases hc : c = '\n'
      · subst hc
        have hnewline : Char.utf8Size '\n' = 1 := rfl
        have h := ih (start + 1)
        rw [List.cons_append, Text.lines_cons_newline, linesFrom,
          List.takeWhile_cons_of_pos (by simp), List.length_cons, List.count_cons_self]
        rw [Text.size_cons, hnewline, Text.size_nil, ← Nat.add_assoc]
        exact congrArg (· + 1) h
      · obtain ⟨p, ps, hp⟩ := List.exists_cons_of_ne_nil (Text.lines_ne_nil (a ++ b))
        have h := ih (start + c.utf8Size)
        rw [hp, linesFrom, List.takeWhile_cons_of_pos (by simp), List.length_cons] at h
        rw [List.cons_append, Text.lines_cons_of_ne hc hp, linesFrom,
          List.takeWhile_cons_of_pos (by simp), List.length_cons, List.count_cons_of_ne hc]
        simp only [Text.size_cons, Nat.add_assoc] at h ⊢
        exact h

/-- Lines are counted by the newlines before an offset. -/
theorem lineOf_append (a b : Text) : (ofText (a ++ b)).lineOf (Text.size a) = a.count '\n' := by
  have hmin : min (Text.size a) (Text.size (a ++ b)) = 0 + Text.size a := by
    rw [Text.size_append]
    omega
  rw [lineOf, ofText_eq, hmin, length_takeWhile_linesFrom, Nat.add_sub_cancel]

theorem getElem?_lines_append {l : Text} (hl : EndsLine l) (r : Text) :
    (ofText (l ++ r)).lines[l.count '\n']? =
      (linesFrom (Text.size l) (Text.lines r))[0]? := by
  rw [ofText_eq]
  rcases hl with rfl | ⟨l, rfl⟩
  · rfl
  · have hcount : (l ++ ['\n']).count '\n' = (linesFrom 0 (Text.lines l)).length := by
      rw [length_linesFrom, Text.length_lines, List.count_append]
      rfl
    have hsize : Text.size (l ++ ['\n']) = 0 + Text.size l + 1 := by
      rw [Text.size_append, Nat.zero_add]
      rfl
    rw [List.append_assoc, List.singleton_append, linesFrom_append_newline, hcount,
      List.getElem?_append_right (Nat.le_refl _), Nat.sub_self, hsize]

theorem lineStart?_append {l : Text} (hl : EndsLine l) (r : Text) :
    (ofText (l ++ r)).lineStart? (l.count '\n') = some (Text.size l) := by
  obtain ⟨p, ps, hp⟩ := List.exists_cons_of_ne_nil (Text.lines_ne_nil r)
  rw [lineStart?, getElem?_lines_append hl, hp]
  rfl

theorem lineStart?_eq_none {t : Text} {n : Nat} (h : t.count '\n' < n) :
    (ofText t).lineStart? n = none := by
  rw [lineStart?, ofText_eq, List.getElem?_eq_none, Option.map_none]
  rw [length_linesFrom, Text.length_lines]
  omega

/-! ### A line of a text -/

section Line

variable {l m r : Text}

theorem getElem?_lines_line (hl : EndsLine l) (hm : '\n' ∉ m) (hr : StartsBreak r) :
    (ofText (l ++ m ++ r)).lines[l.count '\n']? = some ⟨Text.size l, wideChars 0 m⟩ := by
  obtain ⟨ls, hls⟩ := Text.exists_lines_append hm hr
  rw [List.append_assoc, getElem?_lines_append hl, hls]
  rfl

theorem lineStop_eq (hm : '\n' ∉ m) (hr : StartsBreak r) :
    (((ofText (l ++ m ++ r)).lineStart? (l.count '\n' + 1)).map (· - 1)).getD
      (ofText (l ++ m ++ r)).size = Text.size l + Text.size m := by
  have hcount : (l ++ m).count '\n' = l.count '\n' := by
    rw [List.count_append, List.count_eq_zero_of_not_mem hm, Nat.add_zero]
  rcases hr with rfl | ⟨r, rfl⟩
  · rw [lineStart?_eq_none (by rw [List.append_nil, hcount]; omega)]
    simp only [Option.map_none, Option.getD_none, ofText, Text.size_append, Text.size_nil,
      Nat.add_zero]
  · have hnext := lineStart?_append (l := l ++ m ++ ['\n']) (.inr ⟨l ++ m, rfl⟩) r
    have hnewline : Text.size ['\n'] = 1 := rfl
    rw [List.count_append, hcount, List.append_assoc _ ['\n']] at hnext
    change lineStart? _ (l.count '\n' + 1) = _ at hnext
    rw [List.singleton_append] at hnext
    rw [hnext, Text.size_append, Text.size_append, hnewline]
    rfl

theorem lineEnd?_line (hl : EndsLine l) (hm : '\n' ∉ m) (hr : StartsBreak r) :
    (ofText (l ++ m ++ r)).lineEnd? (l ++ m ++ r) (l.count '\n') =
      some (Text.size l + Text.size (Text.dropReturn m)) := by
  have hstart : (ofText (l ++ m ++ r)).lineStart? (l.count '\n') = some (Text.size l) := by
    rw [List.append_assoc]
    exact lineStart?_append hl (m ++ r)
  rw [lineEnd?, hstart]
  simp only [Option.bind_eq_bind, Option.bind_some, Option.pure_def, lineStop_eq hm hr,
    Text.slice?_append]

theorem lineText?_line (hl : EndsLine l) (hm : '\n' ∉ m) (hr : StartsBreak r) :
    (ofText (l ++ m ++ r)).lineText? (l ++ m ++ r) (l.count '\n') = some (Text.dropReturn m) := by
  have hstart : (ofText (l ++ m ++ r)).lineStart? (l.count '\n') = some (Text.size l) := by
    rw [List.append_assoc]
    exact lineStart?_append hl (m ++ r)
  obtain ⟨e, he, -⟩ := Text.dropReturn_append m
  rw [lineText?, hstart, lineEnd?_line hl hm hr]
  simp only [Option.bind_eq_bind, Option.bind_some]
  refine Text.slice?_eq_some_iff.mpr ⟨l, e ++ r, ?_, rfl, rfl⟩
  rw [← List.append_assoc, List.append_assoc l _ e, ← he]

end Line

end LineIndex

end Keybindings
