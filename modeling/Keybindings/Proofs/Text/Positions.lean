import Keybindings.Proofs.Text.Lines
import Mathlib.Data.List.DropRight

/-!
The positions of the line index, counted in the text itself.

The position of an offset is the number of newlines before it and the number of UTF-16 code units
behind the last of them (`LineIndex.position_append`).  The column is found by taking from a number
of bytes what each wide character has too many; no step of that falls below zero
(`LineIndex.isExact_append`).  A line is found by its start (`LineIndex.lineOf_eq_iff`), and its text
is a piece of the text between newlines (`LineIndex.lineText?_eq`).
-/

namespace Keybindings

/-! ### Code units -/

theorem utf16Units_pos (c : Char) : 0 < utf16Units c := by
  rw [utf16Units]
  split <;> decide

theorem utf16Units_le (c : Char) : utf16Units c ≤ c.utf8Size := by
  rw [utf16Units]
  split
  · exact c.utf8Size_pos
  · next h =>
    have hlt : 65535 < c.val := UInt32.lt_iff_toNat_lt.mpr (Nat.not_lt.mp h)
    rw [Char.utf8Size_eq_four_iff.mpr hlt]
    decide

theorem utf16Units_of_utf8Size {c : Char} (h : c.utf8Size = 1) : utf16Units c = 1 := by
  have hle : c.toNat ≤ 127 := UInt32.le_iff_toNat_le.mp (Char.utf8Size_eq_one_iff.mp h)
  rw [utf16Units, if_pos (by omega)]

namespace Text

/-- Number of code units of the UTF-16 form. -/
def utf16Length : Text → Nat
  | [] => 0
  | c :: t => utf16Units c + utf16Length t

/-- What stands behind the last newline. -/
def lastLine (t : Text) : Text :=
  t.rtakeWhile (· ≠ '\n')

@[simp] theorem utf16Length_nil : utf16Length [] = 0 := rfl

@[simp] theorem utf16Length_cons (c : Char) (t : Text) :
    utf16Length (c :: t) = utf16Units c + utf16Length t := rfl

@[simp] theorem utf16Length_append (a b : Text) :
    utf16Length (a ++ b) = utf16Length a + utf16Length b := by
  induction a with
  | nil => simp
  | cons c a ih => simp only [List.cons_append, utf16Length_cons, ih, Nat.add_assoc]

theorem utf16Length_le (t : Text) : utf16Length t ≤ size t := by
  induction t with
  | nil => exact Nat.le_refl 0
  | cons c t ih =>
      rw [utf16Length_cons, size_cons]
      exact Nat.add_le_add (utf16Units_le c) ih

theorem utf16Length_pos {t : Text} (h : t ≠ []) : 0 < utf16Length t := by
  obtain ⟨c, t, rfl⟩ := List.exists_cons_of_ne_nil h
  rw [utf16Length_cons]
  exact Nat.add_pos_left (utf16Units_pos c) _

theorem length_le_size (t : Text) : t.length ≤ size t := by
  induction t with
  | nil => exact Nat.le_refl 0
  | cons c t ih =>
      have hc := c.utf8Size_pos
      rw [List.length_cons, size_cons]
      omega

theorem lastLine_append (a : Text) {m : Text} (hm : '\n' ∉ m) :
    lastLine (a ++ m) = lastLine a ++ m := by
  have hne : ∀ c ∈ m.reverse, decide (c ≠ '\n') = true := by
    intro c hc
    refine decide_eq_true ?_
    rintro rfl
    exact hm (List.mem_reverse.mp hc)
  rw [lastLine, List.rtakeWhile, List.reverse_append, List.takeWhile_append_of_pos hne,
    List.reverse_append, List.reverse_reverse]
  rfl

theorem lastLine_of_endsLine {l : Text} (hl : EndsLine l) : lastLine l = [] := by
  rcases hl with rfl | ⟨l, rfl⟩
  · rfl
  · exact List.rtakeWhile_concat_neg _ l '\n' (by simp)

end Text

namespace LineIndex

/-! ### Columns -/

/-- What the wide characters take away from a number of bytes, one after the other, is there. -/
def Deducts (column : Nat) : List WideChar → Prop
  | [] => True
  | w :: ws => w.units ≤ w.bytes ∧ w.bytes - w.units ≤ column ∧
      Deducts (column - (w.bytes - w.units)) ws

theorem column_le_of_mem_wideChars {column : Nat} {m : Text} {w : WideChar}
    (h : w ∈ wideChars column m) : column ≤ w.column := by
  induction m generalizing column with
  | nil => cases h
  | cons c m ih =>
      have hrest : w ∈ wideChars (column + c.utf8Size) m → column ≤ w.column := fun h =>
        Nat.le_of_add_right_le (ih h)
      rw [wideChars] at h
      split at h
      · exact hrest h
      · rcases List.mem_cons.mp h with rfl | h
        · exact Nat.le_refl column
        · exact hrest h

/-- The wide characters before a place of a line are those of the piece before it. -/
theorem takeWhile_wideChars (column : Nat) (m m' : Text) :
    (wideChars column (m ++ m')).takeWhile (·.column < column + Text.size m) =
      wideChars column m := by
  induction m generalizing column with
  | nil =>
      rw [List.nil_append, Text.size_nil, Nat.add_zero, wideChars, List.takeWhile_eq_nil_iff]
      intro hl hlt
      exact absurd (column_le_of_mem_wideChars (List.getElem_mem hl))
        (Nat.not_le.mpr (of_decide_eq_true hlt))
  | cons c m ih =>
      have hrest := ih (column + c.utf8Size)
      have hc := c.utf8Size_pos
      rw [Nat.add_assoc] at hrest
      rw [List.cons_append, wideChars, wideChars, Text.size_cons]
      split
      · exact hrest
      · have hlt : column < column + (c.utf8Size + Text.size m) := by omega
        rw [List.takeWhile_cons, if_pos (decide_eq_true hlt), hrest]

/-- Taking from the bytes of a piece what its wide characters have too many leaves its code units. -/
theorem deduct_wideChars (before column : Nat) (m : Text) :
    Deducts (before + Text.size m) (wideChars column m) ∧
      (wideChars column m).foldl (fun col w => col - (w.bytes - w.units)) (before + Text.size m) =
        before + Text.utf16Length m := by
  induction m generalizing before column with
  | nil => exact ⟨trivial, rfl⟩
  | cons c m ih =>
      have hrest := ih (before + utf16Units c) (column + c.utf8Size)
      have hle := utf16Units_le c
      rw [wideChars, Text.size_cons, Text.utf16Length_cons, ← Nat.add_assoc before,
        ← Nat.add_assoc before]
      split
      · next hone =>
        rwa [utf16Units_of_utf8Size hone, ← hone] at hrest ⊢
      · have hsub : before + c.utf8Size + Text.size m - (c.utf8Size - utf16Units c) =
            before + utf16Units c + Text.size m := by omega
        have hcolumn : c.utf8Size - utf16Units c ≤ before + c.utf8Size + Text.size m := by omega
        rw [Deducts, List.foldl_cons, hsub]
        exact ⟨⟨hle, hcolumn, hrest.1⟩, hrest.2⟩

/-! ### Positions -/

/-- The line of an offset is there, and its column is found without going below zero. -/
def IsExact (ix : LineIndex) (offset : Nat) : Prop :=
  ∃ l, ix.lines[ix.lineOf offset]? = some l ∧ l.start ≤ min offset ix.size ∧
    Deducts (min offset ix.size - l.start)
      (l.wide.takeWhile (·.column < min offset ix.size - l.start))

/-- The line that is entered by a text and goes on in the text behind it. -/
theorem exists_line_append (a b : Text) : ∃ l m m', a = l ++ m ∧ Text.lastLine a = m ∧
    (ofText (a ++ b)).lines[(ofText (a ++ b)).lineOf (Text.size a)]? =
      some ⟨Text.size l, wideChars 0 (m ++ m')⟩ := by
  obtain ⟨l, m, rfl, hl, hm⟩ := Text.exists_lineStart a
  obtain ⟨m', r, rfl, hm', hr⟩ := Text.exists_lineEnd b
  refine ⟨l, m, m', rfl, ?_, ?_⟩
  · rw [Text.lastLine_append l hm, Text.lastLine_of_endsLine hl, List.nil_append]
  · have hline := getElem?_lines_line (m := m ++ m') hl (by simp [hm, hm']) hr
    have hcount : (l ++ m).count '\n' = l.count '\n' := by
      rw [List.count_append, List.count_eq_zero.mpr hm, Nat.add_zero]
    rw [lineOf_append, hcount, ← hline]
    simp only [List.append_assoc]

theorem min_size_append (a b : Text) :
    min (Text.size a) (ofText (a ++ b)).size = Text.size a := by
  rw [ofText, Text.size_append]
  exact Nat.min_eq_left (Nat.le_add_right _ _)

theorem isExact_append (a b : Text) : (ofText (a ++ b)).IsExact (Text.size a) := by
  obtain ⟨l, m, m', rfl, -, hline⟩ := exists_line_append a b
  have htake := takeWhile_wideChars 0 m m'
  have hdeduct := (deduct_wideChars 0 0 m).1
  simp only [Nat.zero_add] at htake hdeduct
  refine ⟨_, hline, ?_⟩
  rw [min_size_append, Text.size_append, Nat.add_sub_cancel_left, htake]
  exact ⟨Nat.le_add_right _ _, hdeduct⟩

/-- A position counts newlines, and code units behind the last of them. -/
theorem position_append {a b : Text} (h : Text.size (a ++ b) ≤ maxCount) :
    (ofText (a ++ b)).position (Text.size a) =
      ⟨a.count '\n', Text.utf16Length (Text.lastLine a)⟩ := by
  have hcount : a.count '\n' ≤ Text.size a :=
    Nat.le_trans List.count_le_length (Text.length_le_size a)
  obtain ⟨l, m, m', rfl, hlast, hline⟩ := exists_line_append a b
  have htake := takeWhile_wideChars 0 m m'
  have hdeduct := (deduct_wideChars 0 0 m).2
  have hunits := Text.utf16Length_le m
  simp only [Nat.zero_add] at htake hdeduct
  rw [Text.size_append, Text.size_append] at h
  rw [Text.size_append] at hcount
  rw [position, min_size_append]
  simp only [hline, hlast]
  -- neither the line nor the column comes to more than the bytes before the offset
  rw [lineOf_append, utf16Column, Text.size_append, Nat.add_sub_cancel_left, htake, hdeduct,
    Nat.min_eq_left (by omega), Nat.min_eq_left (by omega)]

theorem position_of_size_le (ix : LineIndex) {o : Nat} (h : ix.size ≤ o) :
    ix.position o = ix.position ix.size := by
  rw [position, position, Nat.min_eq_right h, Nat.min_self]

end LineIndex

/-- Positions go by lines, and within a line by columns. -/
instance : LT Position where
  lt p q := p.line < q.line ∨ p.line = q.line ∧ p.character < q.character

theorem Position.lt_iff {p q : Position} :
    p < q ↔ p.line < q.line ∨ p.line = q.line ∧ p.character < q.character :=
  Iff.rfl

namespace LineIndex

/-- What is passed over moves the position on. -/
theorem position_lt_append {a m b : Text} (h : Text.size (a ++ m ++ b) ≤ maxCount) (hne : m ≠ []) :
    (ofText (a ++ m ++ b)).position (Text.size a) <
      (ofText (a ++ m ++ b)).position (Text.size (a ++ m)) := by
  have hstart : (ofText (a ++ m ++ b)).position (Text.size a) =
      ⟨a.count '\n', Text.utf16Length (Text.lastLine a)⟩ := by
    rw [List.append_assoc] at h ⊢
    exact position_append h
  rw [hstart, position_append h, Position.lt_iff, List.count_append]
  by_cases hm : '\n' ∈ m
  · left
    have hpos : 0 < m.count '\n' := List.count_pos_iff.mpr hm
    exact Nat.lt_add_of_pos_right hpos
  · right
    have hpos := Text.utf16Length_pos hne
    rw [Text.lastLine_append a hm, Text.utf16Length_append, List.count_eq_zero.mpr hm]
    exact ⟨rfl, Nat.lt_add_of_pos_right hpos⟩

theorem position_lt {t a b a' b' : Text} {o o' : Nat} (h : Text.size t ≤ maxCount)
    (ho : Text.splitAt? o t = some (a, b)) (ho' : Text.splitAt? o' t = some (a', b'))
    (hlt : o < o') : (ofText t).position o < (ofText t).position o' := by
  obtain ⟨rfl, rfl⟩ := Text.splitAt?_eq_some_iff.mp ho
  obtain ⟨heq, rfl⟩ := Text.splitAt?_eq_some_iff.mp ho'
  rcases List.append_eq_append_iff.mp heq with ⟨m, rfl, rfl⟩ | ⟨m, rfl, rfl⟩
  · rw [← List.append_assoc] at h ⊢
    refine position_lt_append h ?_
    rintro rfl
    simp at hlt
  · rw [Text.size_append] at hlt
    omega

/-! ### Lines -/

/-- A prefix that ends at the first element without a property reaches just as far as the
property, if no element has it behind one that has it not. -/
theorem lt_length_takeWhile_iff {α : Type} {p : α → Bool} {xs : List α}
    (h : xs.Pairwise fun x y => p y → p x) {i : Nat} {x : α} (hx : xs[i]? = some x) :
    i < (xs.takeWhile p).length ↔ p x := by
  induction xs generalizing i with
  | nil => cases hx
  | cons y ys ih =>
      obtain ⟨hy, hys⟩ := List.pairwise_cons.mp h
      cases hp : p y with
      | false =>
          have hnot : ¬ p x := by
            cases i with
            | zero =>
                cases hx
                simp [hp]
            | succ i => exact fun hpx => by simp [hy x (List.mem_of_getElem? hx) hpx] at hp
          rw [List.takeWhile_cons, hp]
          simp [hnot]
      | true =>
          rw [List.takeWhile_cons, hp]
          cases i with
          | zero =>
              cases hx
              simp [hp]
          | succ i =>
              simpa using ih hys hx

theorem start_le_of_mem_linesFrom {start : Nat} {ps : List Text} {l : Line}
    (h : l ∈ linesFrom start ps) : start ≤ l.start := by
  induction ps generalizing start with
  | nil => cases h
  | cons p ps ih =>
      rcases List.mem_cons.mp h with rfl | h
      · exact Nat.le_refl start
      · have hle := ih h
        omega

theorem pairwise_linesFrom (start : Nat) (ps : List Text) :
    (linesFrom start ps).Pairwise (·.start < ·.start) := by
  induction ps generalizing start with
  | nil => exact .nil
  | cons p ps ih =>
      refine .cons (fun l hl => ?_) (ih _)
      have hle := start_le_of_mem_linesFrom hl
      simp only
      omega

theorem length_lines_ofText (t : Text) : (ofText t).lines.length = t.count '\n' + 1 := by
  rw [ofText_eq]
  exact (length_linesFrom 0 _).trans (Text.length_lines t)

theorem start_le_size {t : Text} {n : Nat} {l : Line} (h : (ofText t).lines[n]? = some l) :
    l.start ≤ Text.size t := by
  obtain ⟨hn, -⟩ := List.getElem?_eq_some_iff.mp h
  rw [length_lines_ofText] at hn
  obtain ⟨k, m, r, rfl, hk, hm, hr, rfl, -⟩ := Text.exists_line (Nat.le_of_lt_succ hn)
  rw [getElem?_lines_line hk hm hr] at h
  cases h
  simp only [Text.size_append, Nat.add_assoc, Nat.le_add_right]

theorem lineStart?_eq_some_iff {ix : LineIndex} {n start : Nat} :
    ix.lineStart? n = some start ↔ ∃ l, ix.lines[n]? = some l ∧ l.start = start := by
  rw [lineStart?, Option.map_eq_some_iff]

/-- The lines up to that of an offset are those that start at or before it. -/
theorem le_lineOf_iff {t : Text} {o n start : Nat} (h : (ofText t).lineStart? n = some start) :
    n ≤ (ofText t).lineOf o ↔ start ≤ o := by
  have hpairwise : (ofText t).lines.Pairwise fun l l' =>
      decide (l'.start ≤ min o (ofText t).size) → decide (l.start ≤ min o (ofText t).size) := by
    rw [ofText_eq]
    refine (pairwise_linesFrom 0 _).imp fun {l l'} hlt hle => ?_
    exact decide_eq_true (Nat.le_trans (Nat.le_of_lt hlt) (of_decide_eq_true hle))
  have hreach : ∀ {i : Nat} {l : Line}, (ofText t).lines[i]? = some l →
      (i < ((ofText t).lines.takeWhile (·.start ≤ min o (ofText t).size)).length ↔
        l.start ≤ o) := by
    intro i l hl
    have hsize : l.start ≤ (ofText t).size := start_le_size hl
    rw [lt_length_takeWhile_iff hpairwise hl, decide_eq_true_eq, Nat.le_min]
    exact ⟨fun hle => hle.1, fun hle => ⟨hle, hsize⟩⟩
  -- the first line starts before any offset, so that the subtraction in `lineOf` is exact
  obtain ⟨first, hfirst, hzero⟩ := lineStart?_eq_some_iff.mp (lineStart?_append (.inl rfl) t)
  have hpos := (hreach hfirst).mpr (hzero ▸ Nat.zero_le o)
  obtain ⟨l, hl, rfl⟩ := lineStart?_eq_some_iff.mp h
  rw [← hreach hl, lineOf]
  change 0 < _ at hpos
  omega

theorem exists_lineStart? {t : Text} {n : Nat} (h : n ≤ t.count '\n') :
    ∃ start, (ofText t).lineStart? n = some start := by
  obtain ⟨l, m, r, rfl, hl, -, -, rfl, -⟩ := Text.exists_line h
  rw [List.append_assoc]
  exact ⟨_, lineStart?_append hl (m ++ r)⟩

theorem lineOf_le (t : Text) (o : Nat) : (ofText t).lineOf o ≤ t.count '\n' := by
  have hle := ((ofText t).lines.takeWhile_sublist (·.start ≤ min o (ofText t).size)).length_le
  rw [length_lines_ofText] at hle
  rw [lineOf]
  omega

/-- The line of an offset is the only one that starts at or before it while the next does not. -/
theorem lineOf_eq_iff {t : Text} {o n : Nat} : (ofText t).lineOf o = n ↔
    ∃ start, (ofText t).lineStart? n = some start ∧ start ≤ o ∧
      ∀ next, (ofText t).lineStart? (n + 1) = some next → o < next := by
  constructor
  · rintro rfl
    obtain ⟨start, hstart⟩ := exists_lineStart? (lineOf_le t o)
    refine ⟨start, hstart, (le_lineOf_iff hstart).mp (Nat.le_refl _), fun next hnext => ?_⟩
    exact Nat.lt_of_not_le fun hle => Nat.not_succ_le_self _ ((le_lineOf_iff hnext).mpr hle)
  · rintro ⟨start, hstart, hle, hnext⟩
    have hn : n ≤ (ofText t).lineOf o := (le_lineOf_iff hstart).mpr hle
    refine Nat.le_antisymm (Nat.le_of_not_lt fun hlt => ?_) hn
    obtain ⟨next, h⟩ := exists_lineStart? (Nat.le_trans hlt (lineOf_le t o))
    exact Nat.not_le.mpr (hnext next h) ((le_lineOf_iff h).mp hlt)

/-- The text of a line is a piece between newlines, up to a carriage return. -/
theorem lineText?_eq (t : Text) (n : Nat) :
    (ofText t).lineText? t n = (Text.lines t)[n]?.map Text.dropReturn := by
  by_cases h : n ≤ t.count '\n'
  · obtain ⟨l, m, r, rfl, hl, hm, hr, rfl, hline⟩ := Text.exists_line h
    rw [lineText?_line hl hm hr, hline, Option.map_some]
  · have hlt : t.count '\n' < n := Nat.not_le.mp h
    have hlength : (Text.lines t).length ≤ n := by
      rw [Text.length_lines]
      omega
    rw [lineText?, lineStart?_eq_none hlt, List.getElem?_eq_none hlength]
    rfl

/-- The index says of a text whose counts fit what counting in it says. -/
theorem ofText_counts {t : Text} (h : Text.size t ≤ maxCount) :
    (∀ o a b, Text.splitAt? o t = some (a, b) →
      (ofText t).IsExact o ∧ (ofText t).position o =
        ⟨a.count '\n', Text.utf16Length (a.rtakeWhile (· ≠ '\n'))⟩) ∧
    (∀ o, Text.size t ≤ o → (ofText t).position o = (ofText t).position (Text.size t)) ∧
    (∀ o o', (Text.splitAt? o t).isSome → (Text.splitAt? o' t).isSome → o < o' →
      (ofText t).position o < (ofText t).position o') ∧
    (∀ o n, (ofText t).lineOf o = n ↔
      ∃ start, (ofText t).lineStart? n = some start ∧ start ≤ o ∧
        ∀ next, (ofText t).lineStart? (n + 1) = some next → o < next) ∧
    ∀ n, (ofText t).lineText? t n = (t.splitOn '\n')[n]?.map Text.dropReturn := by
  refine ⟨fun o a b hsplit => ?_, fun o hle => position_of_size_le (ofText t) hle,
    fun o o' ho ho' hlt => ?_, fun o n => lineOf_eq_iff, lineText?_eq t⟩
  · obtain ⟨rfl, rfl⟩ := Text.splitAt?_eq_some_iff.mp hsplit
    exact ⟨isExact_append a b, position_append h⟩
  · obtain ⟨⟨a, b⟩, hsplit⟩ := Option.isSome_iff_exists.mp ho
    obtain ⟨⟨a', b'⟩, hsplit'⟩ := Option.isSome_iff_exists.mp ho'
    exact position_lt h hsplit hsplit' hlt

/-- Wide characters of two, three and four bytes, and a line that ends with a carriage return. -/
def mixedWidths : Text :=
  "[\"é€😀\",\r\n\x7b\x7d]".toList

theorem ofText_counts_mixedWidths : Text.size mixedWidths ≤ maxCount ∧
    (ofText mixedWidths).position 11 = ⟨0, 6⟩ ∧
    (ofText mixedWidths).lineText? mixedWidths 0 = some "[\"é€😀\",".toList ∧
    (ofText mixedWidths).lineText? mixedWidths 2 = none := by
  have hsize : Text.size mixedWidths ≤ maxCount := by decide
  obtain ⟨hposition, -, -, -, hline⟩ := ofText_counts hsize
  refine ⟨hsize, ?_, ?_, ?_⟩
  · exact (hposition 11 "[\"é€😀".toList "\",\r\n\x7b\x7d]".toList rfl).2
  · exact (hline 0).trans rfl
  · exact (hline 2).trans rfl

end LineIndex

end Keybindings
