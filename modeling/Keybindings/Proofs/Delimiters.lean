import Keybindings.Proofs.Search
import Keybindings.Proofs.Text.Positions
import Keybindings.Proofs.Validation

/-!
Spans in texts of any kind, also in those that are no documents.

Brackets need not match, so that the walk may come to the end of an element that it opened long
before.  What carries over is that an element in the making starts with a brace and does not reach
back to the element before it (`Walk.Holds`); a step either keeps that mark, sets it or uses it up
(`Walk.step_marks`).  The search for a command cuts the text at braces.  Whatever is reported is
therefore a slice between two braces, with positions that are counted exactly (`spans_isBraced`).
-/

namespace Keybindings

/-- The covered part of the text starts with an opening brace and ends with a closing one. -/
def Span.IsBraced (s : Span) (t : Text) : Prop :=
  ∃ inner, s.slice? t = some ('{' :: (inner ++ ['}']))

theorem Span.isBraced_after (a inner b : Text) :
    (Span.after a ('{' :: (inner ++ ['}']))).IsBraced (a ++ '{' :: (inner ++ ['}']) ++ b) :=
  ⟨inner, slice?_after a _ b⟩

/-! ### The walk

The depth that a walk keeps says nothing about a text whose brackets do not match, and neither does
the invariant: it speaks of the brace at which the element in the making was opened, and that is
read off the text itself. -/

namespace Walk

variable {w : Walk} {a : Text} {stop : Nat}

/-- What a step at offset `i` does about the element in the making, and what it notes. -/
inductive Marks (w : Walk) (i : Nat) : Char → Walk × Option Span → Prop
  | keeps {c : Char} {w' : Walk} (h : w'.opened = w.opened) : Marks w i c (w', none)
  | opens {w' : Walk} (h : w'.opened = some i) : Marks w i '{' (w', none)
  | ends {w' : Walk} (h : w'.opened = none) :
      Marks w i '}' (w', w.opened.map fun start => ⟨start, i + 1⟩)

theorem step_marks (w : Walk) (i : Nat) (c : Char) : w.Marks i c (w.step i c) := by
  obtain ⟨depth, quoting, opened⟩ := w
  cases quoting with
  | escaped => exact .keeps rfl
  | inside =>
      simp only [step]
      split_ifs <;> exact .keeps rfl
  | outside =>
      simp only [step]
      split_ifs with hquote hopen hone _ _ hclose hlast
      · exact .keeps rfl
      · exact hopen ▸ .opens rfl
      · exact .keeps rfl
      · exact .keeps rfl
      · exact .keeps rfl
      · exact hclose ▸ .ends rfl
      · exact .keeps rfl
      · exact .keeps rfl

/-- After the text `a`, of which the last element noted ended at `stop`, an element in the making
was opened by a brace, and not before `stop`. -/
structure Holds (w : Walk) (stop : Nat) (a : Text) : Prop where
  stop_le : stop ≤ Text.size a
  opened : ∀ start, w.opened = some start →
    ∃ b inner, a = b ++ '{' :: inner ∧ start = Text.size b ∧ stop ≤ start

theorem Holds.keeps {w' : Walk} (h : w.Holds stop a) (hw : w'.opened = w.opened) (c : Char) :
    w'.Holds stop (a ++ [c]) where
  stop_le := by
    rw [Text.size_append]
    exact Nat.le_add_right_of_le h.stop_le
  opened start hstart := by
    obtain ⟨b, inner, rfl, hb, hle⟩ := h.opened start (hw ▸ hstart)
    exact ⟨b, inner ++ [c], by simp, hb, hle⟩

theorem Holds.opens {w' : Walk} (h : w.Holds stop a) (hw : w'.opened = some (Text.size a)) :
    w'.Holds stop (a ++ ['{']) where
  stop_le := by
    rw [Text.size_append]
    exact Nat.le_add_right_of_le h.stop_le
  opened start hstart := by
    obtain rfl : Text.size a = start := Option.some.inj (hw.symm.trans hstart)
    exact ⟨a, [], rfl, rfl, h.stop_le⟩

/-- An element that ends here is a slice between braces. -/
theorem Holds.ends {start : Nat} (h : w.Holds stop a) (hw : w.opened = some start) (t : Text) :
    stop ≤ start ∧ start ≤ Text.size a + 1 ∧
      (⟨start, Text.size a + 1⟩ : Span).IsBraced (a ++ ['}'] ++ t) := by
  obtain ⟨b, inner, rfl, rfl, hle⟩ := h.opened start hw
  have hclose : '}'.utf8Size = 1 := rfl
  have hspan : (⟨Text.size b, Text.size (b ++ '{' :: inner) + 1⟩ : Span) =
      .after b ('{' :: (inner ++ ['}'])) := by
    simp [Span.after, hclose, Nat.add_assoc]
  have hbraced := Span.isBraced_after b inner t
  refine ⟨hle, ?_, ?_⟩
  · rw [Text.size_append]
    omega
  · rw [hspan]
    simpa using hbraced

theorem holds_of_opened_eq_none (hw : w.opened = none) (h : stop ≤ Text.size a) :
    w.Holds stop a where
  stop_le := h
  opened start hstart := by
    rw [hw] at hstart
    cases hstart

/-- The spans that a walk notes are slices between braces, in order and without overlaps. -/
theorem Holds.spans (h : w.Holds stop a) (t : Text) :
    (∀ s ∈ w.spans (Text.size a) t, stop ≤ s.start ∧ s.IsBraced (a ++ t)) ∧
      (w.spans (Text.size a) t).Pairwise fun s s' => s.stop ≤ s'.start := by
  induction t generalizing w stop a with
  | nil => exact ⟨fun _ hs => (List.not_mem_nil hs).elim, .nil⟩
  | cons c t ih =>
      have hsize : Text.size a + c.utf8Size = Text.size (a ++ [c]) := by simp
      have htext : a ++ c :: t = a ++ [c] ++ t := by simp
      have hstep := step_marks w (Text.size a) c
      simp only [Walk.spans]
      rw [hsize, htext]
      generalize w.step (Text.size a) c = found at hstep ⊢
      cases hstep with
      | keeps hw => exact ih (h.keeps hw c)
      | opens hw => exact ih (h.opens hw)
      | @ends w' hw =>
          cases hopened : w.opened with
          | none => exact ih (h.keeps (hw.trans hopened.symm) '}')
          | some start =>
              obtain ⟨hle, hend, hbraced⟩ := h.ends hopened t
              have hlater : w'.Holds (Text.size a + 1) (a ++ ['}']) :=
                holds_of_opened_eq_none hw (Nat.le_of_eq hsize)
              -- what is noted later starts behind the element that ends here
              obtain ⟨hrest, hpairwise⟩ := ih hlater
              constructor
              · intro s hs
                rcases List.mem_cons.mp hs with rfl | hs
                · exact ⟨hle, hbraced⟩
                · obtain ⟨hstart, hs⟩ := hrest s hs
                  exact ⟨hle.trans (hend.trans hstart), hs⟩
              · exact .cons (fun s hs => (hrest s hs).1) hpairwise

end Walk

theorem elementSpans_isBraced (t : Text) : (∀ s ∈ elementSpans t, s.IsBraced t) ∧
    (elementSpans t).Pairwise fun s s' => s.stop ≤ s'.start := by
  have hstart : ({} : Walk).Holds 0 [] := Walk.holds_of_opened_eq_none rfl (Nat.le_refl 0)
  obtain ⟨hbraced, hpairwise⟩ := hstart.spans t
  exact ⟨fun s hs => (hbraced s hs).2, hpairwise⟩

/-! ### The search -/

namespace Text

variable {a t : Text} {c : Char}

theorem beforeFirst_eq_some (h : beforeFirst c t = some a) : ∃ b, t = a ++ c :: b ∧ c ∉ a := by
  have hmem : c ∈ t := by
    by_contra hmem
    simp [beforeFirst, hmem] at h
  obtain ⟨a', b, rfl, ha⟩ := List.eq_append_cons_of_mem hmem
  rw [beforeFirst_append ha] at h
  cases h
  exact ⟨b, rfl, ha⟩

theorem beforeLast_eq_some (h : beforeLast c t = some a) : ∃ b, t = a ++ c :: b ∧ c ∉ b := by
  have hmem : c ∈ t.reverse := by
    by_contra hmem
    have hdrop : t.reverse.dropWhile (· != c) = [] := by
      refine List.dropWhile_eq_nil_iff.mpr fun d hd => bne_iff_ne.mpr ?_
      rintro rfl
      exact hmem hd
    rw [beforeLast, hdrop] at h
    cases h
  obtain ⟨b, a', hreverse, hb⟩ := List.eq_append_cons_of_mem hmem
  obtain rfl : t = a'.reverse ++ c :: b.reverse := by simpa using congrArg List.reverse hreverse
  have hb : c ∉ b.reverse := fun hc => hb (List.mem_reverse.mp hc)
  rw [beforeLast_append hb] at h
  cases h
  exact ⟨b.reverse, rfl, hb⟩

end Text

theorem locate?_isBraced {t : Text} {e : Entry} {s : Span} (h : locate? t e = some s) :
    s.IsBraced t := by
  have hfound := h
  rw [locate?] at h
  simp only [Option.bind_eq_bind, Option.bind_eq_some_iff] at h
  obtain ⟨command, href, ⟨before, after⟩, hcut, a, houter, w, hinner, -⟩ := h
  obtain ⟨u, rfl, hu⟩ := Text.beforeLast_eq_some houter
  obtain ⟨b, rfl, hw⟩ := Text.beforeFirst_eq_some hinner
  rw [locate?_of_cutFirst href hcut hu hw, Option.some.injEq] at hfound
  obtain ⟨rfl, -⟩ := Text.cutFirst_eq_some hcut
  have hbraced := Span.isBraced_after a (u ++ commandNeedle command ++ w) b
  rw [← hfound]
  simpa using hbraced

theorem locateEntries_isBraced (t : Text) (es : List Entry) :
    (locateEntries t es).length = es.length ∧
      ∀ s, some s ∈ locateEntries t es → s.IsBraced t := by
  rw [locateEntries]
  split
  · next hlength =>
    refine ⟨by rw [List.length_map, hlength], fun s hs => ?_⟩
    obtain ⟨s', hs', heq⟩ := List.mem_map.mp hs
    exact (elementSpans_isBraced t).1 s (Option.some.inj heq ▸ hs')
  · refine ⟨List.length_map _, fun s hs => ?_⟩
    obtain ⟨e, -, he⟩ := List.mem_map.mp hs
    exact locate?_isBraced he

/-! ### Diagnostics -/

/-- Both ends of a span have their columns counted without going below zero. -/
def LineIndex.IsExactOn (ix : LineIndex) (s : Span) : Prop :=
  ix.IsExact s.start ∧ ix.IsExact s.stop

theorem LineIndex.isExactOn_of_slice? {t x : Text} {s : Span} (h : s.slice? t = some x) :
    (ofText t).IsExactOn s := by
  obtain ⟨a, b, rfl, hstart, hstop⟩ := Text.slice?_eq_some_iff.mp h
  refine ⟨?_, ?_⟩
  · rw [hstart, List.append_assoc]
    exact isExact_append a (x ++ b)
  · rw [hstop, ← Text.size_append]
    exact isExact_append (a ++ x) b

theorem Validation.some_span_mem_of_mem_entries {label : String} {t : Text} {es : List Entry}
    {r : Registry} {d : Diagnostic} (h : d ∈ entries label t es r) :
    some d.span ∈ locateEntries t es := by
  obtain ⟨⟨e, found⟩, hmem, hd⟩ := List.mem_filterMap.mp h
  obtain ⟨s, rfl, hproblem⟩ := Option.bind_eq_some_iff.mp hd
  rw [problem?_eq] at hproblem
  split at hproblem
  · cases hproblem
  · cases hproblem
    rw [span_flag]
    exact (List.of_mem_zip hmem).2

/-- In any text, the elements that are noted and the entries that are found are slices between two
braces, and the elements do not overlap.  There is an answer for each entry, and the columns of all
that is reported are counted without going below zero. -/
theorem spans_isBraced (t : Text) :
    (∀ s ∈ elementSpans t, s.IsBraced t) ∧
    ((elementSpans t).Pairwise fun s s' => s.stop ≤ s'.start) ∧
    (∀ es, (locateEntries t es).length = es.length ∧
      ∀ s, some s ∈ locateEntries t es → s.IsBraced t) ∧
    (∀ label es r, ∀ d ∈ Validation.entries label t es r,
      d.span.IsBraced t ∧ (LineIndex.ofText t).IsExactOn d.span) ∧
    ∀ label r, ∀ d ∈ Validation.document label t r, (LineIndex.ofText t).IsExactOn d.span := by
  obtain ⟨hbraced, hpairwise⟩ := elementSpans_isBraced t
  have hentries : ∀ label es r, ∀ d ∈ Validation.entries label t es r,
      d.span.IsBraced t ∧ (LineIndex.ofText t).IsExactOn d.span := by
    intro label es r d hd
    have hspan := (locateEntries_isBraced t es).2 d.span
      (Validation.some_span_mem_of_mem_entries hd)
    obtain ⟨inner, hslice⟩ := hspan
    exact ⟨⟨inner, hslice⟩, LineIndex.isExactOn_of_slice? hslice⟩
  refine ⟨hbraced, hpairwise, locateEntries_isBraced t, hentries, fun label r d hd => ?_⟩
  rw [Validation.document] at hd
  split at hd
  · exact (hentries label _ r d hd).2
  · -- the diagnostic of a text that is no document spans all of it
    obtain rfl := List.mem_singleton.mp hd
    have hwhole : (Span.whole t).slice? t = some t :=
      Text.slice?_eq_some_iff.mpr ⟨[], [], by simp, rfl, by simp [Span.whole]⟩
    exact LineIndex.isExactOn_of_slice? hwhole

/-- The first object is closed by a square bracket and goes on in the next array, and the last
string is left open. -/
def unbalanced : Text :=
  "[\x7b][\x7b\x7d\x7d\n é, \x7b \"command\": \"a\", \"when\": \"\x7d".toList

theorem spans_isBraced_unbalanced :
    elementSpans unbalanced = [⟨1, 7⟩] ∧ (⟨1, 7⟩ : Span).IsBraced unbalanced ∧
    locateEntries unbalanced [{ command := some "a" }, {}] = [some ⟨13, 41⟩, none] ∧
    (⟨13, 41⟩ : Span).IsBraced unbalanced ∧
    (∃ d, Validation.entries defaultLabel unbalanced [{ command := some "a" }, {}] {} = [d] ∧
      d.span = ⟨13, 41⟩) ∧
    (LineIndex.ofText unbalanced).IsExactOn ⟨13, 41⟩ := by
  have hspans : elementSpans unbalanced = [⟨1, 7⟩] := by decide +kernel
  have hlocated : locateEntries unbalanced [{ command := some "a" }, {}] =
      [some ⟨13, 41⟩, none] := by decide +kernel
  have hreported : Validation.entries defaultLabel unbalanced [{ command := some "a" }, {}] {} =
      [Validation.unknownCommand defaultLabel ⟨13, 41⟩ "a"] := by
    rw [Validation.entries, hlocated]
    rfl
  obtain ⟨helements, -, hentries, hdiagnostics, -⟩ := spans_isBraced unbalanced
  refine ⟨hspans, helements _ (hspans ▸ List.mem_singleton_self _), hlocated,
    (hentries _).2 _ (hlocated ▸ List.mem_cons_self), ⟨_, hreported, rfl⟩, ?_⟩
  exact (hdiagnostics _ _ _ _ (hreported ▸ List.mem_singleton_self _)).2

end Keybindings
