import Keybindings.Proofs.Document
import Keybindings.Proofs.Text.Offsets

/-!
The walk that notes the elements of an array keeps step with the reader.

Inside an object the walk and the reader agree on how many brackets are open and on whether a
string is (`Walk.Tracks`), so that the walk notes an object exactly where the reader completes it
(`Walk.spans_closes`).  Over a layout this gives the spans of its elements
(`Layout.elementSpans_text`).
-/

namespace Keybindings

open Json (Layout Element IsGapText)

namespace Walk

/-! ### Pieces of a text -/

/-- The state after a text that starts at offset `i`. -/
def run (w : Walk) (i : Nat) : Text → Walk
  | [] => w
  | c :: t => run (w.step i c).1 (i + c.utf8Size) t

theorem spans_append (w : Walk) (i : Nat) (a b : Text) :
    w.spans i (a ++ b) = w.spans i a ++ (w.run i a).spans (i + Text.size a) b := by
  induction a generalizing w i with
  | nil => rfl
  | cons c a ih =>
      simp only [List.cons_append, spans, run, ih, Text.size_cons, List.append_assoc,
        Nat.add_assoc]

theorem run_append (w : Walk) (i : Nat) (a b : Text) :
    w.run i (a ++ b) = (w.run i a).run (i + Text.size a) b := by
  induction a generalizing w i with
  | nil => rfl
  | cons c a ih => simp only [List.cons_append, run, ih, Text.size_cons, Nat.add_assoc]

/-- The walk passes over a text from `w` to `w'` and notes `found`. -/
def Passes (w : Walk) (i : Nat) (t : Text) (found : List Span) (w' : Walk) : Prop :=
  w.spans i t = found ∧ w.run i t = w'

theorem Passes.nil (w : Walk) (i : Nat) : w.Passes i [] [] w := ⟨rfl, rfl⟩

theorem Passes.append {w w₁ w₂ : Walk} {i : Nat} {a b : Text} {found found' : List Span}
    (ha : w.Passes i a found w₁) (hb : w₁.Passes (i + Text.size a) b found' w₂) :
    w.Passes i (a ++ b) (found ++ found') w₂ := by
  constructor
  · rw [spans_append, ha.1, ha.2, hb.1]
  · rw [run_append, ha.2, hb.2]

theorem Passes.cons {w w₁ w₂ : Walk} {i : Nat} {c : Char} {t : Text} {ended : Option Span}
    {found : List Span} (hc : w.step i c = (w₁, ended))
    (ht : w₁.Passes (i + c.utf8Size) t found w₂) :
    w.Passes i (c :: t) (ended.toList ++ found) w₂ := by
  constructor
  · simp only [spans, hc, ht.1]
  · simp only [run, hc, ht.2]

/-! ### Single characters -/

theorem step_of_after? {w : Walk} {q : Quoting} {c : Char} (i : Nat)
    (h : w.quoting.after? c = some q) : w.step i c = ({ w with quoting := q }, none) := by
  obtain ⟨depth, quoting, opened⟩ := w
  cases quoting with
  | escaped =>
      cases h
      rfl
  | inside =>
      simp only [Quoting.after?, Option.some.injEq] at h
      subst h
      simp only [step]
      split_ifs <;> rfl
  | outside =>
      simp only [Quoting.after?] at h
      split_ifs at h with hquote hbracket
      · cases h
        simp [step, hquote]
      · cases h
        simp only [not_or] at hbracket
        simp [step, hquote, hbracket]

theorem passes_gap {w : Walk} (hq : w.quoting = .outside) {g : Text} (hg : IsGapText g) (i : Nat) :
    w.Passes i g [] w := by
  induction g generalizing i with
  | nil => exact .nil w i
  | cons c g ih =>
      have hafter : w.quoting.after? c = some w.quoting := by
        rw [hq]
        exact Json.State.after?_of_isGap (hg c List.mem_cons_self)
      have hstep : w.step i c = (w, none) := step_of_after? i hafter
      exact .cons hstep (ih (fun d hd => hg d (List.mem_cons_of_mem c hd)) _)

/-! ### Inside an object -/

/-- The walk, in an array at the top of a text, is in the object opened at `start`, of which the
reader has got to `s`. -/
structure Tracks (start : Nat) (w : Walk) (s : Json.State) : Prop where
  depth_eq : w.depth = s.frames.length + 1
  quoting_eq : w.quoting = s.mode.quoting
  opened_eq : w.opened = some start

theorem Tracks.next {start : Nat} {w : Walk} {s s' : Json.State} {c : Char} (i : Nat)
    (hw : Tracks start w s) (hs : s.IsOpen) (hs' : s'.IsOpen) (h : s.next? c = some s')
    (hspoilt : ¬ s'.IsSpoilt) :
    ∃ w', w.step i c = (w', none) ∧ Tracks start w' s' := by
  obtain ⟨depth, quoting, opened⟩ := w
  obtain ⟨rfl, rfl, rfl⟩ := hw
  obtain ⟨fs, m⟩ := s
  obtain ⟨f, fs, rfl⟩ := List.exists_cons_of_ne_nil hs.1
  cases (Json.State.next?_moves hs.2 h).resolve_right hspoilt with
  | stay hkind hm' hq => exact ⟨_, step_of_after? i hq, rfl, rfl, rfl⟩
  | @push g f' m' hkind hq hc hm' hq' =>
      refine ⟨⟨fs.length + 3, .outside, some start⟩, ?_, rfl, hq'.symm, rfl⟩
      cases hg : g.isObject <;> simp [step, hq, hc, hg, Json.opener]
  | @pop v hq hc hv =>
      obtain ⟨f₁, fs, rfl⟩ := Json.State.IsOpen.exists_cons hs'
      obtain ⟨g, -, hg⟩ := Json.State.exists_complete_cons f₁ v
      refine ⟨⟨fs.length + 2, .outside, some start⟩, ?_, ?_, ?_, rfl⟩
      · cases hf : f.isObject <;> simp [step, hq, hc, hf, Json.closer]
      · rw [hg, List.length_cons]
      · rw [hg]
        rfl

theorem Tracks.last {start : Nat} {w : Walk} {s : Json.State} {c : Char} {u : Json.Value} (i : Nat)
    (hw : Tracks start w s) (hs : s.IsOpen) (hbase : s.base? = some true)
    (h : s.next? c = some ⟨[], .done u⟩) :
    w.step i c = (⟨1, .outside, none⟩, some ⟨start, i + c.utf8Size⟩) := by
  obtain ⟨depth, quoting, opened⟩ := w
  obtain ⟨rfl, rfl, rfl⟩ := hw
  obtain ⟨fs, m⟩ := s
  obtain ⟨f, fs, rfl⟩ := List.exists_cons_of_ne_nil hs.1
  generalize hs' : (⟨[], .done u⟩ : Json.State) = s' at h
  have hspoilt : ¬ s'.IsSpoilt := hs' ▸ Json.State.not_isSpoilt_complete [] u
  cases (Json.State.next?_moves hs.2 h).resolve_right hspoilt with
  | stay => cases hs'
  | push => cases hs'
  | @pop v hq hc hv =>
      -- nothing is open any more, so that nothing else was open before
      obtain rfl : fs = [] := by
        cases fs with
        | nil => rfl
        | cons f₁ fs =>
            obtain ⟨g, -, hg⟩ := Json.State.exists_complete_cons f₁ v
            rw [hg] at hs'
            cases hs'
      have hf : f.isObject = true := by simpa [Json.State.base?] using hbase
      rw [hf] at hc
      subst hc
      simp [step, hq, Json.closer]
      rfl

theorem passes_closes {start : Nat} {w : Walk} {s : Json.State} {n i : Nat} {y : Text}
    {u : Json.Value} (hw : Tracks start w s) (hs : s.IsOpen) (hbase : s.base? = some true)
    (h : Json.State.Closes n s y u) :
    w.Passes i y [⟨start, i + Text.size y⟩] ⟨1, .outside, none⟩ := by
  induction h generalizing w i with
  | @last s c u h =>
      have hlast := h [] (Nat.zero_le n)
      rw [hs.onto_nil] at hlast
      exact .cons (hw.last i hs hbase hlast) (.nil _ _)
  | @next s s' c y u h hs' hy ih =>
      have hnext := h [] (Nat.zero_le n)
      rw [hs.onto_nil, hs'.onto_nil] at hnext
      -- the object still comes to its end from here
      have hspoilt := hy.not_isSpoilt hs'
      have hbase' : s'.base? = some true := by
        rcases hs.next hbase hnext hspoilt with ⟨-, hbase'⟩ | ⟨u', rfl, -⟩
        · exact hbase'
        · exact absurd rfl hs'.1
      obtain ⟨w', hstep, hw'⟩ := hw.next i hs hs' hnext hspoilt
      rw [Text.size_cons, ← Nat.add_assoc]
      exact .cons hstep (ih hw' hs' hbase')

/-- An object directly inside the outermost array is noted as a whole. -/
theorem passes_object {x : Text} {ms : Json.Members} (hx : Json.IsObjectText x ms) (i : Nat) :
    (⟨1, .outside, none⟩ : Walk).Passes i x [⟨i, i + Text.size x⟩] ⟨1, .outside, none⟩ := by
  obtain ⟨y, rfl, hy⟩ := hx
  have hstep : (⟨1, .outside, none⟩ : Walk).step i '{' = (⟨2, .outside, some i⟩, none) := rfl
  rw [Text.size_cons, ← Nat.add_assoc]
  exact .cons hstep (passes_closes ⟨rfl, rfl, rfl⟩ Json.State.isOpen_firstKey rfl hy)

theorem passes_slot (x : Element) (a : Text) :
    (⟨1, .outside, none⟩ : Walk).Passes (Text.size a) x.slot [.after (a ++ x.before) x.text]
      ⟨1, .outside, none⟩ := by
  have hbefore : (⟨1, .outside, none⟩ : Walk).Passes (Text.size a) x.before []
      ⟨1, .outside, none⟩ := passes_gap rfl x.before_gap _
  have hafter : (⟨1, .outside, none⟩ : Walk).Passes
      (Text.size a + Text.size (x.before ++ x.text)) x.after [] ⟨1, .outside, none⟩ :=
    passes_gap rfl x.after_gap _
  have hslot := (hbefore.append (passes_object x.isObject _)).append hafter
  rw [← Text.size_append] at hslot
  exact hslot

end Walk

/-! ### Layouts -/

namespace Json

/-- The spans of elements that follow the text `a` and are separated by commas. -/
def spansAfter (a : Text) : List Element → List Span
  | [] => []
  | x :: xs => .after (a ++ x.before) x.text :: spansAfter (a ++ x.slot ++ [',']) xs

@[simp] theorem length_spansAfter (a : Text) (xs : List Element) :
    (spansAfter a xs).length = xs.length := by
  induction xs generalizing a with
  | nil => rfl
  | cons x xs ih => rw [spansAfter, List.length_cons, List.length_cons, ih]

theorem spansAfter_append (a : Text) (xs ys : List Element) :
    spansAfter a (xs ++ ys) = spansAfter a xs ++ spansAfter (a ++ headText xs) ys := by
  induction xs generalizing a with
  | nil => simp [spansAfter]
  | cons x xs ih => simp [spansAfter, ih]

/-- The text of a layout up to its opening bracket. -/
def Layout.opening (L : Layout) : Text :=
  L.lead ++ ['[']

/-- The spans of the elements of a layout. -/
def Layout.spans (L : Layout) : List Span :=
  spansAfter L.opening L.elements

end Json

namespace Walk

theorem passes_tailText (xs : List Element) (a : Text) :
    (⟨1, .outside, none⟩ : Walk).Passes (Text.size a) (Json.tailText xs)
      (Json.spansAfter (a ++ [',']) xs) ⟨1, .outside, none⟩ := by
  induction xs generalizing a with
  | nil => exact .nil _ _
  | cons x xs ih =>
      have hcomma : (⟨1, .outside, none⟩ : Walk).step (Text.size a) ',' =
          (⟨1, .outside, none⟩, none) := rfl
      have hslot := passes_slot x (a ++ [','])
      have htail := ih (a ++ [','] ++ x.slot)
      rw [Text.size_append (a ++ [','])] at htail
      have h := hslot.append htail
      rw [Text.size_append a] at h
      exact .cons hcomma h

theorem passes_bodyText {hollow : Text} (hhollow : IsGapText hollow) (xs : List Element)
    (a : Text) : (⟨1, .outside, none⟩ : Walk).Passes (Text.size a) (Json.bodyText hollow xs)
      (Json.spansAfter a xs) ⟨1, .outside, none⟩ := by
  cases xs with
  | nil => exact passes_gap rfl hhollow _
  | cons x xs =>
      have htail := passes_tailText xs (a ++ x.slot)
      rw [Text.size_append] at htail
      exact (passes_slot x a).append htail

end Walk

/-- The walk finds the elements of a layout. -/
theorem Json.Layout.elementSpans_text (L : Layout) : elementSpans L.text = L.spans := by
  have hlead : ({} : Walk).Passes 0 L.lead [] {} := Walk.passes_gap rfl L.lead_gap 0
  have hopen : ∀ i, ({} : Walk).step i '[' = (⟨1, .outside, none⟩, none) := fun _ => rfl
  have hopening : ({} : Walk).Passes 0 L.opening [] ⟨1, .outside, none⟩ :=
    hlead.append (.cons (hopen _) (.nil _ _))
  have hbody := Walk.passes_bodyText L.hollow_gap L.elements L.opening
  rw [← Nat.zero_add (Text.size L.opening)] at hbody
  have hclose : ∀ i, (⟨1, .outside, none⟩ : Walk).step i ']' = ({}, none) := fun _ => rfl
  have htrail : ∀ i, ({} : Walk).Passes i L.trail [] {} :=
    fun i => Walk.passes_gap rfl L.trail_gap i
  have htext := (hopening.append hbody).append (.cons (hclose _) (htrail _))
  have hsplit : L.text = L.opening ++ bodyText L.hollow L.elements ++ ']' :: L.trail := by
    simp [Layout.text, Layout.opening]
  rw [elementSpans, hsplit, htext.1]
  simp [Layout.spans]

/-! ### Documents -/

namespace Json

theorem bodyText_split (hollow : Text) {xs ys zs : List Element} {x : Element}
    (h : zs = xs ++ x :: ys) :
    bodyText hollow zs = headText xs ++ x.before ++ x.text ++ (x.after ++ tailText ys) := by
  rw [h, bodyText_append_cons, Element.slot]
  simp only [List.append_assoc]

/-- What stands before an element that comes after the elements `xs`. -/
def Layout.upTo (L : Layout) (xs : List Element) (x : Element) : Text :=
  L.opening ++ headText xs ++ x.before

/-- What stands behind an element that comes before the elements `ys`. -/
def Layout.onFrom (L : Layout) (x : Element) (ys : List Element) : Text :=
  x.after ++ tailText ys ++ ']' :: L.trail

theorem Layout.text_split {L : Layout} {xs ys : List Element} {x : Element}
    (h : L.elements = xs ++ x :: ys) : L.text = L.upTo xs x ++ x.text ++ L.onFrom x ys := by
  rw [Layout.text, bodyText_split L.hollow h, Layout.upTo, Layout.onFrom, Layout.opening]
  simp only [List.append_assoc, List.cons_append, List.nil_append]

theorem Layout.getElem?_spans {L : Layout} {xs ys : List Element} {x : Element}
    (h : L.elements = xs ++ x :: ys) :
    L.spans[xs.length]? = some (.after (L.upTo xs x) x.text) := by
  rw [Layout.spans, h, spansAfter_append, List.getElem?_append_right (by simp)]
  simp [spansAfter, Layout.upTo]

theorem Layout.split_at (L : Layout) {i : Nat} (hi : i < L.elements.length) :
    L.elements = L.elements.take i ++ L.elements[i] :: L.elements.drop (i + 1) := by
  rw [List.getElem_cons_drop, List.take_append_drop]

theorem Layout.getElem?_elementSpans (L : Layout) {i : Nat} (hi : i < L.elements.length) :
    (elementSpans L.text)[i]? =
      some (.after (L.upTo (L.elements.take i) L.elements[i]) L.elements[i].text) := by
  have hspan := L.getElem?_spans (L.split_at hi)
  rwa [List.length_take_of_le (Nat.le_of_lt hi), ← L.elementSpans_text] at hspan

/-- A span that the walk finds is that of an element. -/
theorem Layout.exists_split {L : Layout} {i : Nat} {s : Span}
    (hs : (elementSpans L.text)[i]? = some s) :
    ∃ xs x ys, L.elements = xs ++ x :: ys ∧ xs.length = i ∧ s = .after (L.upTo xs x) x.text ∧
      L.elements.eraseIdx i = xs ++ ys := by
  have hi : i < L.elements.length := by
    obtain ⟨hi, -⟩ := List.getElem?_eq_some_iff.mp hs
    rwa [L.elementSpans_text, Layout.spans, length_spansAfter] at hi
  refine ⟨_, _, _, L.split_at hi, List.length_take_of_le (Nat.le_of_lt hi), ?_,
    List.eraseIdx_eq_take_drop_succ _ _⟩
  exact Option.some.inj (hs.symm.trans (L.getElem?_elementSpans hi))

/-- The slices at the spans are the texts of the objects. -/
theorem Layout.slices_elementSpans (L : Layout) :
    (elementSpans L.text).map (·.slice? L.text) = (L.elements.map Element.text).map some := by
  have hlength : (elementSpans L.text).length = L.elements.length := by
    rw [L.elementSpans_text, Layout.spans, length_spansAfter]
  refine List.ext_getElem (by simp [hlength]) fun i hi _ => ?_
  rw [List.length_map, hlength] at hi
  obtain ⟨_, hspan⟩ := List.getElem?_eq_some_iff.mp (L.getElem?_elementSpans hi)
  simp only [List.getElem_map, hspan]
  rw [L.text_split (L.split_at hi)]
  exact Span.slice?_after _ _ _

theorem start_le_of_mem_spansAfter {a : Text} {xs : List Element} {s : Span}
    (h : s ∈ spansAfter a xs) : Text.size a ≤ s.start := by
  induction xs generalizing a with
  | nil => cases h
  | cons x xs ih =>
      rw [spansAfter, List.mem_cons] at h
      rcases h with rfl | h
      · simp [Span.after]
      · have hle := ih h
        simp only [Text.size_append] at hle
        omega

theorem pairwise_spansAfter (a : Text) (xs : List Element) :
    (spansAfter a xs).Pairwise fun s s' => s.stop < s'.start := by
  induction xs generalizing a with
  | nil => exact .nil
  | cons x xs ih =>
      refine .cons (fun s hs => ?_) (ih _)
      have hle := start_le_of_mem_spansAfter hs
      have hcomma : Text.size [','] = 1 := rfl
      simp only [Text.size_append, Element.slot, hcomma] at hle
      simp only [Span.after, Text.size_append]
      omega

namespace IsObjectText

variable {x : Text} {ms : Members}

theorem head?_eq (h : IsObjectText x ms) : x.head? = some '{' := by
  obtain ⟨y, rfl, -⟩ := h
  rfl

theorem ne_nil (h : IsObjectText x ms) : x ≠ [] := by
  obtain ⟨y, rfl, -⟩ := h
  simp

theorem read_eq (h : IsObjectText x ms) : read x = .ok (.object ms) :=
  read_eq_ok_iff.mpr ⟨_, State.feed_object (m := .value) h trivial (Nat.zero_le 1), rfl⟩

/-- The document with a single object. -/
theorem parse_eq (h : IsObjectText x ms) {e : Entry} (he : Entry.ofMembers ms = .ok e) :
    Document.parse ('[' :: x ++ [']']) = .ok [e] := by
  let y : Element := ⟨[], x, ms, [], isGapText_nil, h, isGapText_nil⟩
  let L : Layout := ⟨[], [], [y], [], isGapText_nil, isGapText_nil, isGapText_nil⟩
  have htext : '[' :: x ++ [']'] = L.text := by
    simp [L, y, Layout.text, bodyText, Element.slot]
  rw [htext, Document.parse_text]
  exact .cons he .nil

end IsObjectText

end Json

theorem length_elementSpans {t : Text} {es : List Entry} (h : Document.parse t = .ok es) :
    (elementSpans t).length = es.length := by
  obtain ⟨L, rfl, hes⟩ := Document.parse_eq_ok_iff.mp h
  rw [L.elementSpans_text, Json.Layout.spans, Json.length_spansAfter, hes.length_eq]

theorem locateEntries_eq {t : Text} {es : List Entry} (h : Document.parse t = .ok es) :
    locateEntries t es = (elementSpans t).map some := by
  rw [locateEntries, if_pos (length_elementSpans h)]

theorem pairwise_elementSpans {t : Text} {es : List Entry} (h : Document.parse t = .ok es) :
    (elementSpans t).Pairwise fun s s' => s.stop < s'.start := by
  obtain ⟨L, rfl, -⟩ := Document.parse_eq_ok_iff.mp h
  rw [L.elementSpans_text]
  exact Json.pairwise_spansAfter L.opening L.elements

/-- The object of an entry, from its opening to its closing brace, is at the span. -/
def IsEntryAt (t : Text) (s : Span) (e : Entry) : Prop :=
  s.start < s.stop ∧ ∃ x ms, s.slice? t = some x ∧ x.head? = some '{' ∧ x.getLast? = some '}' ∧
    Json.read x = .ok (.object ms) ∧ Document.parse ('[' :: x ++ [']']) = .ok [e]

theorem exists_span_of_entry {t : Text} {es : List Entry} (h : Document.parse t = .ok es) {i : Nat}
    {e : Entry} (he : es[i]? = some e) :
    ∃ s, (elementSpans t)[i]? = some s ∧ IsEntryAt t s e := by
  obtain ⟨L, rfl, hes⟩ := Document.parse_eq_ok_iff.mp h
  obtain ⟨hi, rfl⟩ := List.getElem?_eq_some_iff.mp he
  have hi' : i < L.elements.length := by
    rw [hes.length_eq]
    exact hi
  have hholds : Entry.ofMembers L.elements[i].members = .ok es[i] := hes.get hi' hi
  have hobject := L.elements[i].isObject
  refine ⟨_, L.getElem?_elementSpans hi', ?_, L.elements[i].text, L.elements[i].members, ?_,
    hobject.head?_eq, hobject.getLast?_eq, hobject.read_eq, hobject.parse_eq hholds⟩
  · exact Nat.lt_add_of_pos_right (Text.size_pos hobject.ne_nil)
  · rw [L.text_split (L.split_at hi')]
    exact Span.slice?_after _ _ _

/-- The walk finds each entry of a document, all of it and nothing else. -/
theorem elementSpans_entries {t : Text} {es : List Entry} (h : Document.parse t = .ok es) :
    (elementSpans t).length = es.length ∧
      (elementSpans t).Pairwise (fun s s' => s.stop < s'.start) ∧
      (∀ (i : Nat) e, es[i]? = some e → ∃ s, (elementSpans t)[i]? = some s ∧ IsEntryAt t s e) ∧
      locateEntries t es = (elementSpans t).map some :=
  ⟨length_elementSpans h, pairwise_elementSpans h, fun _ _ he => exists_span_of_entry h he,
    locateEntries_eq h⟩

/-- Braces and an escaped quote in a string, a nested object and white space. -/
def nested : Text :=
  "[ \x7b\"key\": \"\x7d\\\"\x7b\"\x7d,\n  \x7b\"args\": \x7b\"a\": [\x7b\x7d]\x7d\x7d ]".toList

theorem elementSpans_nested : ∃ es, Document.parse nested = .ok es ∧
    locateEntries nested es = [some ⟨2, 17⟩, some ⟨21, 42⟩] ∧
      ∀ (i : Nat) e, es[i]? = some e →
        ∃ s, (elementSpans nested)[i]? = some s ∧ IsEntryAt nested s e :=
  have h := elementSpans_entries (t := nested) rfl
  ⟨_, rfl, h.2.2.2.trans rfl, h.2.2.1⟩

end Keybindings
