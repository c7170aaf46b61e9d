import Keybindings.Proofs.Json.Nesting
import Mathlib.Data.List.TakeWhile

/-!
The layout of an array of objects.

A `Layout` takes the text of such an array apart into the texts of the objects and the white space
around them.  Reading the text of a layout gives the objects (`Layout.read_text`), and every text
that holds an array of objects has a layout (`exists_layout`), so that what is done to the text can
be described as what is done to the layout.
-/

namespace Keybindings.Json

/-- The text of an object, good for the top of a text and for an array there. -/
def IsObjectText (x : Text) (ms : Members) : Prop :=
  ∃ y, x = '{' :: y ∧ State.Closes 1 ⟨[.object [] ""], .firstKey⟩ y (.object ms)

theorem IsObjectText.getLast?_eq {x : Text} {ms : Members} (h : IsObjectText x ms) :
    x.getLast? = some '}' := by
  obtain ⟨y, rfl, hy⟩ := h
  rw [List.getLast?_cons_of_ne_nil hy.ne_nil]
  exact (hy.isObject_eq State.isOpen_firstKey rfl).2

/-- An object in an array, with the white space up to the comma or bracket on either side. -/
structure Element where
  before : Text
  text : Text
  members : Members
  after : Text
  before_gap : IsGapText before
  isObject : IsObjectText text members
  after_gap : IsGapText after

/-- What stands between two commas. -/
def Element.slot (x : Element) : Text :=
  x.before ++ x.text ++ x.after

/-- Elements that come after others. -/
def tailText (xs : List Element) : Text :=
  xs.flatMap fun x => ',' :: x.slot

/-- Elements that come before others. -/
def headText (xs : List Element) : Text :=
  xs.flatMap fun x => x.slot ++ [',']

/-- What stands between the brackets: `hollow` if there is no element. -/
def bodyText (hollow : Text) : List Element → Text
  | [] => hollow
  | x :: xs => x.slot ++ tailText xs

@[simp] theorem tailText_nil : tailText [] = [] := rfl

@[simp] theorem tailText_cons (x : Element) (xs : List Element) :
    tailText (x :: xs) = ',' :: (x.slot ++ tailText xs) := rfl

@[simp] theorem headText_nil : headText [] = [] := rfl

@[simp] theorem headText_cons (x : Element) (xs : List Element) :
    headText (x :: xs) = x.slot ++ ',' :: headText xs := by
  simp [headText]

@[simp] theorem headText_append (xs ys : List Element) :
    headText (xs ++ ys) = headText xs ++ headText ys := by
  simp [headText]

theorem comma_headText (xs : List Element) : ',' :: headText xs = tailText xs ++ [','] := by
  induction xs with
  | nil => rfl
  | cons x xs ih => simp [ih]

theorem bodyText_append_cons (hollow : Text) (xs : List Element) (x : Element) (ys : List Element) :
    bodyText hollow (xs ++ x :: ys) = headText xs ++ x.slot ++ tailText ys := by
  induction xs with
  | nil => rfl
  | cons x' xs ih =>
      have htail : tailText (xs ++ x :: ys) = ',' :: headText xs ++ x.slot ++ tailText ys := by
        rw [comma_headText]
        simp [tailText]
      simp [bodyText, htail]

/-- The text of an array of objects, taken apart. -/
structure Layout where
  lead : Text
  /-- White space that stands between the brackets if there are no elements. -/
  hollow : Text
  elements : List Element
  trail : Text
  lead_gap : IsGapText lead
  hollow_gap : IsGapText hollow
  trail_gap : IsGapText trail

def Layout.text (L : Layout) : Text :=
  L.lead ++ '[' :: bodyText L.hollow L.elements ++ ']' :: L.trail

def Element.value (x : Element) : Value := .object x.members

def Mode.SkipsGaps : Mode → Prop
  | .word _ _ | .numeral _ | .string _ _ _ => False
  | _ => True

def Mode.BeginsValue : Mode → Prop
  | .value | .firstItem | .item => True
  | _ => False

namespace State

/-! ### Reading a layout -/

theorem next?_gap {fs : List Frame} {m : Mode} (hm : m.SkipsGaps) {c : Char} (hc : isGap c) :
    (⟨fs, m⟩ : State).next? c = some ⟨fs, m⟩ := by
  cases m <;> simp_all [Mode.SkipsGaps, next?_eq_take, take, separate, toOption_eq_some]

theorem feed_gap {fs : List Frame} {m : Mode} (hm : m.SkipsGaps) {g : Text} (hg : IsGapText g) :
    (⟨fs, m⟩ : State).feed g = some ⟨fs, m⟩ := by
  induction g with
  | nil => rfl
  | cons c g ih =>
      rw [feed_cons, next?_gap hm (hg c List.mem_cons_self), Option.bind_some]
      exact ih fun d hd => hg d (List.mem_cons_of_mem c hd)

theorem next?_beginValue {fs : List Frame} {m : Mode} (hm : m.BeginsValue) {c : Char}
    (hgap : isGap c = false) (hc : c ≠ ']') :
    (⟨fs, m⟩ : State).next? c = (beginValue fs c).toOption := by
  cases m <;> simp_all [Mode.BeginsValue, next?_eq_take, take]

theorem next?_brace {fs : List Frame} {m : Mode} (hm : m.BeginsValue)
    (hle : fs.length < maxDepth) :
    (⟨fs, m⟩ : State).next? '{' = some ⟨.object [] "" :: fs, .firstKey⟩ := by
  rw [next?_beginValue hm rfl (by decide), toOption_eq_some]
  exact if_pos hle

/-- The text of an object gives the object wherever a value may begin, at the top of a text and in
an array there. -/
theorem feed_object {x : Text} {ms : Members} (hx : IsObjectText x ms) {fs : List Frame} {m : Mode}
    (hm : m.BeginsValue) (hle : fs.length ≤ 1) :
    (⟨fs, m⟩ : State).feed x = some (complete fs (.object ms)) := by
  obtain ⟨y, rfl, hy⟩ := hx
  rw [feed_cons, next?_brace hm (by simp only [maxDepth]; omega), Option.bind_some]
  exact hy.feed hle

theorem feed_slot (x : Element) (items : List Value) {m : Mode} (hgap : m.SkipsGaps)
    (hm : m.BeginsValue) :
    (⟨[.array items], m⟩ : State).feed x.slot = some ⟨[.array (x.value :: items)], .after⟩ := by
  rw [Element.slot, feed_append, feed_append, feed_gap hgap x.before_gap, Option.bind_some,
    feed_object x.isObject hm (by simp), Option.bind_some]
  exact feed_gap (m := .after) trivial x.after_gap

theorem feed_tailText (xs : List Element) (items : List Value) :
    (⟨[.array items], .after⟩ : State).feed (tailText xs) =
      some ⟨[.array ((xs.map Element.value).reverse ++ items)], .after⟩ := by
  induction xs generalizing items with
  | nil => rfl
  | cons x xs ih =>
      have hcomma : (⟨[.array items], .after⟩ : State).next? ',' =
          some ⟨[.array items], .item⟩ := rfl
      rw [tailText_cons, feed_cons, hcomma, Option.bind_some, feed_append,
        feed_slot x items (m := .item) trivial trivial, Option.bind_some, ih]
      simp

theorem feed_bodyText {hollow : Text} (hhollow : IsGapText hollow) (xs : List Element) :
    ∃ m : Mode, (m = .firstItem ∨ m = .after) ∧
      (⟨[.array []], .firstItem⟩ : State).feed (bodyText hollow xs) =
        some ⟨[.array (xs.map Element.value).reverse], m⟩ := by
  cases xs with
  | nil => exact ⟨.firstItem, .inl rfl, feed_gap (m := .firstItem) trivial hhollow⟩
  | cons x xs =>
      refine ⟨.after, .inr rfl, ?_⟩
      rw [bodyText, feed_append, feed_slot x [] (m := .firstItem) trivial trivial,
        Option.bind_some, feed_tailText]
      simp

theorem next?_bracket {items : List Value} {m : Mode} (hm : m = .firstItem ∨ m = .after) :
    (⟨[.array items], m⟩ : State).next? ']' = some ⟨[], .done (.array items.reverse)⟩ := by
  rcases hm with rfl | rfl <;> rfl

end State

theorem Layout.read_text (L : Layout) :
    read L.text = .ok (.array (L.elements.map Element.value)) := by
  obtain ⟨m, hm, hbody⟩ := State.feed_bodyText L.hollow_gap L.elements
  have hopen : (⟨[], .value⟩ : State).next? '[' = some ⟨[.array []], .firstItem⟩ := rfl
  rw [read_eq_ok_iff]
  refine ⟨⟨[], .done (.array (L.elements.map Element.value))⟩, ?_, rfl⟩
  rw [Layout.text, State.feed_append, State.feed_append, State.start,
    State.feed_gap (m := .value) trivial L.lead_gap, Option.bind_some, State.feed_cons, hopen,
    Option.bind_some, hbody, Option.bind_some, State.feed_cons, State.next?_bracket hm,
    Option.bind_some, List.reverse_reverse]
  exact State.feed_gap (m := .done _) trivial L.trail_gap

/-! ### Finding the layout -/

theorem exists_gap_append (t : Text) :
    ∃ g t', t = g ++ t' ∧ IsGapText g ∧ ∀ c t'', t' = c :: t'' → isGap c = false := by
  refine ⟨t.takeWhile isGap, t.dropWhile isGap, (List.takeWhile_append_dropWhile).symm, ?_, ?_⟩
  · intro c hc
    exact List.mem_takeWhile_imp hc
  · intro c t'' h
    have hhead := List.head?_dropWhile_not isGap t
    rw [h] at hhead
    simpa using hhead

namespace State

theorem accepts_gap {fs : List Frame} {m : Mode} (hm : m.SkipsGaps) {g t : Text} {v : Value}
    (hg : IsGapText g) : Accepts ⟨fs, m⟩ (g ++ t) v ↔ Accepts ⟨fs, m⟩ t v :=
  accepts_append (feed_gap hm hg)

theorem accepts_item {items : List Value} {m : Mode} {c : Char} {t : Text} {v : Value}
    (hm : m = .firstItem ∨ m = .item) (hgap : isGap c = false) (hc : c ≠ ']')
    (h : Accepts ⟨[.array items], m⟩ (c :: t) v) :
    ∃ y t' u, c :: t = y ++ t' ∧ t'.length ≤ t.length ∧
      Accepts ⟨[.array (u :: items)], .after⟩ t' v ∧
        ∀ ms, u = .object ms → IsObjectText y ms := by
  obtain ⟨s, hs, h⟩ := accepts_cons.mp h
  have hbegins : m.BeginsValue := by
    rcases hm with rfl | rfl <;> trivial
  have hbegin : beginValue [.array items] c = .ok s :=
    toOption_eq_some.mp (next?_beginValue hbegins hgap hc ▸ hs)
  obtain ⟨y, t', u, rfl, h, hobject⟩ := accepts_beginValue hbegin h
  refine ⟨c :: y, t', u, rfl, by simp, h, fun ms hu => ?_⟩
  obtain ⟨rfl, hy⟩ := hobject ms hu
  exact ⟨y, rfl, hy⟩

/-- What follows an item of an accepted array: further items and the closing bracket. -/
theorem exists_elements_of_accepts {items vs : List Value} {t : Text}
    (h : Accepts ⟨[.array items], .after⟩ t (.array vs)) :
    ∃ after rest, IsGapText after ∧ vs = items.reverse ++ rest ∧
      ((∀ v ∈ rest, v.isObject) → ∃ (xs : List Element) (trail : Text), IsGapText trail ∧
        rest = xs.map Element.value ∧ t = after ++ tailText xs ++ ']' :: trail) := by
  -- white space and items are taken off as a whole, so that the induction is on the length
  induction hn : t.length using Nat.strongRecOn generalizing items t with
  | ind n ih =>
      obtain ⟨after, t₁, rfl, hafter, hhead⟩ := exists_gap_append t
      rw [accepts_gap (m := .after) trivial hafter] at h
      cases t₁ with
      | nil => cases accepts_nil.mp h
      | cons c t₁ =>
          have hgap : isGap c = false := hhead c t₁ rfl
          obtain ⟨s, hs, h⟩ := accepts_cons.mp h
          rw [next?_eq_take (by simp), toOption_eq_some] at hs
          simp only [take, separate, hgap, refuse, Bool.false_eq_true, if_false] at hs
          split_ifs at hs with hcomma hclose
          · cases hs
            obtain ⟨before, t₂, rfl, hbefore, hhead⟩ := exists_gap_append t₁
            rw [accepts_gap (m := .item) trivial hbefore] at h
            cases t₂ with
            | nil => cases accepts_nil.mp h
            | cons d t₂ =>
                -- a comma is not followed by the closing bracket
                have hd : d ≠ ']' := by
                  rintro rfl
                  obtain ⟨s, hs, -⟩ := accepts_cons.mp h
                  cases hs
                obtain ⟨y, t₃, u, ht, hlen, h, hobject⟩ :=
                  accepts_item (.inr rfl) (hhead d t₂ rfl) hd h
                have hshort : t₃.length < n := by
                  simp only [List.length_append, List.length_cons] at hn
                  omega
                obtain ⟨after', rest, hafter', hvs, hrest⟩ := ih t₃.length hshort h rfl
                refine ⟨after, u :: rest, hafter, by simp [hvs], fun hall => ?_⟩
                obtain ⟨ms, rfl⟩ := Value.exists_object (hall u List.mem_cons_self)
                obtain ⟨xs, trail, htrail, rfl, rfl⟩ :=
                  hrest fun v hv => hall v (List.mem_cons_of_mem _ hv)
                let x : Element := ⟨before, y, ms, after', hbefore, hobject ms rfl, hafter'⟩
                refine ⟨x :: xs, trail, htrail, rfl, ?_⟩
                rw [ht, hcomma]
                simp [Element.slot, x]
          · cases hs
            obtain ⟨hvs, htrail⟩ := accepts_done h
            cases hvs
            refine ⟨after, [], hafter, by simp, fun _ => ⟨[], t₁, htrail, rfl, ?_⟩⟩
            simp [hclose]

theorem exists_body_of_accepts {vs : List Value} {t : Text}
    (h : Accepts ⟨[.array []], .firstItem⟩ t (.array vs)) (hall : ∀ v ∈ vs, v.isObject) :
    ∃ (hollow : Text) (xs : List Element) (trail : Text), IsGapText hollow ∧ IsGapText trail ∧
      vs = xs.map Element.value ∧ t = bodyText hollow xs ++ ']' :: trail := by
  obtain ⟨before, t₁, rfl, hbefore, hhead⟩ := exists_gap_append t
  rw [accepts_gap (m := .firstItem) trivial hbefore] at h
  cases t₁ with
  | nil => cases accepts_nil.mp h
  | cons c t₁ =>
      by_cases hc : c = ']'
      · subst hc
        obtain ⟨s, hs, h⟩ := accepts_cons.mp h
        rw [next?_bracket (.inl rfl)] at hs
        cases hs
        obtain ⟨hvs, htrail⟩ := accepts_done h
        cases hvs
        exact ⟨before, [], t₁, hbefore, htrail, rfl, rfl⟩
      · obtain ⟨y, t₂, u, ht, -, h, hobject⟩ :=
          accepts_item (.inl rfl) (hhead c t₁ rfl) hc h
        obtain ⟨after, rest, hafter, rfl, hrest⟩ := exists_elements_of_accepts h
        obtain ⟨ms, rfl⟩ := Value.exists_object (hall u (by simp))
        obtain ⟨xs, trail, htrail, rfl, rfl⟩ := hrest fun v hv => hall v (by simp [hv])
        let x : Element := ⟨before, y, ms, after, hbefore, hobject ms rfl, hafter⟩
        refine ⟨[], x :: xs, trail, isGapText_nil, htrail, rfl, ?_⟩
        rw [ht]
        simp [bodyText, Element.slot, x]

end State

/-- Every text of an array of objects has a layout. -/
theorem exists_layout {t : Text} {vs : List Value} (h : read t = .ok (.array vs))
    (hall : ∀ v ∈ vs, v.isObject) :
    ∃ L : Layout, t = L.text ∧ vs = L.elements.map Element.value := by
  rw [read_eq_ok_iff, State.start] at h
  obtain ⟨lead, t₁, rfl, hlead, hhead⟩ := exists_gap_append t
  rw [State.accepts_gap (m := .value) trivial hlead] at h
  cases t₁ with
  | nil => cases State.accepts_nil.mp h
  | cons c t₁ =>
      have hgap : isGap c = false := hhead c t₁ rfl
      obtain ⟨s, hs, h⟩ := State.accepts_cons.mp h
      have hbegin : State.beginValue [] c = .ok s := by
        simpa [State.next?_eq_take, State.take, hgap, State.toOption_eq_some] using hs
      rcases State.beginValue_cases hbegin with ⟨rfl, rfl⟩ | ⟨rfl, rfl⟩ | ⟨m, hm, rfl⟩
      · obtain ⟨hollow, xs, trail, hhollow, htrail, hvs, rfl⟩ :=
          State.exists_body_of_accepts h hall
        exact ⟨⟨lead, hollow, xs, trail, hlead, hhollow, htrail⟩, by simp [Layout.text], hvs⟩
      · -- a text that begins as an object or a value without parts does not hold an array
        obtain ⟨y, t', u, -, hy, h⟩ := State.closes_of_accepts [] State.isOpen_firstKey h
        cases (State.accepts_done h).1
        cases (hy.isObject_eq State.isOpen_firstKey rfl).1
      · obtain ⟨y, t', u, -, hu, h⟩ := State.accepts_scalar hm h
        cases (State.accepts_done h).1
        cases hu

end Keybindings.Json
