import Keybindings.Proofs.Deletion
import Keybindings.Proofs.Json.Printing
import Mathlib.Data.List.Infix

/-!
The search for a command property agrees with the walk.

Where strings hold no braces and objects hold no objects, the only braces of a document are those
around its entries.  The command property cannot begin between entries, and it cannot run over the
end of one (`Layout.exists_element`), so that the braces next to it are those of its entry.
-/

namespace Keybindings

open Json (Layout Element)

/-! ### Occurrences -/

namespace Text

theorem append_eq_append_cons {p q a r : Text} {c : Char} (h : p ++ q = a ++ c :: r) :
    (∃ r', p = a ++ c :: r' ∧ r = r' ++ q) ∨ ∃ a', a = p ++ a' ∧ q = a' ++ c :: r := by
  rcases List.append_eq_append_iff.mp h with ⟨a', rfl, rfl⟩ | ⟨r', hp, hr⟩
  · exact .inr ⟨a', rfl, rfl⟩
  · cases r' with
    | nil => exact .inr ⟨[], by simpa using hp.symm, hr.symm⟩
    | cons d r' =>
        obtain ⟨rfl, rfl⟩ := List.cons.inj hr
        exact .inl ⟨r', hp, rfl⟩

theorem cutFirst_eq_some {needle t a b : Text} (h : cutFirst needle t = some (a, b)) :
    t = a ++ (needle ++ b) ∧ ∀ a' b', t = a' ++ (needle ++ b') → size a ≤ size a' := by
  induction t generalizing a with
  | nil =>
      rw [cutFirst] at h
      split at h
      · next hneedle =>
        cases h
        exact ⟨by rw [hneedle]; rfl, fun _ _ _ => Nat.zero_le _⟩
      · cases h
  | cons c t ih =>
      rw [cutFirst] at h
      cases hhead : needle.isPrefixOf? (c :: t) with
      | some after =>
          rw [hhead] at h
          cases h
          exact ⟨(List.isPrefixOf?_eq_some_iff_append_eq.mp hhead).symm,
            fun _ _ _ => Nat.zero_le _⟩
      | none =>
          rw [hhead] at h
          obtain ⟨⟨a₁, b₁⟩, hcut, hab⟩ := Option.map_eq_some_iff.mp h
          cases hab
          obtain ⟨ht, hmin⟩ := ih hcut
          refine ⟨congrArg (c :: ·) ht, fun a' b' h' => ?_⟩
          cases a' with
          | nil =>
              have hhere : needle ++ b' = c :: t := h'.symm
              rw [List.isPrefixOf?_eq_some_iff_append_eq.mpr hhere] at hhead
              cases hhead
          | cons d a' =>
              obtain ⟨rfl, ht'⟩ := List.cons.inj h'
              exact Nat.add_le_add_left (hmin a' b' ht') _

theorem cutFirst_eq_none {needle t : Text} (h : cutFirst needle t = none) (a b : Text) :
    t ≠ a ++ (needle ++ b) := by
  induction t generalizing a with
  | nil =>
      intro ht
      have hneedle : needle = [] := by
        rw [eq_comm, List.append_eq_nil_iff, List.append_eq_nil_iff] at ht
        exact ht.2.1
      rw [cutFirst, if_pos hneedle] at h
      cases h
  | cons c t ih =>
      rw [cutFirst] at h
      cases hhead : needle.isPrefixOf? (c :: t) with
      | some after =>
          rw [hhead] at h
          cases h
      | none =>
          rw [hhead] at h
          cases a with
          | nil =>
              intro ht
              have hhere : needle ++ b = c :: t := ht.symm
              rw [List.isPrefixOf?_eq_some_iff_append_eq.mpr hhere] at hhead
              cases hhead
          | cons d a => exact fun ht => ih (Option.map_eq_none_iff.mp h) a (List.cons.inj ht).2

theorem beforeFirst_append {a b : Text} {c : Char} (ha : c ∉ a) :
    beforeFirst c (a ++ c :: b) = some a := by
  have hpass : ∀ d ∈ a, (d != c) = true := by
    intro d hd
    rw [bne_iff_ne]
    rintro rfl
    exact ha hd
  rw [beforeFirst, if_pos (by simp), List.takeWhile_append_of_pos hpass,
    List.takeWhile_cons_of_neg (by simp), List.append_nil]

end Text

/-! ### What the reader meets -/

namespace Json

namespace State

/-- Whether all characters of a text are as `p` wants them for the state in which the reader meets
them. -/
def all (p : State → Char → Bool) (s : State) : Text → Bool
  | [] => true
  | c :: t => p s c && (s.next? c).all fun s => all p s t

/-- No brace in a string. -/
def plainString (s : State) (c : Char) : Bool :=
  s.mode.quoting == .outside || c != '{' && c != '}'

/-- No object begins where another one is open. -/
def flat (s : State) (c : Char) : Bool :=
  s.mode.quoting != .outside || c != '{' || s.frames.all fun f => !f.isObject

theorem all_append {p : State → Char → Bool} {s s' : State} {a b : Text}
    (hfeed : s.feed a = some s') (h : s.all p (a ++ b) = true) :
    s.all p a = true ∧ s'.all p b = true := by
  induction a generalizing s with
  | nil =>
      cases hfeed
      exact ⟨rfl, h⟩
  | cons c a ih =>
      rw [feed_cons, Option.bind_eq_some_iff] at hfeed
      obtain ⟨s₁, hnext, hfeed⟩ := hfeed
      rw [List.cons_append, all, hnext, Option.all_some, Bool.and_eq_true] at h
      obtain ⟨ha, hb⟩ := ih hfeed h.2
      refine ⟨?_, hb⟩
      rw [all, hnext, Option.all_some, h.1, ha, Bool.and_self]

theorem all_cons {p : State → Char → Bool} {s s' : State} {c : Char} {t : Text}
    (h : s.all p (c :: t) = true) (hnext : s.next? c = some s') :
    p s c = true ∧ s'.all p t = true := by
  rwa [all, hnext, Option.all_some, Bool.and_eq_true] at h

end State

/-- No string of the text holds a brace as such. -/
def HasPlainStrings (t : Text) : Prop :=
  State.start.all State.plainString t = true

/-- No object of the text is inside another one. -/
def IsFlat (t : Text) : Prop :=
  State.start.all State.flat t = true

instance (t : Text) : Decidable (HasPlainStrings t) :=
  inferInstanceAs (Decidable (_ = true))

instance (t : Text) : Decidable (IsFlat t) :=
  inferInstanceAs (Decidable (_ = true))

/-! ### The braces of an entry -/

namespace State

/-- Of the containers that are open, the outermost one is an object and no other one is. -/
def IsLone (s : State) : Prop :=
  ∃ k, s.frames.map Frame.isObject = List.replicate k false ++ [true]

theorem IsLone.base?_eq {s : State} (h : s.IsLone) : s.base? = some true := by
  obtain ⟨k, hkinds⟩ := h
  rw [base?, ← List.getLast?_map, hkinds, List.getLast?_concat]

theorem IsLone.congr {f g : Frame} {fs : List Frame} {m m' : Mode} (hkind : g.isObject = f.isObject)
    (h : (⟨f :: fs, m⟩ : State).IsLone) : (⟨g :: fs, m'⟩ : State).IsLone := by
  obtain ⟨k, hkinds⟩ := h
  exact ⟨k, by rwa [List.map_cons, hkind, ← List.map_cons]⟩

/-- Up to its end, an object without objects and without braces in strings shows no brace. -/
theorem IsLone.next {s s' : State} {c : Char} (hlone : s.IsLone) (hs : s.IsOpen) (hs' : s'.IsOpen)
    (h : s.next? c = some s') (hspoilt : ¬ s'.IsSpoilt) (hplain : s.plainString c = true)
    (hflat : s.flat c = true) : s'.IsLone ∧ c ≠ '{' ∧ c ≠ '}' := by
  obtain ⟨fs, m⟩ := s
  obtain ⟨f, fs, rfl⟩ := List.exists_cons_of_ne_nil hs.1
  cases (next?_moves hs.2 h).resolve_right hspoilt with
  | @stay g m' hkind hm' hq =>
      refine ⟨hlone.congr hkind, ?_⟩
      cases hm : m.quoting with
      | outside =>
          rw [hm, Quoting.after?] at hq
          split_ifs at hq with hquote hbracket
          · rw [hquote]
            decide
          · exact ⟨fun hc => hbracket (.inl hc), fun hc => hbracket (.inr (.inl hc))⟩
      | inside => simpa [plainString, hm] using hplain
      | escaped => simpa [plainString, hm] using hplain
  | @push g f' m' hkind hq hc hm' hq' =>
      obtain ⟨k, hkinds⟩ := hlone
      cases hg : g.isObject with
      | true =>
          -- the outermost object is open already
          have hnone : ∀ f₁ ∈ f :: fs, f₁.isObject = false := by
            simpa [flat, hq, hc, hg, opener] using hflat
          have hmem : true ∈ (f :: fs).map Frame.isObject := by
            rw [hkinds]
            exact List.mem_append_right _ List.mem_cons_self
          obtain ⟨f₁, hf₁, htrue⟩ := List.mem_map.mp hmem
          rw [hnone f₁ hf₁] at htrue
          exact absurd htrue Bool.false_ne_true
      | false =>
          refine ⟨⟨k + 1, ?_⟩, ?_⟩
          · rw [List.map_cons, List.map_cons, hg, hkind, ← List.map_cons, hkinds]
            rfl
          · rw [hc, hg]
            decide
  | @pop v hq hc hv =>
      obtain ⟨f₁, fs, rfl⟩ := hs'.exists_cons
      obtain ⟨k, hkinds⟩ := hlone
      cases k with
      | zero => exact absurd (congrArg List.length hkinds) (by simp)
      | succ k =>
          rw [List.map_cons, List.replicate_succ, List.cons_append, List.cons.injEq] at hkinds
          obtain ⟨g, hkind, hg⟩ := exists_complete_cons f₁ v
          rw [hg, hc, hkinds.1]
          exact ⟨.congr (m := m) hkind ⟨k, hkinds.2⟩, by decide⟩

theorem Closes.braces {n : Nat} {s : State} {y : Text} {u : Value} (h : Closes n s y u)
    (hs : s.IsOpen) (hlone : s.IsLone) {outer : List Frame} (hle : outer.length ≤ n)
    (hplain : (s.onto outer).all plainString y = true)
    (hflat : (s.onto outer).all flat y = true) :
    ∃ z, y = z ++ ['}'] ∧ ∀ c ∈ z, c ≠ '{' ∧ c ≠ '}' := by
  induction h with
  | @last s c u h =>
      have hlast := ((Closes.last h).isObject_eq hs hlone.base?_eq).2
      cases hlast
      exact ⟨[], rfl, List.forall_mem_nil _⟩
  | @next s s' c y u h hs' hy ih =>
      obtain ⟨hplain, hplain'⟩ := all_cons hplain (h outer hle)
      obtain ⟨hflat, hflat'⟩ := all_cons hflat (h outer hle)
      have hnext := h [] (Nat.zero_le n)
      rw [hs.onto_nil, hs'.onto_nil] at hnext
      rw [hs.onto_eq] at hplain hflat
      have hflat₀ : s.flat c = true := by
        rw [flat, List.all_append] at hflat
        rw [flat]
        revert hflat
        cases s.frames.all fun f => !f.isObject <;> simp
      obtain ⟨hlone', hc⟩ := hlone.next hs hs' hnext (hy.not_isSpoilt hs') hplain hflat₀
      obtain ⟨z, rfl, hz⟩ := ih hs' hlone' hplain' hflat'
      exact ⟨c :: z, rfl, List.forall_mem_cons.mpr ⟨hc, hz⟩⟩

theorem Closes.split {n : Nat} {s : State} {a b : Text} {u : Value} (h : Closes n s (a ++ b) u)
    (hs : s.IsOpen) (hb : b ≠ []) {outer : List Frame} (hle : outer.length ≤ n) :
    ∃ s' : State, s'.IsOpen ∧ (s.onto outer).feed a = some (s'.onto outer) ∧ Closes n s' b u := by
  induction a generalizing s with
  | nil => exact ⟨s, hs, rfl, h⟩
  | cons c a ih =>
      rw [List.cons_append] at h
      generalize hab : c :: (a ++ b) = y at h
      cases h with
      | last h =>
          rw [List.cons.injEq, List.append_eq_nil_iff] at hab
          exact absurd hab.2.2 hb
      | next h hs' hy =>
          obtain ⟨rfl, rfl⟩ := List.cons.inj hab
          obtain ⟨s'', hs'', hfeed, hrest⟩ := ih hy hs'
          exact ⟨s'', hs'', by rw [feed_cons, h outer hle, Option.bind_some, hfeed], hrest⟩

end State

/-! ### The quote before a command property -/

def Mode.IsClosed : Mode → Prop
  | .colon | .after | .done _ => True
  | _ => False

namespace State

theorem isClosed_complete (fs : List Frame) (v : Value) : (complete fs v).mode.IsClosed := by
  cases fs with
  | nil => trivial
  | cons f fs => cases f <;> trivial

theorem isClosed_closeString (fs : List Frame) (asKey : Bool) (chars : List Char) :
    (closeString fs asKey chars).mode.IsClosed := by
  cases asKey with
  | false => exact isClosed_complete fs _
  | true =>
      cases fs with
      | nil => trivial
      | cons f fs => cases f <;> trivial

theorem next?_closed {s : State} (hs : s.mode.IsClosed) {c : Char} (hc : c = '"' ∨ c = 'c') :
    s.next? c = none := by
  obtain ⟨fs, m⟩ := s
  have hseparate : ∀ m, (separate ⟨fs, m⟩ c).toOption = none := by
    intro m
    rcases fs with _ | ⟨_ | _, fs⟩ <;> rcases hc with rfl | rfl <;> rfl
  cases m with
  | colon => rcases hc with rfl | rfl <;> rfl
  | after => exact (next?_eq_take (by simp) c).trans (hseparate .after)
  | done v => exact (next?_eq_take (by simp) c).trans (hseparate (.done v))
  | _ => exact hs.elim

/-- A quote begins a string, ends one or is part of one. -/
theorem next?_quote {s s' : State} (hs : s.mode.IsInner) (h : s.next? '"' = some s') :
    (∃ fs asKey chars, s' = ⟨fs, .string asKey chars .none⟩) ∨ s'.mode.IsClosed ∨
      s'.IsSpoilt := by
  obtain ⟨fs, m⟩ := s
  by_cases hnum : ∃ n, m = .numeral n
  · obtain ⟨n, rfl⟩ := hnum
    rcases next?_numeral h with ⟨n', hn, -⟩ | ⟨v, -, -, h⟩
    · cases after?_of_advance hn
    · rw [next?_closed (isClosed_complete fs _) (.inl rfl)] at h
      cases h
  · have hnum' : ∀ n, m ≠ .numeral n := fun n hn => hnum ⟨n, hn⟩
    rw [next?_eq_take hnum', toOption_eq_some] at h
    cases m with
    | value | firstItem | item | firstKey | key =>
        cases h
        exact .inl ⟨_, _, _, rfl⟩
    | colon => cases h
    | after => rcases fs with _ | ⟨_ | _, fs⟩ <;> cases h
    | done v => exact hs.elim
    | word rest v =>
        obtain ⟨hne, halpha⟩ := hs
        obtain ⟨w, ws, rfl⟩ := List.exists_cons_of_ne_nil hne
        have hw : '"' ≠ w := by
          rintro rfl
          exact absurd (halpha '"' List.mem_cons_self) (by decide)
        have htake : take ⟨fs, .word (w :: ws) v⟩ '"' = refuse .expectedIdent := if_pos hw
        rw [htake] at h
        cases h
    | numeral n => exact absurd rfl (hnum' n)
    | string asKey chars esc =>
        cases esc with
        | none =>
            cases h
            exact .inr (.inl (isClosed_closeString fs asKey chars))
        | slash =>
            cases h
            exact .inl ⟨_, _, _, rfl⟩
        | hex high bytes value =>
            have hvalue : (do return (← value) * 16 + (← hexValue? '"') : Option Nat) = none := by
              cases value <;> rfl
            simp only [take, inString, hvalue] at h
            split_ifs at h
            cases h
            exact .inr (.inr ⟨asKey, chars, high, _, rfl⟩)
        | pair high => cases h
        | pairMark high => cases h

/-- The key and the quote behind it cannot be anything else than a key and the beginning of its
value. -/
theorem feed_commandKey {s : State} (hs : s.mode.IsInner) {t : Text} {v : Value}
    (h : Accepts s ('"' :: ("command".toList ++ '"' :: ':' :: ' ' :: '"' :: t)) v) :
    ∃ fs, s.feed ('"' :: ("command".toList ++ ['"', ':', ' ', '"'])) =
      some ⟨fs, .string false [] .none⟩ := by
  obtain ⟨s₁, hquote, h⟩ := accepts_cons.mp h
  rcases next?_quote hs hquote with ⟨fs, asKey, chars, rfl⟩ | hclosed | hspoilt
  · have hword : (⟨fs, .string asKey chars .none⟩ : State).feed "command".toList =
        some ⟨fs, .string asKey ("command".toList.reverse ++ chars) .none⟩ := rfl
    rw [accepts_append hword] at h
    generalize "command".toList.reverse ++ chars = chars' at h hword
    obtain ⟨s₂, hclose, h⟩ := accepts_cons.mp h
    obtain rfl : closeString fs asKey chars' = s₂ := Option.some.inj hclose
    obtain ⟨s₃, hcolon, -⟩ := accepts_cons.mp h
    cases asKey with
    | false =>
        -- a string that is a value has no value behind it
        rcases fs with _ | ⟨_ | _, fs⟩ <;> cases hcolon
    | true =>
        obtain ⟨fs', hkey⟩ : ∃ fs', closeString fs true chars' = ⟨fs', .colon⟩ := by
          rcases fs with _ | ⟨_ | _, fs⟩ <;> exact ⟨_, rfl⟩
        have hvalue : (⟨fs', .colon⟩ : State).feed [':', ' ', '"'] =
            some ⟨fs', .string false [] .none⟩ := rfl
        refine ⟨fs', ?_⟩
        rw [feed_cons, hquote, Option.bind_some, feed_append, hword, Option.bind_some, feed_cons,
          hclose, Option.bind_some, hkey, hvalue]
  · obtain ⟨s₂, hnext, -⟩ := accepts_cons (c := 'c').mp h
    rw [next?_closed hclosed (.inr rfl)] at hnext
    cases hnext
  · exact absurd hspoilt h.not_isSpoilt

end State

theorem closer_mem_of_mem_escaped {t : Text} (h : '}' ∈ t.flatMap escapeChar) : '}' ∈ t := by
  have hhex : ∀ n, '}' ≠ hexDigit n := by
    have hdigits : ∀ k < 16, '}' ≠ Nat.digitChar k := by decide
    exact fun n => hdigits (n % 16) (Nat.mod_lt n (by decide))
  obtain ⟨c, hc, hmem⟩ := List.mem_flatMap.mp h
  obtain rfl : '}' = c := by
    rw [escapeChar] at hmem
    split_ifs at hmem
    case neg => exact List.mem_singleton.mp hmem
    all_goals simp [hhex] at hmem
  exact hc

namespace Layout

variable {L : Layout} {xs ys : List Element} {x : Element} {a b : Text}

/-! ### The search in a layout -/

/-- The reader at the opening brace of an element. -/
theorem feed_opened (h : L.elements = xs ++ x :: ys) :
    ∃ items y, x.text = '{' :: y ∧
      State.Closes 1 ⟨[.object [] ""], .firstKey⟩ y (.object x.members) ∧
      State.start.feed (L.upTo xs x ++ ['{']) =
        some ((⟨[.object [] ""], .firstKey⟩ : State).onto [.array items]) ∧
      L.text = L.upTo xs x ++ ['{'] ++ (y ++ L.onFrom x ys) := by
  obtain ⟨y, htext, hcloses⟩ := x.isObject
  obtain ⟨items, m, hfeed, hm⟩ := L.feed_upTo xs x
  have hbegins : m.BeginsValue := by
    rcases hm with ⟨-, rfl⟩ | ⟨-, rfl⟩ <;> trivial
  refine ⟨items, y, htext, hcloses, ?_, ?_⟩
  · rw [State.feed_append, hfeed, Option.bind_some, State.feed_cons,
      State.next?_brace hbegins (by simp [maxDepth])]
    rfl
  · rw [text_split h, htext]
    simp

theorem braces (h : L.elements = xs ++ x :: ys) (hplain : HasPlainStrings L.text)
    (hflat : IsFlat L.text) :
    ∃ z, x.text = '{' :: (z ++ ['}']) ∧ ∀ c ∈ z, c ≠ '{' ∧ c ≠ '}' := by
  obtain ⟨items, y, htext, hcloses, hfeed, hL⟩ := feed_opened h
  have hle : [Frame.array items].length ≤ 1 := Nat.le_refl 1
  have hbody := hcloses.feed hle
  rw [HasPlainStrings, hL] at hplain
  rw [IsFlat, hL] at hflat
  have hplain' := (State.all_append hbody (State.all_append hfeed hplain).2).1
  have hflat' := (State.all_append hbody (State.all_append hfeed hflat).2).1
  obtain ⟨z, rfl, hz⟩ := hcloses.braces State.isOpen_firstKey ⟨0, rfl⟩ hle hplain' hflat'
  exact ⟨z, htext, hz⟩

theorem quote_notMem_gap {g : Text} (hg : IsGapText g) : '"' ∉ g :=
  fun h => absurd (hg _ h) (by decide)

theorem exists_element_of_quote_tail {xs : List Element} {e a r : Text} (he : '"' ∉ e)
    (h : tailText xs ++ e = a ++ '"' :: r) :
    ∃ ys x zs u w, xs = ys ++ x :: zs ∧ a = tailText ys ++ ',' :: (x.before ++ u) ∧
      x.text = u ++ '"' :: w ∧ r = w ++ (x.after ++ tailText zs ++ e) := by
  have hnone : ∀ {g b r' : Text}, '"' ∉ g → g ≠ b ++ '"' :: r' := by
    rintro g b r' hg rfl
    exact hg (List.mem_append_right b List.mem_cons_self)
  induction xs generalizing a with
  | nil => exact absurd h (hnone he)
  | cons x xs ih =>
      have hcomma : '"' ∉ ',' :: x.before := by
        rw [List.mem_cons, not_or]
        exact ⟨by decide, quote_notMem_gap x.before_gap⟩
      have hsplit : (',' :: x.before) ++ (x.text ++ (x.after ++ (tailText xs ++ e))) =
          a ++ '"' :: r := by
        rw [← h, tailText_cons, Element.slot]
        simp
      rcases Text.append_eq_append_cons hsplit with ⟨r', hr', -⟩ | ⟨a₁, ha, hobject⟩
      · exact absurd hr' (hnone hcomma)
      · rcases Text.append_eq_append_cons hobject with ⟨w, hw, hr⟩ | ⟨a₂, ha₁, hafter⟩
        · exact ⟨[], x, xs, a₁, w, rfl, ha, hw, by simpa using hr⟩
        · rcases Text.append_eq_append_cons hafter with ⟨r', hr', -⟩ | ⟨a₃, ha₂, htail⟩
          · exact absurd hr' (hnone (quote_notMem_gap x.after_gap))
          · obtain ⟨ys, x', zs, u, w, rfl, ha₃, hw, hr⟩ := ih htail
            refine ⟨x :: ys, x', zs, u, w, rfl, ?_, hw, hr⟩
            rw [ha, ha₁, ha₂, ha₃]
            simp [Element.slot]

/-- Every quote stands in an element. -/
theorem exists_element_of_quote {r : Text} (h : L.text = a ++ '"' :: r) :
    ∃ xs x ys u w, L.elements = xs ++ x :: ys ∧ a = L.upTo xs x ++ '{' :: u ∧
      x.text = '{' :: (u ++ '"' :: w) ∧ r = w ++ L.onFrom x ys := by
  have hopening : '"' ∉ L.opening := by
    rw [opening, List.mem_append, not_or]
    exact ⟨quote_notMem_gap L.lead_gap, by decide⟩
  have htrail : '"' ∉ ']' :: L.trail := by
    rw [List.mem_cons, not_or]
    exact ⟨by decide, quote_notMem_gap L.trail_gap⟩
  have hsplit : L.opening ++ (bodyText L.hollow L.elements ++ ']' :: L.trail) = a ++ '"' :: r := by
    rw [← h, text, opening]
    simp
  rcases Text.append_eq_append_cons hsplit with ⟨r', hr', -⟩ | ⟨a', rfl, hbody⟩
  · exact absurd (hr' ▸ List.mem_append_right a List.mem_cons_self) hopening
  · cases hels : L.elements with
    | nil =>
        rw [hels, bodyText] at hbody
        have hmem : '"' ∈ L.hollow ++ ']' :: L.trail :=
          hbody ▸ List.mem_append_right a' List.mem_cons_self
        exact absurd (List.mem_append.mp hmem)
          (not_or.mpr ⟨quote_notMem_gap L.hollow_gap, htrail⟩)
    | cons x₀ xs₀ =>
        -- a comma in front makes all elements alike
        have htail : tailText (x₀ :: xs₀) ++ ']' :: L.trail = (',' :: a') ++ '"' :: r := by
          rw [hels] at hbody
          rw [tailText_cons, List.cons_append, List.cons_append, ← hbody, bodyText]
        obtain ⟨xs, x, ys, u, w, hxs, ha', hw, hr⟩ := exists_element_of_quote_tail htrail htail
        rw [show tailText xs ++ ',' :: (x.before ++ u) = tailText xs ++ [','] ++ (x.before ++ u) by
          simp, ← comma_headText, List.cons_append, List.cons_inj_right] at ha'
        obtain ⟨y, hbrace, -⟩ := x.isObject
        cases u with
        | nil => exact absurd (hw.symm.trans hbrace) (by simp)
        | cons d u =>
            obtain rfl : d = '{' := (List.cons.inj (hw.symm.trans hbrace)).1
            refine ⟨xs, x, ys, u, w, hxs, ?_, hw, hr⟩
            rw [ha', upTo]
            simp only [List.append_assoc]

theorem commandNeedle_eq (command : String) :
    commandNeedle command = '"' :: ("command".toList ++ ['"', ':', ' ', '"']) ++
      (command.toList.flatMap escapeChar ++ ['"']) :=
  rfl

theorem exists_quote_cons (command : String) : ∃ n, commandNeedle command = '"' :: n :=
  ⟨_, commandNeedle_eq command⟩

/-- A command that is found has no closing brace in it, because it is found in a string. -/
theorem closer_notMem_needle {command : String} (hplain : HasPlainStrings L.text)
    (h : L.text = a ++ (commandNeedle command ++ b)) : '}' ∉ commandNeedle command := by
  intro hmem
  have hcommand : '}' ∈ command.toList := by
    rw [commandNeedle_eq, List.mem_append, List.mem_append] at hmem
    rcases hmem with hkey | hcommand | hquote
    · exact absurd hkey (by decide)
    · exact closer_mem_of_mem_escaped hcommand
    · exact absurd hquote (by decide)
  obtain ⟨l, l', hl⟩ := List.append_of_mem hcommand
  have hneedle : commandNeedle command = '"' :: ("command".toList ++ ['"', ':', ' ', '"']) ++
      (l.flatMap escapeChar ++ '}' :: (l'.flatMap escapeChar ++ ['"'])) := by
    rw [commandNeedle_eq, hl, List.flatMap_append, List.flatMap_cons, List.append_assoc,
      List.append_assoc]
    rfl
  obtain ⟨n, hn⟩ := exists_quote_cons command
  have hquote : L.text = a ++ '"' :: (n ++ b) := by rw [h, hn, List.cons_append]
  obtain ⟨xs, x, ys, u, w, hxs, rfl, htext, -⟩ := exists_element_of_quote hquote
  obtain ⟨items, y, hopen, hcloses, hfeed, -⟩ := feed_opened hxs
  obtain rfl : y = u ++ '"' :: w := (List.cons.inj (hopen.symm.trans htext)).2
  have hle : [Frame.array items].length ≤ 1 := Nat.le_refl 1
  obtain ⟨s, hs, hinner, -⟩ :=
    hcloses.split State.isOpen_firstKey (List.cons_ne_nil '"' w) hle
  have hbefore : State.start.feed (L.upTo xs x ++ '{' :: u) = some (s.onto [.array items]) := by
    rw [show L.upTo xs x ++ '{' :: u = (L.upTo xs x ++ ['{']) ++ u by simp, State.feed_append,
      hfeed, Option.bind_some, hinner]
  have haccepts := read_eq_ok_iff.mp L.read_text
  rw [h, State.accepts_append hbefore] at haccepts
  obtain ⟨fs, hkey⟩ := State.feed_commandKey (by rw [hs.onto_eq]; exact hs.2) haccepts
  have hstring := State.feed_escaped fs false [] l
  rw [HasPlainStrings, h, hneedle, List.append_assoc ('"' :: _),
    List.append_assoc (List.flatMap _ l)] at hplain
  have hplain' := (State.all_append hkey (State.all_append hbefore hplain).2).2
  have hbrace := (State.all_append hstring hplain').2
  cases hbrace

/-- A command property that is found lies in an element, between the only braces there. -/
theorem exists_element {command : String} (hplain : HasPlainStrings L.text)
    (hflat : IsFlat L.text) (h : L.text = a ++ (commandNeedle command ++ b)) :
    ∃ xs x ys u w, L.elements = xs ++ x :: ys ∧ a = L.upTo xs x ++ '{' :: u ∧ '{' ∉ u ∧
      x.text = '{' :: (u ++ commandNeedle command ++ w ++ ['}']) ∧
      b = w ++ '}' :: L.onFrom x ys ∧ '}' ∉ w := by
  have hneedle := closer_notMem_needle hplain h
  obtain ⟨n, hn⟩ := exists_quote_cons command
  have hquote : L.text = a ++ '"' :: (n ++ b) := by rw [h, hn, List.cons_append]
  obtain ⟨xs, x, ys, u, w₀, hxs, ha, htext, hrest⟩ := exists_element_of_quote hquote
  obtain ⟨z, hz, hbraces⟩ := braces hxs hplain hflat
  have hz' : z ++ ['}'] = u ++ '"' :: w₀ := (List.cons.inj (hz.symm.trans htext)).2
  -- the quote is not the closing brace
  rcases Text.append_eq_append_cons hz' with ⟨w₁, hzu, hw₀⟩ | ⟨a', -, hbrace⟩
  · have hwhole : commandNeedle command ++ b = ('"' :: w₁) ++ '}' :: L.onFrom x ys := by
      rw [hn, List.cons_append, hrest, hw₀, List.append_assoc]
      rfl
    rcases Text.append_eq_append_cons hwhole with ⟨r', hr', -⟩ | ⟨w, hw, hb⟩
    · exact absurd (hr' ▸ List.mem_append_right _ List.mem_cons_self) hneedle
    · rw [hzu, hw] at hz hbraces
      refine ⟨xs, x, ys, u, w, hxs, ha, fun hmem => ?_, ?_, hb, fun hmem => ?_⟩
      · exact (hbraces _ (List.mem_append_left _ hmem)).1 rfl
      · rw [hz, List.append_assoc u (commandNeedle command) w]
      · exact (hbraces _ (List.mem_append_right u (List.mem_append_right _ hmem))).2 rfl
  · cases a' with
    | nil => cases hbrace
    | cons d a' => exact absurd (congrArg List.length hbrace) (by simp)

end Layout

end Json

/-! ### The search in a document -/

/-- Whether the slice of a text at the span contains another text. -/
def Span.contains (s : Span) (t needle : Text) : Bool :=
  (s.slice? t).any fun x => decide (needle <:+: x)

theorem Json.Layout.contains_iff {L : Layout} {xs ys : List Element} {x : Element}
    (h : L.elements = xs ++ x :: ys) (needle : Text) :
    (Span.after (L.upTo xs x) x.text).contains L.text needle = true ↔ needle <:+: x.text := by
  rw [Span.contains, Json.Layout.text_split h, Span.slice?_after, Option.any_some,
    decide_eq_true_iff]

theorem Json.Layout.exists_occurrence {L : Layout} {xs ys : List Element} {x : Element}
    (h : L.elements = xs ++ x :: ys) {needle : Text}
    (hcontains : (Span.after (L.upTo xs x) x.text).contains L.text needle = true) :
    ∃ u w, x.text = u ++ needle ++ w ∧
      L.text = (L.upTo xs x ++ u) ++ (needle ++ (w ++ L.onFrom x ys)) := by
  obtain ⟨u, w, hx⟩ := (contains_iff h needle).mp hcontains
  refine ⟨u, w, hx.symm, ?_⟩
  rw [text_split h, ← hx]
  simp only [List.append_assoc]

theorem locate?_of_cutFirst {t a u w r : Text} {e : Entry} {command : String}
    (href : e.commandRef? = some command)
    (hcut : Text.cutFirst (commandNeedle command) t = some (a ++ '{' :: u, w ++ '}' :: r))
    (hu : '{' ∉ u) (hw : '}' ∉ w) :
    locate? t e = some (.after a ('{' :: (u ++ commandNeedle command ++ w ++ ['}']))) := by
  have hopen : '{'.utf8Size = 1 := rfl
  have hclose : Text.size ['}'] = 1 := rfl
  have hstop : Text.size (a ++ '{' :: u) + Text.size (commandNeedle command) + Text.size w + 1 =
      Text.size a + Text.size ('{' :: (u ++ commandNeedle command ++ w ++ ['}'])) := by
    simp only [Text.size_append, Text.size_cons, hopen, hclose]
    omega
  rw [Span.after, ← hstop]
  simp [locate?, href, hcut, Text.beforeLast_append hu, Text.beforeFirst_append hw]

/-- Where no object is inside another one and no string holds a brace, the search finds the first
element of the walk that contains the command property, and nothing if there is none. -/
theorem search_eq_walk {t : Text} {es : List Entry} (h : Document.parse t = .ok es)
    (hplain : Json.HasPlainStrings t) (hflat : Json.IsFlat t) {e : Entry} {command : String}
    (hcommand : e.command = some command) (hne : command ≠ "") :
    locate? t e = (elementSpans t).find? fun s => s.contains t (commandNeedle command) := by
  have hordered := pairwise_elementSpans h
  obtain ⟨L, rfl, -⟩ := Document.parse_eq_ok_iff.mp h
  have href : e.commandRef? = some command := by
    rw [Entry.commandRef?, hcommand, Option.filter_some, if_pos (by simpa using hne)]
  cases hcut : Text.cutFirst (commandNeedle command) L.text with
  | none =>
      have hnone : locate? L.text e = none := by
        simp [locate?, href, hcut]
      rw [hnone, eq_comm, List.find?_eq_none]
      intro s hs hcontains
      obtain ⟨i, hi⟩ := List.mem_iff_getElem?.mp hs
      obtain ⟨xs, x, ys, hxs, -, rfl, -⟩ := L.exists_split hi
      obtain ⟨u, w, -, htext⟩ := Json.Layout.exists_occurrence hxs hcontains
      exact Text.cutFirst_eq_none hcut _ _ htext
  | some ab =>
      obtain ⟨a, b⟩ := ab
      obtain ⟨htext, hfirst⟩ := Text.cutFirst_eq_some hcut
      obtain ⟨xs, x, ys, u, w, hxs, rfl, hu, hx, rfl, hw⟩ :=
        Json.Layout.exists_element hplain hflat htext
      obtain ⟨hlt, hat⟩ := List.getElem?_eq_some_iff.mp (Json.Layout.getElem?_spans hxs)
      simp only [← L.elementSpans_text] at hlt hat
      rw [locate?_of_cutFirst href hcut hu hw, ← hx, eq_comm, List.find?_eq_some_iff_getElem]
      refine ⟨(Json.Layout.contains_iff hxs _).mpr ⟨'{' :: u, w ++ ['}'], ?_⟩, xs.length, hlt, hat,
        fun j hj => ?_⟩
      · rw [hx]
        simp
      · -- an earlier element with the property would have it before its first occurrence
        have hj' := Nat.lt_trans hj hlt
        rw [Bool.not_eq_true', ← Bool.not_eq_true]
        intro hcontains
        obtain ⟨xs', x', ys', hxs', -, hat', -⟩ := L.exists_split (List.getElem?_eq_getElem hj')
        have hbefore := List.pairwise_iff_getElem.mp hordered j xs.length hj' hlt hj
        rw [hat', hat] at hbefore
        rw [hat'] at hcontains
        obtain ⟨u', w', hx', htext'⟩ := Json.Layout.exists_occurrence hxs' hcontains
        have hle := hfirst _ _ htext'
        simp only [Span.after, hx', Text.size_append, Text.size_cons] at hbefore hle
        omega

def quotedCommand : Text :=
  "[\x7b\"key\": \"ctrl+k\"\x7d, \x7b\"command\": \"say \\\"hi\\\"\"\x7d]".toList

theorem search_eq_walk_quotes :
    locate? quotedCommand { command := some "say \"hi\"" } = some ⟨20, 45⟩ :=
  (search_eq_walk (t := quotedCommand) rfl (by decide +kernel) (by decide +kernel) rfl
    (by decide)).trans (by decide +kernel)

end Keybindings
