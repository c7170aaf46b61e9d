import Keybindings.Proofs.Json.Moves

/-!
Where a value that was begun comes to its end.

`State.Closes` holds of the text from inside a container up to its closing bracket, and of nothing
that stands around the container.  From a text that is accepted such a piece can be cut off
(`State.closes_of_accepts`), and it can be put into any other place that is not deeper
(`State.Closes.feed`).  Values without parts end before the text does as well, so that every value
that begins in an accepted text also ends in it (`State.accepts_beginValue`).
-/

namespace Keybindings.Json

theorem Value.exists_object {v : Value} (h : v.isObject = true) : ∃ ms, v = .object ms := by
  cases v with
  | object ms => exact ⟨ms, rfl⟩
  | _ => cases h

namespace State

/-- Whether the outermost container of a state is an object. -/
def base? (s : State) : Option Bool :=
  s.frames.getLast?.map Frame.isObject

/-- From the open state `s` the text `y` leads to the bracket that closes the outermost container,
whose value is `u`.  Up to `n` further containers may be open around it. -/
inductive Closes (n : Nat) : State → Text → Value → Prop
  | last {s c u}
      (h : ∀ outer, outer.length ≤ n → (s.onto outer).next? c = some (complete outer u)) :
      Closes n s [c] u
  | next {s s' c y u}
      (h : ∀ outer, outer.length ≤ n → (s.onto outer).next? c = some (s'.onto outer))
      (hs' : s'.IsOpen) (hy : Closes n s' y u) : Closes n s (c :: y) u

theorem Closes.feed {n : Nat} {s : State} {y : Text} {u : Value} (h : Closes n s y u)
    {outer : List Frame} (hle : outer.length ≤ n) :
    (s.onto outer).feed y = some (complete outer u) := by
  induction h with
  | last h => simp [h outer hle]
  | next h _ _ ih => simp [h outer hle, ih]

theorem Closes.ne_nil {n : Nat} {s : State} {y : Text} {u : Value} (h : Closes n s y u) :
    y ≠ [] := by
  cases h <;> simp

theorem Closes.not_isSpoilt {n : Nat} {s : State} {y : Text} {u : Value} (hs : s.IsOpen)
    (h : Closes n s y u) : ¬ s.IsSpoilt := by
  induction h with
  | last h =>
      intro hspoilt
      have hlast := h [] (Nat.zero_le n)
      rw [hs.onto_nil] at hlast
      exact not_isSpoilt_complete [] _ (hspoilt.next hlast)
  | next h hs' _ ih =>
      intro hspoilt
      have hnext := h [] (Nat.zero_le n)
      rw [hs.onto_nil, hs'.onto_nil] at hnext
      exact ih hs' (hspoilt.next hnext)

theorem base?_cons (f : Frame) (fs : List Frame) (hne : fs ≠ []) (m m' : Mode) :
    (⟨f :: fs, m⟩ : State).base? = (⟨fs, m'⟩ : State).base? := by
  rw [base?, base?, List.getLast?_cons_of_ne_nil hne]

theorem base?_congr {f g : Frame} (h : g.isObject = f.isObject) (fs : List Frame) (m m' : Mode) :
    (⟨g :: fs, m⟩ : State).base? = (⟨f :: fs, m'⟩ : State).base? := by
  cases fs with
  | nil => simp [base?, h]
  | cons f₁ fs => rw [base?_cons g _ (by simp) m m', base?_cons f _ (by simp) m' m']

/-- One character inside a container either stays inside or is the bracket that closes it. -/
theorem IsOpen.next {s s' : State} {c : Char} {isObject : Bool} (hs : s.IsOpen)
    (hbase : s.base? = some isObject) (h : s.next? c = some s') (hspoilt : ¬ s'.IsSpoilt) :
    s'.IsOpen ∧ s'.base? = some isObject ∨
      ∃ u : Value, s' = ⟨[], .done u⟩ ∧ c = closer isObject ∧ u.isObject = isObject := by
  obtain ⟨fs, m⟩ := s
  obtain ⟨f, fs, rfl⟩ := List.exists_cons_of_ne_nil hs.1
  have hmoves := (next?_moves hs.2 h).resolve_right hspoilt
  cases hmoves with
  | @stay g m' hkind hm' hq =>
      exact .inl ⟨⟨by simp, hm'⟩, (base?_congr hkind fs m' m).trans hbase⟩
  | @push g f' m' hkind hq hc hm' hq' =>
      refine .inl ⟨⟨by simp, hm'⟩, ?_⟩
      rw [base?_cons g _ (by simp) m' m, base?_congr hkind fs m m, hbase]
  | @pop v hq hc hv =>
      cases fs with
      | nil =>
          -- the innermost container is the outermost one
          obtain rfl : f.isObject = isObject := by simpa [base?] using hbase
          exact .inr ⟨v, rfl, hc, hv⟩
      | cons f₁ fs =>
          obtain ⟨g, hkind, hg⟩ := exists_complete_cons f₁ v
          rw [hg]
          refine .inl ⟨⟨by simp, trivial⟩, ?_⟩
          rw [base?_congr hkind fs .after m, ← base?_cons f _ (by simp) m m, hbase]

/-- A value after which a container is open was in that container. -/
theorem IsOpen.exists_cons {fs : List Frame} {v : Value} (h : (complete fs v).IsOpen) :
    ∃ f fs', fs = f :: fs' :=
  List.exists_cons_of_ne_nil (by rintro rfl; exact h.1 rfl)

theorem Closes.isObject_eq {n : Nat} {s : State} {y : Text} {u : Value} {isObject : Bool}
    (hs : s.IsOpen) (hbase : s.base? = some isObject) (h : Closes n s y u) :
    u.isObject = isObject ∧ y.getLast? = some (closer isObject) := by
  induction h with
  | @last s c u h =>
      have hlast := h [] (Nat.zero_le n)
      rw [hs.onto_nil] at hlast
      rcases hs.next hbase hlast (not_isSpoilt_complete [] u) with ⟨hopen, -⟩ | ⟨u', hu, hc, hkind⟩
      · exact absurd rfl hopen.1
      · cases hu
        exact ⟨hkind, by simp [hc]⟩
  | @next s s' c y u h hs' hy ih =>
      have hnext := h [] (Nat.zero_le n)
      rw [hs.onto_nil, hs'.onto_nil] at hnext
      rcases hs.next hbase hnext (hy.not_isSpoilt hs') with ⟨-, hbase'⟩ | ⟨u', rfl, -⟩
      · obtain ⟨hkind, hlast⟩ := ih hs' hbase'
        obtain ⟨d, y, rfl⟩ := List.exists_cons_of_ne_nil hy.ne_nil
        exact ⟨hkind, by rw [List.getLast?_cons_cons, hlast]⟩
      · exact absurd rfl hs'.1

theorem isOpen_firstItem : (⟨[.array []], .firstItem⟩ : State).IsOpen :=
  ⟨by simp, trivial⟩

theorem isOpen_firstKey : (⟨[.object [] ""], .firstKey⟩ : State).IsOpen :=
  ⟨by simp, trivial⟩

/-- No text ends inside a container. -/
theorem value?_eq_none {s : State} (hne : s.frames ≠ []) (hm : ∀ v, s.mode ≠ .done v) :
    s.value? = none := by
  obtain ⟨fs, m⟩ := s
  obtain ⟨f, fs, rfl⟩ := List.exists_cons_of_ne_nil hne
  cases m with
  | done v => exact absurd rfl (hm v)
  | numeral n =>
      cases hn : n.finish with
      | error cause => exact value?_numeral_error hn
      | ok v =>
          rw [value?_numeral hn]
          cases f <;> rfl
  | _ => rfl

/-- The rest of an accepted text goes on at least to the end of a container that is open. -/
theorem closes_of_accepts {s : State} (outer : List Frame) {t : Text} {v : Value} (hs : s.IsOpen)
    (h : Accepts (s.onto outer) t v) :
    ∃ y t' u, t = y ++ t' ∧ Closes outer.length s y u ∧ Accepts (complete outer u) t' v := by
  induction t generalizing s with
  | nil =>
      rw [accepts_nil, hs.onto_eq] at h
      exact absurd h (by simp [value?_eq_none, hs.1, hs.mode_ne_done])
  | cons c t ih =>
      obtain ⟨s₁, hnext, haccepts⟩ := accepts_cons.mp h
      obtain ⟨s', hbase, rfl, hlocal⟩ := next?_onto hs hnext
      -- a spoilt escape could not be in an accepted text
      have hspoilt : ¬ s'.IsSpoilt := by
        rintro ⟨asKey, chars, high, bytes, hm⟩
        refine haccepts.not_isSpoilt ⟨asKey, chars, high, bytes, ?_⟩
        rw [onto, hm]
      obtain ⟨isObject, hkind⟩ : ∃ isObject, s.base? = some isObject := by
        obtain ⟨f, hf⟩ := List.getLast?_isSome.mpr hs.1 |> Option.isSome_iff_exists.mp
        exact ⟨f.isObject, by rw [base?, hf, Option.map_some]⟩
      rcases hs.next hkind hbase hspoilt with ⟨hopen, -⟩ | ⟨u, rfl, -⟩
      · obtain ⟨y, t', u, rfl, hy, ht'⟩ := ih hopen haccepts
        exact ⟨c :: y, t', u, rfl, .next hlocal hopen hy, ht'⟩
      · exact ⟨[c], t, u, rfl, .last hlocal, haccepts⟩

end State

/-! ### Values without parts -/

def IsGapText (t : Text) : Prop :=
  ∀ c ∈ t, isGap c

theorem isGapText_nil : IsGapText [] := by
  simp [IsGapText]

theorem IsGapText.append {a b : Text} (ha : IsGapText a) (hb : IsGapText b) :
    IsGapText (a ++ b) := by
  intro c hc
  rcases List.mem_append.mp hc with hc | hc
  · exact ha c hc
  · exact hb c hc

def Value.isContainer : Value → Bool
  | .array _ | .object _ => true
  | _ => false

/-- The modes of a reader that is inside a value without parts. -/
def Mode.IsScalar : Mode → Prop
  | .word _ v => v.isContainer = false
  | .numeral _ => True
  | .string asKey _ _ => asKey = false
  | _ => False

namespace State

theorem accepts_done {u v : Value} {t : Text} (h : Accepts ⟨[], .done u⟩ t v) :
    v = u ∧ IsGapText t := by
  induction t with
  | nil =>
      cases accepts_nil.mp h
      exact ⟨rfl, isGapText_nil⟩
  | cons c t ih =>
      obtain ⟨s, hs, h⟩ := accepts_cons.mp h
      rw [next?_eq_take (by simp), toOption_eq_some] at hs
      simp only [take, separate, refuse] at hs
      split_ifs at hs with hc
      cases hs
      obtain ⟨rfl, ht⟩ := ih h
      refine ⟨rfl, fun d hd => ?_⟩
      rcases List.mem_cons.mp hd with rfl | hd
      · exact hc
      · exact ht d hd

/-- One character inside a string either stays inside or ends the string. -/
theorem inString_cases {fs : List Frame} {asKey : Bool} {chars : List Char} {esc : Escape}
    {c : Char} {s : State} (h : inString fs asKey chars esc c = .ok s) :
    (∃ chars' esc', s = ⟨fs, .string asKey chars' esc'⟩) ∨ s = closeString fs asKey chars := by
  cases esc with
  | none =>
      simp only [inString, refuse] at h
      split_ifs at h <;> cases h
      · exact .inr rfl
      · exact .inl ⟨_, _, rfl⟩
      · exact .inl ⟨_, _, rfl⟩
  | slash =>
      simp only [inString, refuse] at h
      split_ifs at h
      · cases h
        exact .inl ⟨_, _, rfl⟩
      · cases hc : unescape? c with
        | none =>
            simp only [hc] at h
            cases h
        | some c' =>
            simp only [hc] at h
            cases h
            exact .inl ⟨_, _, rfl⟩
  | hex high bytes value =>
      simp only [inString, refuse] at h
      split_ifs at h
      · cases h
        exact .inl ⟨_, _, rfl⟩
      · split at h
        · cases h
        · split at h <;> cases h
          exact .inl ⟨_, _, rfl⟩
  | pair high =>
      simp only [inString, refuse] at h
      split_ifs at h
      cases h
      exact .inl ⟨_, _, rfl⟩
  | pairMark high =>
      simp only [inString, refuse] at h
      split_ifs at h
      cases h
      exact .inl ⟨_, _, rfl⟩

theorem next?_scalar {fs : List Frame} {m : Mode} {c : Char} {s : State} (hm : m.IsScalar)
    (h : (⟨fs, m⟩ : State).next? c = some s) :
    (∃ m' : Mode, m'.IsScalar ∧ s = ⟨fs, m'⟩) ∨
      ∃ u : Value, u.isContainer = false ∧
        (s = complete fs u ∨ (complete fs u).next? c = some s) := by
  cases m with
  | word rest v =>
      rw [next?_eq_take (by simp), toOption_eq_some] at h
      cases rest with
      | nil =>
          cases h
          exact .inr ⟨v, hm, .inl rfl⟩
      | cons w ws =>
          simp only [take, refuse] at h
          split_ifs at h
          · cases h
            exact .inr ⟨v, hm, .inl rfl⟩
          · cases h
            exact .inl ⟨.word ws v, hm, rfl⟩
  | numeral n =>
      rcases next?_numeral h with ⟨n', -, rfl⟩ | ⟨v, -, -, h⟩
      · exact .inl ⟨.numeral n', trivial, rfl⟩
      · exact .inr ⟨.number v, rfl, .inr h⟩
  | string asKey chars esc =>
      obtain rfl : asKey = false := hm
      rw [next?_eq_take (by simp), toOption_eq_some] at h
      rcases inString_cases h with ⟨chars', esc', rfl⟩ | rfl
      · exact .inl ⟨.string false chars' esc', rfl, rfl⟩
      · exact .inr ⟨.string (String.ofList chars.reverse), rfl, .inl rfl⟩
  | _ => exact hm.elim

theorem accepts_scalar {fs : List Frame} {m : Mode} {t : Text} {v : Value} (hm : m.IsScalar)
    (h : Accepts ⟨fs, m⟩ t v) :
    ∃ y t' u, t = y ++ t' ∧ u.isContainer = false ∧ Accepts (complete fs u) t' v := by
  induction t generalizing m with
  | nil =>
      cases m with
      | numeral n =>
          -- nothing but the end of the text ends the number
          rw [accepts_nil] at h
          cases hn : n.finish with
          | error cause =>
              rw [value?_numeral_error hn] at h
              cases h
          | ok u =>
              rw [value?_numeral hn] at h
              exact ⟨[], [], .number u, rfl, rfl, accepts_nil.mpr h⟩
      | word rest u => cases accepts_nil.mp h
      | string asKey chars esc => cases accepts_nil.mp h
      | _ => exact hm.elim
  | cons c t ih =>
      obtain ⟨s, hs, h⟩ := accepts_cons.mp h
      rcases next?_scalar hm hs with ⟨m', hm', rfl⟩ | ⟨u, hu, rfl | hs'⟩
      · obtain ⟨y, t', u, rfl, hu, h⟩ := ih hm' h
        exact ⟨c :: y, t', u, rfl, hu, h⟩
      · exact ⟨[c], t, u, rfl, hu, h⟩
      · exact ⟨[], c :: t, u, rfl, hu, accepts_cons.mpr ⟨s, hs', h⟩⟩

/-- The first character of a value decides on its kind. -/
theorem beginValue_cases {fs : List Frame} {c : Char} {s : State} (h : beginValue fs c = .ok s) :
    (c = '[' ∧ s = ⟨.array [] :: fs, .firstItem⟩) ∨
      (c = '{' ∧ s = ⟨.object [] "" :: fs, .firstKey⟩) ∨
        ∃ m : Mode, m.IsScalar ∧ s = ⟨fs, m⟩ := by
  unfold beginValue openFrame refuse at h
  split_ifs at h with hn ht hf hminus hquote hlist hdepth hobject hdepth
  · cases h
    exact .inr (.inr ⟨.word ['u', 'l', 'l'] .null, rfl, rfl⟩)
  · cases h
    exact .inr (.inr ⟨.word ['r', 'u', 'e'] (.bool true), rfl, rfl⟩)
  · cases h
    exact .inr (.inr ⟨.word ['a', 'l', 's', 'e'] (.bool false), rfl, rfl⟩)
  · cases h
    exact .inr (.inr ⟨.numeral .minus, trivial, rfl⟩)
  · cases h
    exact .inr (.inr ⟨.string false [] .none, rfl, rfl⟩)
  · cases h
    exact .inl ⟨hlist, rfl⟩
  · cases h
    exact .inr (.inl ⟨hobject, rfl⟩)
  · cases hd : Numeral.digit? c with
    | none =>
        rw [hd] at h
        cases h
    | some d =>
        rw [hd] at h
        cases h
        exact .inr (.inr ⟨.numeral (.first false d), trivial, rfl⟩)

theorem accepts_beginValue {fs : List Frame} {c : Char} {s : State} {t : Text} {v : Value}
    (hs : beginValue fs c = .ok s) (h : Accepts s t v) :
    ∃ y t' u, t = y ++ t' ∧ Accepts (complete fs u) t' v ∧
      ∀ ms, u = .object ms →
        c = '{' ∧ Closes fs.length ⟨[.object [] ""], .firstKey⟩ y (.object ms) := by
  rcases beginValue_cases hs with ⟨rfl, rfl⟩ | ⟨rfl, rfl⟩ | ⟨m, hm, rfl⟩
  · obtain ⟨y, t', u, rfl, hy, h⟩ := closes_of_accepts fs isOpen_firstItem h
    refine ⟨y, t', u, rfl, h, ?_⟩
    rintro ms rfl
    cases (hy.isObject_eq isOpen_firstItem rfl).1
  · obtain ⟨y, t', u, rfl, hy, h⟩ := closes_of_accepts fs isOpen_firstKey h
    refine ⟨y, t', u, rfl, h, ?_⟩
    rintro ms rfl
    exact ⟨rfl, hy⟩
  · obtain ⟨y, t', u, rfl, hu, h⟩ := accepts_scalar hm h
    refine ⟨y, t', u, rfl, h, ?_⟩
    rintro ms rfl
    cases hu

end State

end Keybindings.Json
