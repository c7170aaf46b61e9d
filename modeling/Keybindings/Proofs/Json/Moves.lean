import Keybindings.Location
import Keybindings.Proofs.Json.Locality
import Mathlib.Tactic.SplitIfs

/-!
What one character does inside an open container.

A character leaves the open containers alone, opens one more or closes the innermost one.
`State.next?_moves` says which of these it is by looking at the character and at the quotes only,
which is all that a walk through a text sees of it.
-/

namespace Keybindings

/-- What follows the quotes after a character that is no bracket. -/
def Quoting.after? (q : Quoting) (c : Char) : Option Quoting :=
  match q with
  | .escaped => some .inside
  | .inside => some (if c = '\\' then .escaped else if c = '"' then .outside else .inside)
  | .outside =>
    if c = '"' then some .inside
    else if c = '{' ∨ c = '}' ∨ c = '[' ∨ c = ']' then none
    else some .outside

end Keybindings

namespace Keybindings.Json

def Value.isObject : Value → Bool
  | .object _ => true
  | _ => false

/-- The bracket that opens a container. -/
def opener (isObject : Bool) : Char := if isObject then '{' else '['

/-- The bracket that closes a container. -/
def closer (isObject : Bool) : Char := if isObject then '}' else ']'

/-- A mode as seen by one who follows the quotes and nothing else. -/
def Mode.quoting : Mode → Quoting
  | .string _ _ .slash | .string _ _ (.pairMark _) => .escaped
  | .string _ _ _ => .inside
  | _ => .outside

namespace State

/-- A `u` escape that holds something else than digits.  The reader refuses it only at its end. -/
def IsSpoilt (s : State) : Prop :=
  ∃ asKey chars high bytes, s.mode = .string asKey chars (.hex high bytes none)

/-- What one character does to the containers `f :: fs` that are open, and to the quotes. -/
inductive Moves (f : Frame) (fs : List Frame) (m : Mode) (c : Char) : State → Prop
  | stay {g m'} (hkind : g.isObject = f.isObject) (hm' : m'.IsInner)
      (hq : m.quoting.after? c = some m'.quoting) : Moves f fs m c ⟨g :: fs, m'⟩
  | push {g f' m'} (hkind : f'.isObject = f.isObject) (hq : m.quoting = .outside)
      (hc : c = opener g.isObject) (hm' : m'.IsInner) (hq' : m'.quoting = .outside) :
      Moves f fs m c ⟨g :: f' :: fs, m'⟩
  | pop {v : Value} (hq : m.quoting = .outside) (hc : c = closer f.isObject)
      (hv : v.isObject = f.isObject) : Moves f fs m c (complete fs v)

theorem after?_of_isGap {c : Char} (h : isGap c) : Quoting.outside.after? c = some .outside := by
  simp only [isGap, Bool.or_eq_true, beq_iff_eq] at h
  rcases h with ((rfl | rfl) | rfl) | rfl <;> rfl

theorem after?_of_isAlpha {c : Char} (h : c.isAlpha) :
    Quoting.outside.after? c = some .outside := by
  have hne : ∀ d : Char, d.isAlpha = false → c ≠ d := by
    rintro d hd rfl
    simp [hd] at h
  simp [Quoting.after?, hne '"' rfl, hne '{' rfl, hne '}' rfl, hne '[' rfl, hne ']' rfl]

theorem after?_of_isDigit {c : Char} (h : c.isDigit) :
    Quoting.outside.after? c = some .outside := by
  have hne : ∀ d : Char, d.isDigit = false → c ≠ d := by
    rintro d hd rfl
    simp [hd] at h
  simp [Quoting.after?, hne '"' rfl, hne '{' rfl, hne '}' rfl, hne '[' rfl, hne ']' rfl]

theorem digit?_eq_some {c : Char} {d : Nat} (h : Numeral.digit? c = some d) : c.isDigit := by
  simp only [Numeral.digit?] at h
  split at h
  · assumption
  · cases h

/-- No character of a number is a quote or a bracket. -/
theorem after?_of_advance {n n' : Numeral} {c : Char} (h : n.advance c = .ok (some n')) :
    Quoting.outside.after? c = some .outside := by
  have hdigit : ∀ d, Numeral.digit? c = some d → Quoting.outside.after? c = some .outside :=
    fun d hd => after?_of_isDigit (digit?_eq_some hd)
  have hmark : Numeral.isExponentMark c → Quoting.outside.after? c = some .outside := by
    intro hc
    simp only [Numeral.isExponentMark, Bool.or_eq_true, beq_iff_eq] at hc
    rcases hc with rfl | rfl <;> rfl
  cases n <;> simp only [Numeral.advance] at h <;> grind [after?_of_isDigit, Quoting.after?]

theorem moves_complete {f : Frame} {fs : List Frame} {m : Mode} {c : Char} {v : Value}
    (hq : m.quoting.after? c = some .outside) : Moves f fs m c (complete (f :: fs) v) := by
  obtain ⟨g, hkind, hg⟩ := exists_complete_cons f v
  rw [hg]
  exact .stay hkind trivial hq

theorem moves_beginValue {f : Frame} {fs : List Frame} {m : Mode} {c : Char} {s : State}
    (hm : m.quoting = .outside) (h : beginValue (f :: fs) c = .ok s) : Moves f fs m c s := by
  have hstay : ∀ {m' : Mode}, m'.IsInner → Quoting.outside.after? c = some m'.quoting →
      Moves f fs m c ⟨f :: fs, m'⟩ := fun hm' hq => .stay rfl hm' (hm ▸ hq)
  have hopen : ∀ (g : Frame) (m' : Mode), c = opener g.isObject → m'.IsInner →
      m'.quoting = .outside → openFrame (f :: fs) g m' = .ok s → Moves f fs m c s := by
    intro g m' hc hm' hq' h
    unfold openFrame at h
    split at h
    · cases h
      exact .push rfl hm hc hm' hq'
    · cases h
  unfold beginValue at h
  split_ifs at h with hn ht hf hminus hquote hlist hobject
  · cases h
    exact hstay ⟨by simp, List.all_eq_true.mp rfl⟩ (hn ▸ rfl)
  · cases h
    exact hstay ⟨by simp, List.all_eq_true.mp rfl⟩ (ht ▸ rfl)
  · cases h
    exact hstay ⟨by simp, List.all_eq_true.mp rfl⟩ (hf ▸ rfl)
  · cases h
    exact hstay trivial (hminus ▸ rfl)
  · cases h
    exact hstay trivial (hquote ▸ rfl)
  · exact hopen (.array []) .firstItem hlist trivial rfl h
  · exact hopen (.object [] "") .firstKey hobject trivial rfl h
  · cases hd : Numeral.digit? c with
    | none =>
        rw [hd] at h
        cases h
    | some d =>
        rw [hd] at h
        cases h
        exact hstay trivial (after?_of_isDigit (digit?_eq_some hd))

theorem moves_separate {f : Frame} {fs : List Frame} {m : Mode} {c : Char} {s : State}
    (hm : m.IsInner) (hq : m.quoting = .outside) (h : separate ⟨f :: fs, m⟩ c = .ok s) :
    Moves f fs m c s := by
  have hgap : isGap c → Moves f fs m c ⟨f :: fs, m⟩ :=
    fun hc => .stay rfl hm (hq ▸ after?_of_isGap hc)
  cases f with
  | array items =>
      simp only [separate] at h
      split_ifs at h with hc hcomma hclose
      · cases h
        exact hgap hc
      · cases h
        exact .stay rfl trivial (hq ▸ hcomma ▸ rfl)
      · cases h
        exact .pop hq hclose rfl
      · cases h
  | object members key =>
      simp only [separate] at h
      split_ifs at h with hc hcomma hclose
      · cases h
        exact hgap hc
      · cases h
        exact .stay rfl trivial (hq ▸ hcomma ▸ rfl)
      · cases h
        exact .pop hq hclose rfl
      · cases h

theorem moves_closeString {f : Frame} {fs : List Frame} {m : Mode} {c : Char} {asKey : Bool}
    {chars : List Char} (hq : m.quoting.after? c = some .outside) :
    Moves f fs m c (closeString (f :: fs) asKey chars) := by
  cases asKey with
  | false => exact moves_complete hq
  | true =>
      cases f with
      | array items => exact .stay rfl trivial hq
      | object members key => exact .stay rfl trivial hq

theorem hexValue?_eq_some {c : Char} {n : Nat} (h : hexValue? c = some n) :
    Quoting.inside.after? c = some .inside := by
  have hq : c ≠ '"' ∧ c ≠ '\\' := by
    constructor <;> rintro rfl <;> simp [hexValue?] at h
  simp [Quoting.after?, hq]

theorem moves_inString {f : Frame} {fs : List Frame} {asKey : Bool} {chars : List Char}
    {esc : Escape} {c : Char} {s : State} (h : inString (f :: fs) asKey chars esc c = .ok s) :
    Moves f fs (.string asKey chars esc) c s ∨ s.IsSpoilt := by
  have hstay : ∀ {chars' esc'}, (Mode.string asKey chars esc).quoting.after? c =
        some (Mode.string asKey chars' esc').quoting →
      Moves f fs (.string asKey chars esc) c ⟨f :: fs, .string asKey chars' esc'⟩ :=
    fun hq => .stay rfl trivial hq
  cases esc with
  | none =>
      left
      simp only [inString] at h
      split_ifs at h with hquote hslash hcontrol
      · cases h
        exact moves_closeString (hquote ▸ rfl)
      · cases h
        exact hstay (hslash ▸ rfl)
      · cases h
      · cases h
        exact hstay (by simp [Mode.quoting, Quoting.after?, hquote, hslash])
  | slash =>
      left
      simp only [inString] at h
      split_ifs at h with hu
      · cases h
        exact hstay rfl
      · cases hc : unescape? c with
        | none =>
            rw [hc] at h
            cases h
        | some c' =>
            rw [hc] at h
            cases h
            exact hstay rfl
  | hex high bytes value =>
      simp only [inString] at h
      cases hv : (do return (← value) * 16 + (← hexValue? c) : Option Nat) with
      | none =>
          -- a spoilt escape may hold any character, also a quote, which a walk takes for the end
          right
          rw [hv] at h
          split_ifs at h with hlt
          · cases h
            exact ⟨asKey, chars, high, bytes + c.utf8Size, rfl⟩
      | some n =>
          left
          have hc : Quoting.inside.after? c = some .inside := by
            cases hd : hexValue? c with
            | none => cases value <;> simp [hd] at hv
            | some d => exact hexValue?_eq_some hd
          rw [hv] at h
          split_ifs at h with hlt
          · cases h
            exact hstay hc
          · cases hx : closeHex chars high n with
            | error cause =>
                simp only [hx] at h
                cases h
            | ok p =>
                simp only [hx] at h
                cases h
                refine hstay (hc.trans (congrArg some ?_))
                unfold closeHex at hx
                split at hx <;> split_ifs at hx <;> cases hx <;> rfl
  | pair high =>
      left
      simp only [inString] at h
      split_ifs at h with hslash
      · cases h
        exact hstay (hslash ▸ rfl)
      · cases h
  | pairMark high =>
      left
      simp only [inString] at h
      split_ifs at h with hu
      · cases h
        exact hstay rfl
      · cases h

theorem moves_take {f : Frame} {fs : List Frame} {m : Mode} {c : Char} {s : State}
    (hm : m.IsInner) (hnum : ∀ n, m ≠ .numeral n) (h : take ⟨f :: fs, m⟩ c = .ok s) :
    Moves f fs m c s ∨ s.IsSpoilt := by
  have hgap : m.quoting = .outside → isGap c → Moves f fs m c ⟨f :: fs, m⟩ :=
    fun hq hc => .stay rfl hm (hq ▸ after?_of_isGap hc)
  have hkey : m.quoting = .outside → c = '"' →
      Moves f fs m c ⟨f :: fs, .string true [] .none⟩ :=
    fun hq hc => .stay rfl trivial (hq ▸ hc ▸ rfl)
  cases m with
  | value =>
      left
      simp only [take] at h
      split_ifs at h with hc
      · cases h
        exact hgap rfl hc
      · exact moves_beginValue rfl h
  | firstItem =>
      left
      simp only [take] at h
      split_ifs at h with hc hclose
      · cases h
        exact hgap rfl hc
      · exact moves_separate hm rfl h
      · exact moves_beginValue rfl h
  | item =>
      left
      simp only [take] at h
      split_ifs at h with hc hclose
      · cases h
        exact hgap rfl hc
      · cases h
      · exact moves_beginValue rfl h
  | firstKey =>
      left
      simp only [take] at h
      split_ifs at h with hc hquote hclose
      · cases h
        exact hgap rfl hc
      · cases h
        exact hkey rfl hquote
      · exact moves_separate hm rfl h
      · cases h
  | key =>
      left
      simp only [take] at h
      split_ifs at h with hc hquote hclose
      · cases h
        exact hgap rfl hc
      · cases h
        exact hkey rfl hquote
      · cases h
      · cases h
  | colon =>
      left
      simp only [take] at h
      split_ifs at h with hc hcolon
      · cases h
        exact hgap rfl hc
      · cases h
        exact .stay rfl trivial (hcolon ▸ rfl)
      · cases h
  | after =>
      left
      exact moves_separate hm rfl h
  | done v => exact hm.elim
  | word rest v =>
      left
      obtain ⟨hne, halpha⟩ := hm
      obtain ⟨w, ws, rfl⟩ := List.exists_cons_of_ne_nil hne
      simp only [take] at h
      split_ifs at h with hcw hws
      · cases h
      · cases h
        obtain rfl : c = w := Decidable.not_not.mp hcw
        exact moves_complete (after?_of_isAlpha (halpha c List.mem_cons_self))
      · cases h
        obtain rfl : c = w := Decidable.not_not.mp hcw
        exact .stay rfl ⟨hws, fun d hd => halpha d (List.mem_cons_of_mem c hd)⟩
          (after?_of_isAlpha (halpha c List.mem_cons_self))
  | numeral n => exact absurd rfl (hnum n)
  | string asKey chars esc => exact moves_inString h

theorem Moves.congr {f f' : Frame} {fs : List Frame} {m m' : Mode} {c : Char} {s : State}
    (h : Moves f' fs m' c s) (hkind : f'.isObject = f.isObject) (hq : m'.quoting = m.quoting) :
    Moves f fs m c s := by
  cases h with
  | stay hg hm hc => exact .stay (hg.trans hkind) hm (hq ▸ hc)
  | push hg ho hc hm hq' => exact .push (hg.trans hkind) (hq ▸ ho) hc hm hq'
  | pop ho hc hv => exact .pop (hq ▸ ho) (hkind ▸ hc) (hv.trans hkind)

/-- One character inside an open container, unless it spoils an escape. -/
theorem next?_moves {f : Frame} {fs : List Frame} {m : Mode} {c : Char} {s : State}
    (hm : m.IsInner) (h : (⟨f :: fs, m⟩ : State).next? c = some s) :
    Moves f fs m c s ∨ s.IsSpoilt := by
  by_cases hnum : ∃ n, m = .numeral n
  · obtain ⟨n, rfl⟩ := hnum
    left
    rcases next?_numeral h with ⟨n', hn, rfl⟩ | ⟨v, -, -, h⟩
    · exact .stay rfl trivial (after?_of_advance hn)
    · obtain ⟨g, hkind, hg⟩ := exists_complete_cons f (.number v)
      rw [hg, next?_eq_take (by simp), toOption_eq_some] at h
      have hsep : Moves g fs .after c s := moves_separate trivial rfl h
      exact hsep.congr hkind rfl
  · have hnum' : ∀ n, m ≠ .numeral n := fun n hn => hnum ⟨n, hn⟩
    rw [next?_eq_take hnum', toOption_eq_some] at h
    exact moves_take hm hnum' h

/-! ### Spoilt escapes -/

theorem IsSpoilt.next {s s' : State} {c : Char} (hs : s.IsSpoilt) (h : s.next? c = some s') :
    s'.IsSpoilt := by
  obtain ⟨fs, m⟩ := s
  obtain ⟨asKey, chars, high, bytes, rfl⟩ := hs
  rw [next?_eq_take (by simp), toOption_eq_some] at h
  simp only [take, inString, Option.bind_eq_bind, Option.bind_none] at h
  split_ifs at h with hlt
  cases h
  exact ⟨asKey, chars, high, bytes + c.utf8Size, rfl⟩

theorem IsSpoilt.value?_eq_none {s : State} (hs : s.IsSpoilt) : s.value? = none := by
  obtain ⟨fs, m⟩ := s
  obtain ⟨asKey, chars, high, bytes, rfl⟩ := hs
  rfl

theorem Accepts.not_isSpoilt {s : State} {t : Text} {v : Value} (h : Accepts s t v) :
    ¬ s.IsSpoilt := by
  induction t generalizing s with
  | nil =>
      intro hs
      rw [accepts_nil, hs.value?_eq_none] at h
      cases h
  | cons c t ih =>
      intro hs
      obtain ⟨s', hnext, h⟩ := accepts_cons.mp h
      exact ih h (hs.next hnext)

theorem not_isSpoilt_complete (fs : List Frame) (v : Value) : ¬ (complete fs v).IsSpoilt := by
  rintro ⟨asKey, chars, high, bytes, h⟩
  cases fs with
  | nil => cases h
  | cons f fs =>
      obtain ⟨g, -, hg⟩ := exists_complete_cons f v
      rw [hg] at h
      cases h

end State

end Keybindings.Json
