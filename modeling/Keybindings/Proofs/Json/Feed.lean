import Keybindings.Json.Reader

/-!
Runs of the reader without offsets.

`State.feed` follows a text from a state and keeps only the state that is reached, and
`State.Accepts` says which value comes out in the end.  Both are the reader that `read` runs, less
the reports about refused texts, and both split along a concatenation of texts.
-/

namespace Keybindings.Json.State

/-- The watch that lets every state pass. -/
abbrev unwatched : Watch := fun _ => none

/-- The state after one more character, unless the character is refused. -/
def next? (s : State) (c : Char) : Option State :=
  (s.step unwatched c).toOption

/-- The state after a text, unless some character of it is refused. -/
def feed (s : State) : Text → Option State
  | [] => some s
  | c :: t => (s.next? c).bind fun s => feed s t

def value? (s : State) : Option Value :=
  (s.finish unwatched).toOption

/-- The rest `t` of a text is read from the state `s` on, and the whole text holds `v`. -/
def Accepts (s : State) (t : Text) (v : Value) : Prop :=
  ∃ s', s.feed t = some s' ∧ s'.value? = some v

@[simp] theorem feed_nil (s : State) : s.feed [] = some s := rfl

@[simp] theorem feed_cons (s : State) (c : Char) (t : Text) :
    s.feed (c :: t) = (s.next? c).bind fun s => s.feed t := rfl

@[simp] theorem feed_append (s : State) (a b : Text) :
    s.feed (a ++ b) = (s.feed a).bind fun s => s.feed b := by
  induction a generalizing s with
  | nil => rfl
  | cons c a ih => simp only [List.cons_append, feed_cons, ih, Option.bind_assoc]

theorem accepts_nil {s : State} {v : Value} : Accepts s [] v ↔ s.value? = some v := by
  simp [Accepts]

theorem accepts_cons {s : State} {c : Char} {t : Text} {v : Value} :
    Accepts s (c :: t) v ↔ ∃ s', s.next? c = some s' ∧ Accepts s' t v := by
  simp only [Accepts, feed_cons, Option.bind_eq_some_iff]
  constructor
  · rintro ⟨s₂, ⟨s₁, h₁, h₂⟩, hv⟩
    exact ⟨s₁, h₁, s₂, h₂, hv⟩
  · rintro ⟨s₁, h₁, s₂, h₂, hv⟩
    exact ⟨s₂, ⟨s₁, h₁, h₂⟩, hv⟩

theorem accepts_append {s s' : State} {a b : Text} {v : Value} (h : s.feed a = some s') :
    Accepts s (a ++ b) v ↔ Accepts s' b v := by
  simp [Accepts, h]

theorem toOption_eq_some {ε α : Type} {x : Except ε α} {a : α} :
    x.toOption = some a ↔ x = .ok a := by
  cases x <;> simp [Except.toOption]

theorem run_eq_ok_iff (offset : Nat) (s : State) (t : Text) (v : Value) :
    s.run unwatched offset t = .ok v ↔ Accepts s t v := by
  induction t generalizing offset s with
  | nil =>
      rw [accepts_nil, value?, toOption_eq_some, run]
      cases s.finish unwatched <;> simp
  | cons c t ih =>
      rw [accepts_cons, run]
      cases h : s.step unwatched c with
      | error r => simp [next?, h, Except.toOption]
      | ok s' => simp [next?, h, Except.toOption, ih]

/-! ### One character -/

/-- Only a number has to be settled before a character is taken. -/
theorem next?_eq_take {s : State} (h : ∀ n, s.mode ≠ .numeral n) (c : Char) :
    s.next? c = (s.take c).toOption := by
  have hsettle : s.settle unwatched c = .ok s := by
    unfold settle
    split
    · next n hn => exact absurd hn (h n)
    · rfl
  rw [next?, step, hsettle]
  show ((s.take c).bind fun s => pass unwatched s).toOption = _
  cases s.take c <;> rfl

theorem next?_numeral_some {fs : List Frame} {n n' : Numeral} {c : Char}
    (h : n.advance c = .ok (some n')) :
    (⟨fs, .numeral n⟩ : State).next? c = some ⟨fs, .numeral n'⟩ := by
  simp [next?, step, settle, take, pass, h, bind, Except.bind, Except.toOption]

/-- After a value no number is left open that would have to be settled. -/
theorem complete_mode_ne_numeral {fs : List Frame} {v : Value} (n : Numeral) :
    (complete fs v).mode ≠ .numeral n := by
  cases fs with
  | nil => simp [complete]
  | cons f fs => cases f <;> simp [complete]

theorem next?_numeral_none {fs : List Frame} {n : Numeral} {c : Char} {v : Number}
    (h : n.advance c = .ok none) (hv : n.finish = .ok v) :
    (⟨fs, .numeral n⟩ : State).next? c = (complete fs (.number v)).next? c := by
  rw [next?_eq_take complete_mode_ne_numeral]
  simp only [next?, step, settle, h, hv]
  show (((complete fs (.number v)).take c).bind fun s => pass unwatched s).toOption = _
  cases (complete fs (.number v)).take c <;> rfl

theorem value?_numeral {fs : List Frame} {n : Numeral} {v : Number} (h : n.finish = .ok v) :
    (⟨fs, .numeral n⟩ : State).value? = (complete fs (.number v)).value? := by
  simp only [value?, finish, h]
  cases fs with
  | nil => rfl
  | cons f fs => cases f <;> rfl

theorem value?_numeral_error {fs : List Frame} {n : Numeral} {cause : Cause}
    (h : n.finish = .error cause) : (⟨fs, .numeral n⟩ : State).value? = none := by
  simp only [value?, finish, h]
  rfl

theorem next?_numeral {fs : List Frame} {n : Numeral} {c : Char} {s : State}
    (h : (⟨fs, .numeral n⟩ : State).next? c = some s) :
    (∃ n', n.advance c = .ok (some n') ∧ s = ⟨fs, .numeral n'⟩) ∨
      ∃ v, n.advance c = .ok none ∧ n.finish = .ok v ∧
        (complete fs (.number v)).next? c = some s := by
  cases hn : n.advance c with
  | error cause =>
      simp [next?, step, settle, take, hn, refuse, bind, Except.bind, Except.toOption] at h
  | ok o =>
      cases o with
      | some n' =>
          rw [next?_numeral_some hn] at h
          exact .inl ⟨n', rfl, (Option.some.inj h).symm⟩
      | none =>
          cases hv : n.finish with
          | error cause =>
              simp [next?, step, settle, hn, hv, bind, Except.bind, Except.toOption] at h
          | ok v =>
              rw [next?_numeral_none hn hv] at h
              exact .inr ⟨v, rfl, rfl, h⟩

end Keybindings.Json.State

namespace Keybindings.Json

theorem read_eq_ok_iff {t : Text} {v : Value} :
    read t = .ok v ↔ State.start.Accepts t v :=
  State.run_eq_ok_iff 0 State.start t v

end Keybindings.Json
