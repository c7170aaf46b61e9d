import Keybindings.Proofs.Dictionary
import Keybindings.Proofs.Json.Nesting

/-!
The values that texts hold.

`Value.Fits n` holds of the values that a text may hold where `n` more containers can be opened:
their objects have their members in the order of the keys, and their integers fit into 64 bits.
Reading keeps this of all values that are open or complete (`State.Fits.next`), so that whatever a
text holds fits (`fits_of_read`).
-/

namespace Keybindings.Json

/-- The integers that are not read as doubles. -/
def IsWord (i : Int) : Prop :=
  -0x8000000000000000 ≤ i ∧ i ≤ Numeral.maxSignificand

/-- What a text can hold where `n` more containers can be opened. -/
inductive Value.Fits : Nat → Value → Prop
  | null {n} : Fits n .null
  | bool {n b} : Fits n (.bool b)
  | int {n i} (h : IsWord i) : Fits n (.number (.int i))
  | float {n x} : Fits n (.number (.float x))
  | string {n s} : Fits n (.string s)
  | array {n vs} (h : ∀ v ∈ vs, Fits n v) : Fits (n + 1) (.array vs)
  | object {n ms} (hsorted : Dictionary.IsSorted ms) (h : ∀ m ∈ ms, Fits n m.2) :
      Fits (n + 1) (.object ms)

theorem Value.Fits.items {n : Nat} {vs : List Value} (h : Fits (n + 1) (.array vs)) :
    ∀ v ∈ vs, v.Fits n := by
  cases h with
  | array h => exact h

theorem Value.Fits.members {n : Nat} {ms : List (String × Value)}
    (h : Fits (n + 1) (.object ms)) : Dictionary.IsSorted ms ∧ ∀ m ∈ ms, m.2.Fits n := by
  cases h with
  | object hsorted h => exact ⟨hsorted, h⟩

/-- An open container in which `n` more containers can be opened. -/
def Frame.Fits (n : Nat) : Frame → Prop
  | .array items => ∀ v ∈ items, v.Fits n
  | .object members _ => Dictionary.IsSorted members ∧ ∀ m ∈ members, m.2.Fits n

/-- The number of containers that can be opened inside the given ones. -/
def room (fs : List Frame) : Nat :=
  maxDepth - fs.length

/-- What is in the open containers fits, each for the place where it is. -/
def FramesFit : List Frame → Prop
  | [] => True
  | f :: fs => room fs ≠ 0 ∧ f.Fits (room fs - 1) ∧ FramesFit fs

def Numeral.Fits : Numeral → Prop
  | .whole _ significand => significand ≤ maxSignificand
  | _ => True

/-- What a mode remembers of a value fits. -/
def Mode.Fits : Mode → Prop
  | .word _ v => ∀ n, v.Fits n
  | .numeral n => n.Fits
  | .done v => v.Fits maxDepth
  | _ => True

theorem fits_array_nil (n : Nat) : (Frame.array []).Fits n :=
  List.forall_mem_nil _

theorem fits_object_nil (n : Nat) : (Frame.object [] "").Fits n :=
  ⟨Dictionary.isSorted_nil, List.forall_mem_nil _⟩

/-! ### Numbers -/

namespace Numeral

theorem digit?_le {c : Char} {d : Nat} (h : digit? c = some d) : d ≤ 9 := by
  rw [digit?] at h
  split at h
  · next hc =>
    cases h
    simp only [Char.isDigit, Bool.and_eq_true, decide_eq_true_eq] at hc
    have hle : c.toNat ≤ '9'.toNat := UInt32.le_iff_toNat_le.mp hc.2
    have hnine : '9'.toNat = 57 := rfl
    have hzero : '0'.toNat = 48 := rfl
    omega
  · cases h

theorem fits_first (negative : Bool) {d : Nat} (h : d ≤ 9) : (first negative d).Fits := by
  rw [first]
  split
  · trivial
  · exact h.trans (by decide)

theorem fits_fractionDigit (negative : Bool) (significand : Nat) (exponent : Int) (d : Nat) :
    (fractionDigit negative significand exponent d).Fits := by
  rw [fractionDigit]
  split <;> trivial

theorem fits_powerDigit {negative down : Bool} {significand digits d : Nat} {exponent : Int}
    {n : Numeral} (h : powerDigit negative significand exponent down digits d = .ok n) :
    n.Fits := by
  simp only [powerDigit] at h
  split_ifs at h <;> cases h <;> trivial

theorem Fits.advance {n n' : Numeral} {c : Char} (hn : n.Fits)
    (h : n.advance c = .ok (some n')) : n'.Fits := by
  have hpower : ∀ {negative down : Bool} {significand digits d : Nat} {exponent : Int},
      (powerDigit negative significand exponent down digits d).map some = .ok (some n') →
        n'.Fits := by
    intro negative down significand digits d exponent h
    cases hd : powerDigit negative significand exponent down digits d with
    | error cause => rw [hd] at h; cases h
    | ok n =>
        rw [hd] at h
        cases h
        exact fits_powerDigit hd
  cases n with
  | minus =>
      simp only [Numeral.advance] at h
      split at h
      · next d hd =>
        cases h
        exact fits_first true (digit?_le hd)
      · cases h
  | whole negative significand =>
      simp only [Numeral.advance] at h
      split at h
      · next d hd =>
        cases h
        by_cases hfits : fits significand d
        · have hle : significand * 10 + d ≤ maxSignificand := by simpa [fits] using hfits
          simpa only [if_pos hfits, Numeral.Fits] using hle
        · simp only [if_neg hfits, Numeral.Fits]
      · split_ifs at h <;> cases h <;> trivial
  | point negative significand exponent =>
      simp only [Numeral.advance] at h
      split at h <;> cases h
      exact fits_fractionDigit ..
  | fraction negative significand exponent =>
      simp only [Numeral.advance] at h
      split at h
      · cases h
        exact fits_fractionDigit ..
      · split_ifs at h <;> cases h
        trivial
  | mark negative significand exponent =>
      simp only [Numeral.advance] at h
      split_ifs at h
      · cases h
        trivial
      · cases h
        trivial
      · split at h
        · exact hpower h
        · cases h
  | sign negative significand exponent down =>
      simp only [Numeral.advance] at h
      split at h
      · exact hpower h
      · cases h
  | power negative significand exponent down digits =>
      simp only [Numeral.advance] at h
      split at h
      · exact hpower h
      · cases h
  | zero negative =>
      simp only [Numeral.advance] at h
      split_ifs at h <;> cases h <;> trivial
  | long negative significand exponent =>
      simp only [Numeral.advance] at h
      split_ifs at h <;> cases h <;> trivial
  | surplus negative significand exponent =>
      simp only [Numeral.advance] at h
      split_ifs at h <;> cases h <;> trivial
  | vanished negative =>
      simp only [Numeral.advance] at h
      split_ifs at h <;> cases h
      trivial

/-- Doubles stay doubles, also the whole ones. -/
theorem float_ne_int (negative : Bool) (significand : Nat) (exponent i : Int) :
    float negative significand exponent ≠ .ok (.int i) := by
  -- opened as a function: under its arguments the scaling would be computed
  obtain ⟨f, hf⟩ : ∃ f, f = float := ⟨float, rfl⟩
  rw [← hf]
  delta float at hf
  subst hf
  beta_reduce
  generalize Binary64.scale? significand exponent = u
  cases u with
  | none => intro h; cases h
  | some u => intro h; cases h

theorem isWord_of_integer {negative : Bool} {significand : Nat} {i : Int}
    (hle : significand ≤ maxSignificand) (h : integer negative significand = .ok (.int i)) :
    IsWord i := by
  simp only [integer] at h
  split_ifs at h with hsign hdouble
  · cases h
    simp only [IsWord]
    omega
  · exact absurd h (float_ne_int _ _ _ _)
  · cases h
    simp only [IsWord]
    omega

theorem isWord_of_finish {n : Numeral} {i : Int} (hn : n.Fits) (h : n.finish = .ok (.int i)) :
    IsWord i := by
  cases n with
  | zero negative => exact isWord_of_integer (Nat.zero_le _) h
  | whole negative significand => exact isWord_of_integer hn h
  | minus => cases h
  | point _ _ _ => cases h
  | mark _ _ _ => cases h
  | sign _ _ _ _ => cases h
  | vanished _ => cases h
  | long _ _ _ =>
      rw [finish] at h
      exact absurd h (float_ne_int _ _ _ _)
  | fraction _ _ _ =>
      rw [finish] at h
      exact absurd h (float_ne_int _ _ _ _)
  | surplus _ _ _ =>
      rw [finish] at h
      exact absurd h (float_ne_int _ _ _ _)
  | power _ _ _ _ _ =>
      rw [finish] at h
      exact absurd h (float_ne_int _ _ _ _)

end Numeral

theorem Number.fits_of_finish {n : Numeral} {u : Number} (hn : n.Fits) (h : n.finish = .ok u)
    (k : Nat) : (Value.number u).Fits k := by
  cases u with
  | int i => exact .int (Numeral.isWord_of_finish hn h)
  | float x => exact .float

/-! ### Steps of the reader -/

namespace State

/-- All values that were read fit, those of the open containers and the one at hand. -/
def Fits (s : State) : Prop :=
  FramesFit s.frames ∧ s.mode.Fits

theorem fits_complete {fs : List Frame} {v : Value} (hfs : FramesFit fs) (hv : v.Fits (room fs)) :
    (complete fs v).Fits := by
  cases fs with
  | nil => exact ⟨trivial, hv⟩
  | cons f fs =>
      obtain ⟨hroom, hf, hfs⟩ := hfs
      have hv : v.Fits (room fs - 1) := hv
      cases f with
      | array items => exact ⟨⟨hroom, List.forall_mem_cons.mpr ⟨hv, hf⟩, hfs⟩, trivial⟩
      | object members key =>
          refine ⟨⟨hroom, ⟨hf.1.insert key v, fun m hm => ?_⟩, hfs⟩, trivial⟩
          rcases Dictionary.mem_insert hm with rfl | hm
          · exact hv
          · exact hf.2 m hm

theorem fits_openFrame {fs : List Frame} {f : Frame} {m : Mode} {s : State} (hfs : FramesFit fs)
    (hf : ∀ n, f.Fits n) (hm : m.Fits) (h : openFrame fs f m = .ok s) : s.Fits := by
  simp only [openFrame, refuse] at h
  split_ifs at h with hlt
  cases h
  exact ⟨⟨(Nat.sub_pos_of_lt hlt).ne', hf _, hfs⟩, hm⟩

theorem fits_beginValue {fs : List Frame} {c : Char} {s : State} (hfs : FramesFit fs)
    (h : beginValue fs c = .ok s) : s.Fits := by
  simp only [beginValue] at h
  split_ifs at h
  · cases h
    exact ⟨hfs, fun _ => .null⟩
  · cases h
    exact ⟨hfs, fun _ => .bool⟩
  · cases h
    exact ⟨hfs, fun _ => .bool⟩
  · cases h
    exact ⟨hfs, trivial⟩
  · cases h
    exact ⟨hfs, trivial⟩
  · exact fits_openFrame (m := .firstItem) hfs (fits_array_nil ·) trivial h
  · exact fits_openFrame (m := .firstKey) hfs (fits_object_nil ·) trivial h
  · split at h
    · next d hd =>
      cases h
      exact ⟨hfs, Numeral.fits_first false (Numeral.digit?_le hd)⟩
    · cases h

theorem fits_separate {s s' : State} {c : Char} (hs : s.Fits) (h : s.separate c = .ok s') :
    s'.Fits := by
  obtain ⟨fs, m⟩ := s
  obtain ⟨hfs, hm⟩ := hs
  by_cases hgap : isGap c
  · rw [separate, if_pos hgap] at h
    cases h
    exact ⟨hfs, hm⟩
  · rw [separate, if_neg hgap] at h
    cases fs with
    | nil => cases h
    | cons f fs =>
        obtain ⟨hroom, hf, hfs⟩ := hfs
        have hsize : room fs = room fs - 1 + 1 := (Nat.succ_pred hroom).symm
        cases f with
        | array items =>
            simp only [refuse] at h
            split_ifs at h
            · cases h
              exact ⟨⟨hroom, hf, hfs⟩, trivial⟩
            · cases h
              refine fits_complete hfs (hsize ▸ .array fun v hv => ?_)
              exact hf v (List.mem_reverse.mp hv)
        | object members key =>
            simp only [refuse] at h
            split_ifs at h
            · cases h
              exact ⟨⟨hroom, hf, hfs⟩, trivial⟩
            · cases h
              exact fits_complete hfs (hsize ▸ .object hf.1 hf.2)

theorem fits_closeString {fs : List Frame} (hfs : FramesFit fs) (asKey : Bool)
    (chars : List Char) : (closeString fs asKey chars).Fits := by
  cases asKey with
  | false => exact fits_complete hfs .string
  | true =>
      cases fs with
      | nil => exact ⟨hfs, trivial⟩
      | cons f fs => cases f <;> exact ⟨hfs, trivial⟩

theorem fits_take {s s' : State} {c : Char} (hs : s.Fits) (h : s.take c = .ok s') : s'.Fits := by
  obtain ⟨fs, m⟩ := s
  have hfs : FramesFit fs := hs.1
  cases m with
  | value =>
      simp only [take] at h
      split_ifs at h
      · cases h
        exact hs
      · exact fits_beginValue hfs h
  | firstItem =>
      simp only [take] at h
      split_ifs at h
      · cases h
        exact hs
      · exact fits_separate hs h
      · exact fits_beginValue hfs h
  | item =>
      simp only [take, refuse] at h
      split_ifs at h
      · cases h
        exact hs
      · exact fits_beginValue hfs h
  | firstKey =>
      simp only [take, refuse] at h
      split_ifs at h
      · cases h
        exact hs
      · cases h
        exact ⟨hfs, trivial⟩
      · exact fits_separate hs h
  | key =>
      simp only [take, refuse] at h
      split_ifs at h
      · cases h
        exact hs
      · cases h
        exact ⟨hfs, trivial⟩
  | colon =>
      simp only [take, refuse] at h
      split_ifs at h
      · cases h
        exact hs
      · cases h
        exact ⟨hfs, trivial⟩
  | after => exact fits_separate hs h
  | done v => exact fits_separate hs h
  | word rest v =>
      cases rest with
      | nil =>
          cases h
          exact fits_complete hfs (hs.2 _)
      | cons w ws =>
          simp only [take, refuse] at h
          split_ifs at h
          · cases h
            exact fits_complete hfs (hs.2 _)
          · cases h
            exact hs
  | numeral n =>
      simp only [take, refuse] at h
      split at h
      · next n' hn =>
        cases h
        exact ⟨hfs, hs.2.advance hn⟩
      · cases h
        exact hs
      · cases h
  | string asKey chars esc =>
      rcases inString_cases h with ⟨chars', esc', rfl⟩ | rfl
      · exact ⟨hfs, trivial⟩
      · exact fits_closeString hfs asKey chars

theorem Fits.next {s s' : State} {c : Char} (hs : s.Fits) (h : s.next? c = some s') :
    s'.Fits := by
  by_cases hnumeral : ∃ n, s.mode = .numeral n
  · obtain ⟨n, hn⟩ := hnumeral
    obtain ⟨fs, m⟩ := s
    obtain rfl : m = .numeral n := hn
    rcases next?_numeral h with ⟨n', hn', rfl⟩ | ⟨u, -, hu, h⟩
    · exact ⟨hs.1, hs.2.advance hn'⟩
    · -- the number is complete before the character is taken
      have hcomplete : (complete fs (.number u)).Fits :=
        fits_complete hs.1 (Number.fits_of_finish hs.2 hu _)
      rw [next?_eq_take complete_mode_ne_numeral, toOption_eq_some] at h
      exact fits_take hcomplete h
  · rw [next?_eq_take fun n hn => hnumeral ⟨n, hn⟩, toOption_eq_some] at h
    exact fits_take hs h

theorem Fits.feed {s s' : State} {t : Text} (hs : s.Fits) (h : s.feed t = some s') : s'.Fits := by
  induction t generalizing s with
  | nil =>
      cases h
      exact hs
  | cons c t ih =>
      obtain ⟨s₁, hnext, h⟩ := Option.bind_eq_some_iff.mp h
      exact ih (hs.next hnext) h

theorem Fits.value {s : State} {v : Value} (hs : s.Fits) (h : s.value? = some v) :
    v.Fits maxDepth := by
  obtain ⟨fs, m⟩ := s
  cases m with
  | done u =>
      cases h
      exact hs.2
  | numeral n =>
      cases hn : n.finish with
      | error cause =>
          rw [value?_numeral_error hn] at h
          cases h
      | ok u =>
          rw [value?_numeral hn] at h
          cases fs with
          | nil =>
              cases h
              exact Number.fits_of_finish hs.2 hn _
          | cons f fs => cases f <;> cases h
  | _ => cases h

end State

/-- Whatever a text holds fits into the containers that may be open at once. -/
theorem fits_of_read {t : Text} {v : Value} (h : read t = .ok v) : v.Fits maxDepth := by
  obtain ⟨s, hs, hv⟩ := read_eq_ok_iff.mp h
  have hstart : State.start.Fits := ⟨trivial, trivial⟩
  exact (hstart.feed hs).value hv

end Keybindings.Json
