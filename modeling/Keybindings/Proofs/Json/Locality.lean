import Keybindings.Proofs.Json.Feed

/-!
The containers around a value do not matter to how it is read.

`State.onto` puts a state under further containers.  `State.next?_onto` says that a step taken
under some outer containers is the same step under any others that are no more; only their number
counts, because it is bounded.
-/

namespace Keybindings.Json

def Frame.isObject : Frame → Bool
  | .array _ => false
  | .object _ _ => true

/-- The modes of a reader that is inside a container. -/
def Mode.IsInner : Mode → Prop
  | .word rest _ => rest ≠ [] ∧ ∀ c ∈ rest, c.isAlpha
  | .done _ => False
  | _ => True

namespace State

/-- A state inside at least one container. -/
def IsOpen (s : State) : Prop :=
  s.frames ≠ [] ∧ s.mode.IsInner

/-- A whole value leaves the containers around it open, and the innermost one of its kind. -/
theorem exists_complete_cons (f : Frame) (v : Value) :
    ∃ g : Frame, g.isObject = f.isObject ∧ ∀ fs, complete (f :: fs) v = ⟨g :: fs, .after⟩ := by
  cases f with
  | array items => exact ⟨.array (v :: items), rfl, fun _ => rfl⟩
  | object members key => exact ⟨.object (members.insert key v) key, rfl, fun _ => rfl⟩

/-- The state with further containers open around those of `s`.  If `s` holds a whole value, that
goes into the innermost of them. -/
def onto (outer : List Frame) (s : State) : State :=
  match s.mode with
  | .done v => complete outer v
  | m => ⟨s.frames ++ outer, m⟩

theorem onto_mk {m : Mode} (hm : ∀ v, m ≠ .done v) (fs outer : List Frame) :
    (⟨fs, m⟩ : State).onto outer = ⟨fs ++ outer, m⟩ := by
  cases m with
  | done v => exact absurd rfl (hm v)
  | _ => rfl

@[simp] theorem onto_complete (fs outer : List Frame) (v : Value) :
    (complete fs v).onto outer = complete (fs ++ outer) v := by
  cases fs with
  | nil => rfl
  | cons f fs => cases f <;> rfl

/-- What happens under some outer containers happens in the same way under any that are no more. -/
def Local (F : List Frame → Except Refusal State) : Prop :=
  ∀ outer s, F outer = .ok s → ∃ s' : State, s = s'.onto outer ∧
    ∀ outer', outer'.length ≤ outer.length → F outer' = .ok (s'.onto outer')

theorem Local.ok (s : State) : Local fun outer => .ok (s.onto outer) := by
  intro outer s₁ h
  cases h
  exact ⟨s, rfl, fun _ _ => rfl⟩

theorem Local.error (r : Refusal) : Local fun _ => .error r := by
  intro outer s h
  cases h

theorem Local.ite {p : Prop} [Decidable p] {F G : List Frame → Except Refusal State}
    (hF : Local F) (hG : Local G) : Local fun outer => if p then F outer else G outer := by
  by_cases hp : p
  · simpa only [if_pos hp] using hF
  · simpa only [if_neg hp] using hG

theorem local_openFrame (fs : List Frame) (f : Frame) {m : Mode} (hm : ∀ v, m ≠ .done v) :
    Local fun outer => openFrame (fs ++ outer) f m := by
  intro outer s h
  simp only [openFrame, refuse] at h
  split at h
  · next hlt =>
    cases h
    refine ⟨⟨f :: fs, m⟩, (onto_mk hm (f :: fs) outer).symm, fun outer' hle => ?_⟩
    have hlt' : (fs ++ outer').length < maxDepth := by
      simp only [List.length_append] at hlt ⊢
      omega
    simp only [openFrame, if_pos hlt', onto_mk hm, List.cons_append]
  · cases h

theorem local_beginValue (fs : List Frame) (c : Char) :
    Local fun outer => beginValue (fs ++ outer) c := by
  unfold beginValue
  refine .ite (.ok ⟨fs, .word ['u', 'l', 'l'] .null⟩) <|
    .ite (.ok ⟨fs, .word ['r', 'u', 'e'] (.bool true)⟩) <|
    .ite (.ok ⟨fs, .word ['a', 'l', 's', 'e'] (.bool false)⟩) <|
    .ite (.ok ⟨fs, .numeral .minus⟩) <|
    .ite (.ok ⟨fs, .string false [] .none⟩) <|
    .ite (local_openFrame fs _ (by simp)) <| .ite (local_openFrame fs _ (by simp)) ?_
  cases Numeral.digit? c with
  | none => exact .error _
  | some d => exact .ok ⟨fs, .numeral (.first false d)⟩

theorem local_separate (f : Frame) (fs : List Frame) {m : Mode} (hm : ∀ v, m ≠ .done v)
    (c : Char) : Local fun outer => separate ⟨f :: fs ++ outer, m⟩ c := by
  have hstay : Local fun outer => .ok ⟨f :: fs ++ outer, m⟩ := by
    simpa only [onto_mk hm] using Local.ok ⟨f :: fs, m⟩
  have hclose : ∀ v, Local fun outer => .ok (complete (fs ++ outer) v) := fun v => by
    simpa only [onto_complete] using Local.ok (complete fs v)
  unfold separate
  cases f with
  | array items =>
      exact .ite hstay <| .ite (.ok ⟨.array items :: fs, .item⟩) <| .ite (hclose _) (.error _)
  | object members key =>
      exact .ite hstay <| .ite (.ok ⟨.object members key :: fs, .key⟩) <|
        .ite (hclose _) (.error _)

theorem local_closeString (f : Frame) (fs : List Frame) (asKey : Bool) (chars : List Char) :
    Local fun outer => .ok (closeString (f :: fs ++ outer) asKey chars) := by
  cases asKey with
  | false =>
      show Local fun outer => .ok (complete (f :: fs ++ outer) _)
      simpa only [onto_complete] using
        Local.ok (complete (f :: fs) (.string (String.ofList chars.reverse)))
  | true =>
      cases f with
      | array items => exact .ok ⟨.array items :: fs, .colon⟩
      | object members key =>
          exact .ok ⟨.object members (String.ofList chars.reverse) :: fs, .colon⟩

theorem local_inString (f : Frame) (fs : List Frame) (asKey : Bool) (chars : List Char)
    (esc : Escape) (c : Char) :
    Local fun outer => inString (f :: fs ++ outer) asKey chars esc c := by
  have hstay : ∀ chars esc, Local fun outer => .ok ⟨f :: fs ++ outer, .string asKey chars esc⟩ :=
    fun chars esc => .ok ⟨f :: fs, .string asKey chars esc⟩
  unfold inString
  cases esc with
  | none =>
      exact .ite (local_closeString f fs asKey chars) <| .ite (hstay _ _) <|
        .ite (.error _) (hstay _ _)
  | slash =>
      refine .ite (hstay _ _) ?_
      cases unescape? c with
      | none => exact .error _
      | some c' => exact hstay _ _
  | hex high bytes value =>
      refine .ite (hstay _ _) ?_
      cases (do return (← value) * 16 + (← hexValue? c) : Option Nat) with
      | none => exact .error _
      | some n =>
          dsimp only
          cases closeHex chars high n with
          | error cause => exact .error _
          | ok p => exact hstay _ _
  | pair high => exact .ite (hstay _ _) (.error _)
  | pairMark high => exact .ite (hstay _ _) (.error _)

theorem local_take (f : Frame) (fs : List Frame) {m : Mode} (hm : ∀ v, m ≠ .done v) (c : Char) :
    Local fun outer => take ⟨f :: fs ++ outer, m⟩ c := by
  have hstay : Local fun outer => .ok ⟨f :: fs ++ outer, m⟩ := by
    simpa only [onto_mk hm] using Local.ok ⟨f :: fs, m⟩
  have hsep := local_separate f fs hm c
  have hbegin := local_beginValue (f :: fs) c
  have hkey : Local fun outer => .ok ⟨f :: fs ++ outer, .string true [] .none⟩ :=
    .ok ⟨f :: fs, .string true [] .none⟩
  cases m with
  | value => exact .ite hstay hbegin
  | firstItem => exact .ite hstay <| .ite hsep hbegin
  | item => exact .ite hstay <| .ite (.error _) hbegin
  | firstKey => exact .ite hstay <| .ite hkey <| .ite hsep (.error _)
  | key => exact .ite hstay <| .ite hkey <| .ite (.error _) (.error _)
  | colon => exact .ite hstay <| .ite (.ok ⟨f :: fs, .value⟩) (.error _)
  | after => exact hsep
  | done v => exact absurd rfl (hm v)
  | word rest v =>
      have hword : Local fun outer => .ok (complete (f :: fs ++ outer) v) := by
        simpa only [onto_complete] using Local.ok (complete (f :: fs) v)
      cases rest with
      | nil => exact hword
      | cons w ws => exact .ite (.error _) <| .ite hword (.ok ⟨f :: fs, .word ws v⟩)
  | numeral n =>
      cases hn : n.advance c with
      | error cause =>
          simp only [take, hn]
          exact .error _
      | ok o =>
          simp only [take, hn]
          cases o with
          | none => exact hstay
          | some n' => exact .ok ⟨f :: fs, .numeral n'⟩
  | string asKey chars esc => exact local_inString f fs asKey chars esc c

theorem IsOpen.mode_ne_done {s : State} (hs : s.IsOpen) (v : Value) : s.mode ≠ .done v := by
  intro h
  have hinner := hs.2
  rw [h] at hinner
  exact hinner

theorem IsOpen.onto_eq {s : State} (hs : s.IsOpen) (outer : List Frame) :
    s.onto outer = ⟨s.frames ++ outer, s.mode⟩ :=
  onto_mk hs.mode_ne_done s.frames outer

@[simp] theorem IsOpen.onto_nil {s : State} (hs : s.IsOpen) : s.onto [] = s := by
  rw [hs.onto_eq, List.append_nil]

theorem onto_nil_onto (s : State) (outer : List Frame) : (s.onto []).onto outer = s.onto outer := by
  obtain ⟨fs, m⟩ := s
  cases m with
  | done v => rfl
  | _ => simp [onto]

/-- What a character does inside an open container does not depend on the containers around it. -/
theorem next?_onto {s s₁ : State} {outer : List Frame} {c : Char} (hs : s.IsOpen)
    (h : (s.onto outer).next? c = some s₁) :
    ∃ s' : State, s.next? c = some s' ∧ s₁ = s'.onto outer ∧
      ∀ outer', outer'.length ≤ outer.length → (s.onto outer').next? c = some (s'.onto outer') := by
  -- that `s'` is what `s` itself comes to is the case without outer containers
  suffices hlocal : ∃ s' : State, s₁ = s'.onto outer ∧
      ∀ outer', outer'.length ≤ outer.length → (s.onto outer').next? c = some (s'.onto outer') by
    obtain ⟨s', rfl, hs'⟩ := hlocal
    have hnil := hs' [] (Nat.zero_le _)
    rw [hs.onto_nil] at hnil
    refine ⟨s'.onto [], hnil, (onto_nil_onto s' outer).symm, fun outer' hle => ?_⟩
    rw [onto_nil_onto]
    exact hs' outer' hle
  simp only [hs.onto_eq] at h ⊢
  have hm := hs.mode_ne_done
  obtain ⟨fs, m⟩ := s
  obtain ⟨f, fs, rfl⟩ := List.exists_cons_of_ne_nil hs.1
  by_cases hnum : ∃ n, m = .numeral n
  · obtain ⟨n, rfl⟩ := hnum
    rcases next?_numeral h with ⟨n', hn, rfl⟩ | ⟨v, hn, hv, h⟩
    · exact ⟨⟨f :: fs, .numeral n'⟩, rfl, fun outer' _ => next?_numeral_some hn⟩
    · -- the number ends here, and the character comes after it in the container
      obtain ⟨g, -, hg⟩ := exists_complete_cons f (.number v)
      rw [List.cons_append, hg, next?_eq_take (by simp), toOption_eq_some] at h
      obtain ⟨s', rfl, hs'⟩ := local_take g fs (by simp) c outer _ h
      refine ⟨s', rfl, fun outer' hle => ?_⟩
      rw [List.cons_append, next?_numeral_none hn hv, hg, next?_eq_take (by simp), toOption_eq_some]
      exact hs' outer' hle
  · have hnum' : ∀ n, m ≠ .numeral n := fun n hn => hnum ⟨n, hn⟩
    rw [next?_eq_take hnum', toOption_eq_some] at h
    obtain ⟨s', rfl, hs'⟩ := local_take f fs hm c outer _ h
    refine ⟨s', rfl, fun outer' hle => ?_⟩
    rw [next?_eq_take hnum', toOption_eq_some]
    exact hs' outer' hle

end State

end Keybindings.Json
