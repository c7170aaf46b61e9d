import Keybindings.Text.Edit

/-!
Byte offsets as ways to cut a text in two.

An offset answers exactly if the text falls apart into two texts of which the first has that size
(`Text.splitAt?_eq_some_iff`), so that slices and edits of `a ++ x ++ b` need no arithmetic.
-/

namespace Keybindings

namespace Text

theorem size_pos {t : Text} (h : t ≠ []) : 0 < size t := by
  cases t with
  | nil => exact absurd rfl h
  | cons c t =>
      have hc := c.utf8Size_pos
      rw [size_cons]
      omega

theorem splitAt?_append (a b : Text) : splitAt? (size a) (a ++ b) = some (a, b) := by
  induction a with
  | nil =>
      rw [size_nil, List.nil_append, splitAt?]
  | cons c a ih =>
      obtain ⟨n, hn⟩ : ∃ n, c.utf8Size + size a = n + 1 :=
        ⟨c.utf8Size + size a - 1, by have hc := c.utf8Size_pos; omega⟩
      have hle : c.utf8Size ≤ n + 1 := by omega
      have hsub : n + 1 - c.utf8Size = size a := by omega
      rw [size_cons, List.cons_append, hn, splitAt?, if_pos hle, hsub, ih, Option.map_some]

theorem splitAt?_eq_some_iff {n : Nat} {t a b : Text} :
    splitAt? n t = some (a, b) ↔ t = a ++ b ∧ size a = n := by
  constructor
  · intro h
    induction t generalizing n a b with
    | nil =>
        cases n with
        | zero =>
            cases h
            exact ⟨rfl, rfl⟩
        | succ n => cases h
    | cons c t ih =>
        cases n with
        | zero =>
            cases h
            exact ⟨rfl, rfl⟩
        | succ n =>
            rw [splitAt?] at h
            split at h
            · next hle =>
              obtain ⟨⟨a', b'⟩, hsplit, hab⟩ := Option.map_eq_some_iff.mp h
              cases hab
              obtain ⟨rfl, hsize⟩ := ih hsplit
              refine ⟨rfl, ?_⟩
              rw [size_cons, hsize]
              omega
            · cases h
  · rintro ⟨rfl, rfl⟩
    exact splitAt?_append a b

theorem slice?_eq_some_iff {t x : Text} {start stop : Nat} :
    slice? t start stop = some x ↔
      ∃ a b, t = a ++ x ++ b ∧ start = size a ∧ stop = size a + size x := by
  constructor
  · intro h
    rw [slice?] at h
    split at h
    · cases h
    · next hle =>
      simp only [Option.bind_eq_bind, Option.bind_eq_some_iff, Option.pure_def,
        Option.some.injEq] at h
      obtain ⟨⟨a, t'⟩, ha, ⟨x', b⟩, hx, rfl⟩ := h
      obtain ⟨rfl, rfl⟩ := splitAt?_eq_some_iff.mp ha
      obtain ⟨rfl, hsize⟩ := splitAt?_eq_some_iff.mp hx
      refine ⟨a, b, (List.append_assoc a x' b).symm, rfl, ?_⟩
      show stop = size a + size x'
      omega
  · rintro ⟨a, b, rfl, rfl, rfl⟩
    have hle : ¬ size a + size x < size a := by omega
    have hsub : size a + size x - size a = size x := by omega
    rw [slice?, if_neg hle, hsub, List.append_assoc]
    simp only [Option.bind_eq_bind, Option.bind_some, splitAt?_append, Option.pure_def]

@[simp] theorem slice?_append (a x b : Text) :
    slice? (a ++ x ++ b) (size a) (size a + size x) = some x :=
  slice?_eq_some_iff.mpr ⟨a, b, rfl, rfl, rfl⟩

end Text

/-- The span of a piece that stands after the text `a`. -/
def Span.after (a x : Text) : Span :=
  ⟨Text.size a, Text.size a + Text.size x⟩

@[simp] theorem Span.slice?_after (a x b : Text) : (Span.after a x).slice? (a ++ x ++ b) = some x :=
  Text.slice?_append a x b

theorem Edit.apply_after (a x b y : Text) :
    (Edit.mk (.after a x) y).apply (a ++ x ++ b) = .ok (a ++ y ++ b) := by
  have hbounds : ¬ (Text.size a + Text.size x < Text.size a ∨
      Text.size (a ++ x ++ b) < Text.size a + Text.size x) := by
    simp only [Text.size_append]
    omega
  have hstart : Text.splitAt? (Text.size a) (a ++ x ++ b) = some (a, x ++ b) :=
    Text.splitAt?_eq_some_iff.mpr ⟨List.append_assoc a x b, rfl⟩
  have hstop : Text.splitAt? (Text.size a + Text.size x) (a ++ x ++ b) = some (a ++ x, b) :=
    Text.splitAt?_eq_some_iff.mpr ⟨rfl, Text.size_append a x⟩
  simp only [Edit.apply, Span.after, if_neg hbounds, hstart, hstop]

theorem Edit.apply_whole (t y : Text) : (Edit.mk (.whole t) y).apply t = .ok y := by
  have h := Edit.apply_after [] t [] y
  simpa [Span.whole, Span.after] using h

end Keybindings
