import Keybindings.Text.LowerCase

/-!
Lower-casing pieces of a text.

Whether a sigma is final depends on its neighbours, but a slash has no case and is not passed over
when case is decided, so that a path is lower-cased segment by segment (`Text.lower_intercalate`).
Lower-casing the letters of ASCII first makes no difference (`Text.lower_map_toLower`).
-/

namespace Keybindings

/-! ### Letters of ASCII -/

/-- What holds of the capitals of ASCII and their lower-case forms holds of all characters, because
nothing else is changed. -/
theorem map_toLower_eq {α : Type} {f : Char → α}
    (h : ∀ n < 26, f (Char.ofNat (65 + n)).toLower = f (Char.ofNat (65 + n))) (c : Char) :
    f c.toLower = f c := by
  by_cases hc : c.val ≥ 'A'.val ∧ c.val ≤ 'Z'.val
  · have hle : 65 ≤ c.toNat ∧ c.toNat ≤ 90 := hc
    have hn : c = Char.ofNat (65 + (c.toNat - 65)) := by
      rw [Nat.add_sub_cancel' hle.1, Char.ofNat_toNat]
    rw [hn]
    exact h _ (by omega)
  · have hsame : c.toLower = c := dif_neg hc
    rw [hsame]

/-- For characters of ASCII the boundaries above it do not count. -/
theorem CharSet.contains_take {s : CharSet} {k : Nat} (h : ∀ b ∈ s.boundaries.drop k, 128 ≤ b)
    {c : Char} (hc : c.toNat < 128) :
    s.contains c = (CharSet.mk (s.boundaries.take k)).contains c := by
  have hnone : (s.boundaries.drop k).countP (· ≤ c.toNat) = 0 := by
    rw [List.countP_eq_zero]
    intro b hb
    have hle := h b hb
    rw [decide_eq_true_iff]
    omega
  have hcount : s.boundaries.countP (· ≤ c.toNat) =
      (s.boundaries.take k).countP (· ≤ c.toNat) := by
    rw [← List.take_append_drop k s.boundaries, List.countP_append, List.take_append_drop, hnone,
      Nat.add_zero]
  rw [CharSet.contains, CharSet.contains, hcount]

/-- A set that does not tell the two cases of a letter of ASCII apart tells them apart nowhere. -/
theorem CharSet.contains_toLower {s : CharSet} (k : Nat)
    (h : ∀ b ∈ s.boundaries.drop k, 128 ≤ b)
    (hcase : ∀ n < 26, (CharSet.mk (s.boundaries.take k)).contains (Char.ofNat (65 + n)).toLower =
      (CharSet.mk (s.boundaries.take k)).contains (Char.ofNat (65 + n))) (c : Char) :
    s.contains c.toLower = s.contains c := by
  refine map_toLower_eq (fun n hn => ?_) c
  have hlt : ∀ n < 26, (Char.ofNat (65 + n)).toLower.toNat < 128 ∧
    (Char.ofNat (65 + n)).toNat < 128 := by decide +kernel
  rw [contains_take h (hlt n hn).1, contains_take h (hlt n hn).2]
  exact hcase n hn

theorem contains_casedChars_toLower (c : Char) :
    casedChars.contains c.toLower = casedChars.contains c :=
  CharSet.contains_toLower 4 (by decide +kernel) (by decide +kernel) c

theorem contains_caseIgnorableChars_toLower (c : Char) :
    caseIgnorableChars.contains c.toLower = caseIgnorableChars.contains c :=
  CharSet.contains_toLower 10 (by decide +kernel) (by decide +kernel) c

theorem lowerChar_toLower (c : Char) : lowerChar c.toLower = lowerChar c :=
  map_toLower_eq (by decide +kernel) c

/-- What is said of other characters only is not changed by lower-casing the letters of ASCII. -/
theorem toLower_iff (p : Char → Prop)
    (h : ∀ n < 26, ¬ p (Char.ofNat (65 + n)).toLower ∧ ¬ p (Char.ofNat (65 + n))) (c : Char) :
    p c.toLower ↔ p c :=
  iff_of_eq (map_toLower_eq (fun n hn => propext (iff_of_false (h n hn).1 (h n hn).2)) c)

theorem casedNext_map_toLower (t : Text) : casedNext (t.map Char.toLower) = casedNext t := by
  induction t with
  | nil => rfl
  | cons c t ih =>
      rw [casedNext, casedNext] at *
      cases hc : caseIgnorableChars.contains c with
      | true =>
          rw [List.map_cons, List.dropWhile_cons_of_pos hc, List.dropWhile_cons_of_pos
            (by rw [contains_caseIgnorableChars_toLower, hc])]
          exact ih
      | false =>
          rw [List.map_cons, List.dropWhile_cons_of_neg
            (by rw [contains_caseIgnorableChars_toLower, hc]; exact Bool.false_ne_true),
            List.dropWhile_cons_of_neg (by simp [hc])]
          exact contains_casedChars_toLower c

namespace Text

theorem lowerAfter_map_toLower (b t : Text) :
    lowerAfter (b.map Char.toLower) (t.map Char.toLower) = lowerAfter b t := by
  induction t generalizing b with
  | nil => rfl
  | cons c t ih =>
      have hdotted : c.toLower.toNat = 0x130 ↔ c.toNat = 0x130 :=
        toLower_iff (·.toNat = 0x130) (by decide +kernel) c
      have hsigma : c.toLower.toNat = 0x3A3 ↔ c.toNat = 0x3A3 :=
        toLower_iff (·.toNat = 0x3A3) (by decide +kernel) c
      rw [List.map_cons, lowerAfter, lowerAfter, ← List.map_cons, ih, casedNext_map_toLower,
        casedNext_map_toLower, lowerChar_toLower]
      simp only [hdotted, hsigma]

/-- The case of the letters of ASCII does not matter to the lower-case form. -/
theorem lower_map_toLower (t : Text) : lower (t.map Char.toLower) = lower t :=
  lowerAfter_map_toLower [] t

end Text

/-! ### Slashes -/

theorem casedNext_append_slash (x y : Text) : casedNext (x ++ '/' :: y) = casedNext x := by
  have hslash : caseIgnorableChars.contains '/' = false := by decide +kernel
  have hcased : casedChars.contains '/' = false := by decide +kernel
  induction x with
  | nil =>
      rw [List.nil_append, casedNext, List.dropWhile_cons_of_neg (by simp [hslash])]
      exact hcased
  | cons c x ih =>
      rw [casedNext, casedNext] at *
      cases hc : caseIgnorableChars.contains c with
      | true =>
          rw [List.cons_append, List.dropWhile_cons_of_pos hc, List.dropWhile_cons_of_pos hc]
          exact ih
      | false =>
          rw [List.cons_append, List.dropWhile_cons_of_neg (by simp [hc]),
            List.dropWhile_cons_of_neg (by simp [hc])]

theorem toNat_ofNat_cases (n : Nat) : (Char.ofNat n).toNat = n ∨ (Char.ofNat n).toNat = 0 := by
  by_cases h : n.isValidChar
  · have hvalid : Char.ofNat n = Char.ofNatAux n h := dif_pos h
    rw [hvalid]
    exact .inl rfl
  · have hinvalid : Char.ofNat n = Char.ofNat 0 := dif_neg h
    rw [hinvalid]
    exact .inr rfl

/-- Only a slash becomes a slash. -/
theorem lowerChar_ne_slash {c : Char} (h : c ≠ '/') : lowerChar c ≠ '/' := by
  rw [lowerChar]
  split
  · exact fun hlower => h ((toLower_iff (· = '/') (by decide +kernel) c).mp hlower)
  · split
    · next first last step target hfind =>
      have hle : ∀ r ∈ capitalRuns, 48 ≤ r.2.2.2 := by decide +kernel
      have htarget : 48 ≤ target := hle _ (List.mem_of_find?_eq_some hfind)
      have hslash : '/'.toNat = 47 := rfl
      intro hlower
      have hcode := toNat_ofNat_cases (target + (c.toNat - first))
      rw [hlower] at hcode
      omega
    · exact h

namespace Text

/-- What stands before a slash does not matter behind it. -/
theorem lowerAfter_append_slash (b y t : Text) : lowerAfter (b ++ '/' :: y) t = lowerAfter b t := by
  induction t generalizing b with
  | nil => rfl
  | cons c t ih =>
      have h := ih (c :: b)
      rw [List.cons_append] at h
      rw [lowerAfter, lowerAfter, casedNext_append_slash, h]

theorem lowerAfter_slash (b s t : Text) :
    lowerAfter b (s ++ '/' :: t) = lowerAfter b s ++ '/' :: lower t := by
  induction s generalizing b with
  | nil =>
      have hrest : lowerAfter ('/' :: b) t = lower t := lowerAfter_append_slash [] b t
      show '/' :: lowerAfter ('/' :: b) t = '/' :: lower t
      rw [hrest]
  | cons c s ih =>
      rw [List.cons_append, lowerAfter, lowerAfter, casedNext_append_slash, ih, List.append_assoc]

theorem lower_slash (s t : Text) : lower (s ++ '/' :: t) = lower s ++ '/' :: lower t :=
  lowerAfter_slash [] s t

theorem lower_intercalate (ss : List Text) :
    lower (List.intercalate ['/'] ss) = List.intercalate ['/'] (ss.map lower) := by
  induction ss with
  | nil => rfl
  | cons s ss ih =>
      cases ss with
      | nil =>
          rw [List.map_singleton, List.intercalate_singleton, List.intercalate_singleton]
      | cons s' ss =>
          rw [List.map_cons, List.map_cons, List.intercalate_cons_cons, List.intercalate_cons_cons,
            ← List.map_cons, ← ih, List.append_assoc, List.append_assoc]
          exact lower_slash s (List.intercalate ['/'] (s' :: ss))

theorem slash_notMem_lowerAfter {t : Text} (h : '/' ∉ t) (b : Text) : '/' ∉ lowerAfter b t := by
  induction t generalizing b with
  | nil => exact h
  | cons c t ih =>
      rw [List.mem_cons, not_or] at h
      rw [lowerAfter, List.mem_append, not_or]
      refine ⟨?_, ih h.2 _⟩
      split
      · decide
      · split
        · split <;> decide
        · rw [List.mem_singleton]
          exact (lowerChar_ne_slash (Ne.symm h.1)).symm

theorem slash_notMem_lower {t : Text} (h : '/' ∉ t) : '/' ∉ lower t :=
  slash_notMem_lowerAfter h []

theorem lower_ne_nil {t : Text} (h : t ≠ []) : lower t ≠ [] := by
  cases t with
  | nil => exact absurd rfl h
  | cons c t =>
      rw [lower, lowerAfter]
      split
      · simp
      · split
        · split <;> simp
        · simp

end Text

end Keybindings
