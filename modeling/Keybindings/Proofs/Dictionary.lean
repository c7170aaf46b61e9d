import Keybindings.Dictionary
import Mathlib.Data.List.Perm.Basic
import Mathlib.Data.String.Basic

/-!
Dictionaries as functions of their keys.

Insertions keep the keys in order, and a dictionary in order is determined by what it has at each
key (`Dictionary.ext`).  So putting the pairs of such a dictionary into an empty one gives the same
dictionary (`Dictionary.ofList_eq_self`).
-/

namespace Keybindings.Dictionary

variable {α : Type} {d d' : Dictionary α} {k : String} {v : α}

/-- The keys are in ascending order, and each occurs once. -/
def IsSorted (d : Dictionary α) : Prop :=
  d.Pairwise fun p q => p.1 < q.1

theorem isSorted_nil : IsSorted ([] : Dictionary α) := .nil

/-! ### Insertion -/

theorem mem_insert {p : String × α} (h : p ∈ insert k v d) : p = (k, v) ∨ p ∈ d := by
  induction d with
  | nil => exact .inl (List.mem_singleton.mp h)
  | cons q d ih =>
      simp only [insert] at h
      split at h
      · exact (List.mem_cons.mp h).imp_right (List.mem_cons_of_mem q)
      · split at h
        · exact List.mem_cons.mp h
        · rcases List.mem_cons.mp h with rfl | h
          · exact .inr List.mem_cons_self
          · exact (ih h).imp_right (List.mem_cons_of_mem q)

theorem IsSorted.insert (h : IsSorted d) (k : String) (v : α) : IsSorted (insert k v d) := by
  induction d with
  | nil => exact List.pairwise_singleton _ _
  | cons q d ih =>
      obtain ⟨hq, hd⟩ := List.pairwise_cons.mp h
      simp only [Dictionary.insert]
      split
      · next heq => exact List.pairwise_cons.mpr ⟨fun p hp => heq ▸ hq p hp, hd⟩
      · next hne =>
        split
        · next hlt =>
          refine List.pairwise_cons.mpr ⟨fun p hp => ?_, h⟩
          rcases List.mem_cons.mp hp with rfl | hp
          · exact hlt
          · exact hlt.trans (hq p hp)
        · next hnlt =>
          refine List.pairwise_cons.mpr ⟨fun p hp => ?_, ih hd⟩
          rcases mem_insert hp with rfl | hp
          · exact lt_of_le_of_ne (not_lt.mp hnlt) (Ne.symm hne)
          · exact hq p hp

theorem isSorted_foldl_insert (pairs : List (String × α)) (h : IsSorted d) :
    IsSorted (pairs.foldl (fun d (k, v) => insert k v d) d) := by
  induction pairs generalizing d with
  | nil => exact h
  | cons p pairs ih => exact ih (h.insert p.1 p.2)

theorem isSorted_ofList (pairs : List (String × α)) : IsSorted (ofList pairs) :=
  isSorted_foldl_insert pairs isSorted_nil

/-! ### Looking up -/

theorem find?_append (pairs pairs' : List (String × α)) :
    find? k (pairs ++ pairs') = (find? k pairs).or (find? k pairs') := by
  induction pairs with
  | nil => rfl
  | cons p pairs ih =>
      simp only [List.cons_append, find?]
      split
      · rfl
      · exact ih

theorem mem_of_find? (h : find? k d = some v) : (k, v) ∈ d := by
  induction d with
  | nil => cases h
  | cons p d ih =>
      simp only [find?] at h
      split at h
      · next heq =>
        cases h
        exact heq ▸ List.mem_cons_self
      · exact List.mem_cons_of_mem p (ih h)

theorem find?_eq_none_iff : find? k d = none ↔ ∀ p ∈ d, p.1 ≠ k := by
  induction d with
  | nil => simp
  | cons p d ih =>
      simp only [find?, List.forall_mem_cons]
      split
      · next heq => simp [heq]
      · next hne => rw [ih, and_iff_right (Ne.symm hne)]

theorem find?_eq_some_iff (h : IsSorted d) : find? k d = some v ↔ (k, v) ∈ d := by
  refine ⟨mem_of_find?, fun hmem => ?_⟩
  induction d with
  | nil => cases hmem
  | cons p d ih =>
      obtain ⟨hp, hd⟩ := List.pairwise_cons.mp h
      simp only [find?]
      rcases List.mem_cons.mp hmem with rfl | hmem
      · rw [if_pos rfl]
      · rw [if_neg (hp _ hmem).ne', ih hd hmem]

theorem find?_filter (h : IsSorted d) (p : String × α → Bool) :
    find? k (d.filter p) = (find? k d).filter fun v => p (k, v) := by
  have hfilter : IsSorted (d.filter p) := h.sublist List.filter_sublist
  refine Option.ext fun v => ?_
  rw [find?_eq_some_iff hfilter, List.mem_filter, Option.filter_eq_some_iff, find?_eq_some_iff h]

theorem find?_filter_of_true (h : IsSorted d) {p : String × α → Bool}
    (hp : ∀ v, p (k, v) = true) : find? k (d.filter p) = find? k d := by
  rw [find?_filter h]
  cases find? k d with
  | none => rfl
  | some v => exact Option.filter_some_pos (hp v)

theorem find?_filter_of_false {p : String × α → Bool} (hp : ∀ v, p (k, v) = false) :
    find? k (d.filter p) = none := by
  refine find?_eq_none_iff.mpr fun q hq heq => ?_
  rw [← heq] at hp
  simpa [hp] using List.of_mem_filter hq

/-! ### Dictionaries from lists -/

theorem ext (hd : IsSorted d) (hd' : IsSorted d') (h : ∀ k, find? k d = find? k d') : d = d' := by
  have hnodup : ∀ {d : Dictionary α}, IsSorted d → d.Nodup := fun hd =>
    hd.imp fun hlt heq => absurd (heq ▸ hlt) (lt_irrefl _)
  have hperm : d.Perm d' := by
    refine (List.perm_ext_iff_of_nodup (hnodup hd) (hnodup hd')).mpr fun p => ?_
    rw [← find?_eq_some_iff hd, ← find?_eq_some_iff hd', h]
  exact hperm.eq_of_pairwise (fun p q _ _ hlt hgt => absurd hgt hlt.asymm) hd hd'

/-- If no key occurs twice, each pair counts. -/
theorem find?_foldl_insert {pairs : List (String × α)} (h : pairs.Pairwise fun p q => p.1 ≠ q.1)
    (d : Dictionary α) : find? k (pairs.foldl (fun d (k, v) => insert k v d) d) =
      (find? k pairs).or (find? k d) := by
  induction pairs generalizing d with
  | nil => rfl
  | cons p pairs ih =>
      obtain ⟨hp, hpairs⟩ := List.pairwise_cons.mp h
      rw [List.foldl_cons, ih hpairs]
      simp only [find?]
      split
      · next heq =>
        have hnone : find? k pairs = none := find?_eq_none_iff.mpr fun q hq => heq ▸ (hp q hq).symm
        rw [hnone, heq, find?_insert_self]
        rfl
      · next hne => rw [find?_insert_of_ne hne]

theorem find?_ofList {pairs : List (String × α)} (h : pairs.Pairwise fun p q => p.1 ≠ q.1) :
    find? k (ofList pairs) = find? k pairs := by
  rw [ofList, find?_foldl_insert h, find?_nil, Option.or_none]

theorem ofList_eq_self (h : IsSorted d) : ofList d = d :=
  ext (isSorted_ofList d) h fun _ => find?_ofList (h.imp fun hlt => hlt.ne)

end Keybindings.Dictionary
