/-!
Dictionaries with string keys, as lists of pairs in ascending order of the keys.

`insert` keeps the order and replaces the value of a key that is present, so a dictionary built by
insertions holds the last value of each key.
-/

namespace Keybindings

/-- Keys with their values, in ascending order of the keys. -/
abbrev Dictionary (α : Type) := List (String × α)

namespace Dictionary

variable {α : Type}

def find? (k : String) : Dictionary α → Option α
  | [] => none
  | (k', v) :: d => if k = k' then some v else find? k d

def insert (k : String) (v : α) : Dictionary α → Dictionary α
  | [] => [(k, v)]
  | (k', v') :: d =>
    if k = k' then (k, v) :: d
    else if k < k' then (k, v) :: (k', v') :: d
    else (k', v') :: insert k v d

def erase (k : String) : Dictionary α → Dictionary α
  | [] => []
  | (k', v) :: d => if k = k' then erase k d else (k', v) :: erase k d

/-- The dictionary of a list of pairs, of which the last with a key counts. -/
def ofList (pairs : List (String × α)) : Dictionary α :=
  pairs.foldl (fun d (k, v) => insert k v d) []

@[simp] theorem find?_nil (k : String) : find? k ([] : Dictionary α) = none := rfl

@[simp] theorem find?_insert_self (k : String) (v : α) (d : Dictionary α) :
    find? k (insert k v d) = some v := by
  induction d with
  | nil => simp [insert, find?]
  | cons p d ih =>
    simp only [insert]
    split
    · simp [find?]
    · split <;> simp_all [find?]

theorem find?_insert_of_ne {k k' : String} (h : k' ≠ k) (v : α) (d : Dictionary α) :
    find? k' (insert k v d) = find? k' d := by
  induction d with
  | nil => simp [insert, find?, h]
  | cons p d ih =>
    simp only [insert]
    split
    · simp_all [find?]
    · split <;> simp_all [find?]

@[simp] theorem find?_erase_self (k : String) (d : Dictionary α) : find? k (erase k d) = none := by
  induction d with
  | nil => rfl
  | cons p d ih =>
    simp only [erase]
    split <;> simp_all [find?]

theorem find?_erase_of_ne {k k' : String} (h : k' ≠ k) (d : Dictionary α) :
    find? k' (erase k d) = find? k' d := by
  induction d with
  | nil => rfl
  | cons p d ih =>
    simp only [erase]
    split <;> simp_all [find?]

end Dictionary

end Keybindings
