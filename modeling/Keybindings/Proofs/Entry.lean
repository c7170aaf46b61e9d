import Keybindings.Entry
import Keybindings.Proofs.Dictionary

/-!
Entries and the objects they are read from.

An entry that is written as an object and read again is the same entry (`Entry.ofMembers_members`).
The object that is written has the members of the one that was read, in the order of their keys,
except for the interpreted properties that were null (`Entry.ofList_members`).
-/

namespace Keybindings

theorem bind_eq_ok_iff {ε α β : Type} {x : Except ε α} {f : α → Except ε β} {b : β} :
    (x >>= f) = .ok b ↔ ∃ a, x = .ok a ∧ f a = .ok b := by
  cases x with
  | error e => exact ⟨nofun, fun ⟨_, h, _⟩ => nomatch h⟩
  | ok a => exact ⟨fun h => ⟨a, rfl, h⟩, fun ⟨_, h, hf⟩ => Except.ok.inj h ▸ hf⟩

theorem map_eq_ok_iff {ε α β : Type} {x : Except ε α} {f : α → β} {b : β} :
    x.map f = .ok b ↔ ∃ a, x = .ok a ∧ f a = b := by
  cases x with
  | error e => exact ⟨nofun, fun ⟨_, h, _⟩ => nomatch h⟩
  | ok a => simp [Except.map]

theorem exists_map_eq_ok_iff {ε α β : Type} {x : Except ε α} {f : α → β} :
    (∃ b, x.map f = .ok b) ↔ ∃ a, x = .ok a := by
  simp only [map_eq_ok_iff]
  exact ⟨fun ⟨_, a, ha, _⟩ => ⟨a, ha⟩, fun ⟨a, ha⟩ => ⟨_, a, ha, rfl⟩⟩

def Json.Value.isNull : Json.Value → Bool
  | .null => true
  | _ => false

namespace Entry

variable {e : Entry} {ms : Json.Members} {k name : String} {value : Option String}

/-- Whether a member is carried along without being interpreted. -/
def isExtra (m : String × Json.Value) : Bool :=
  !fieldNames.contains m.1

/-- The other members of an entry are in the order of their keys, and none of them is one of the
interpreted properties. -/
structure WellFormed (e : Entry) : Prop where
  isSorted : Dictionary.IsSorted e.extra
  all_isExtra : ∀ m ∈ e.extra, isExtra m

theorem mem_fieldNames : k ∈ fieldNames ↔ k = "command" ∨ k = "key" ∨ k = "when" := by
  simp [fieldNames]

theorem notMem_fieldNames : k ∉ fieldNames ↔ k ≠ "command" ∧ k ≠ "key" ∧ k ≠ "when" := by
  simp [fieldNames]

/-! ### Reading an entry -/

theorem ofMembers_eq_ok_iff : ofMembers ms = .ok e ↔
    field ms "command" = .ok e.command ∧ field ms "key" = .ok e.key ∧
      field ms "when" = .ok e.when ∧ e.extra = ms.filter isExtra := by
  simp only [ofMembers, bind_eq_ok_iff]
  constructor
  · rintro ⟨command, hcommand, key, hkey, when, hwhen, h⟩
    cases h
    exact ⟨hcommand, hkey, hwhen, rfl⟩
  · rintro ⟨hcommand, hkey, hwhen, hextra⟩
    refine ⟨_, hcommand, _, hkey, _, hwhen, ?_⟩
    obtain ⟨key, command, when, extra⟩ := e
    cases hextra
    rfl

/-- A property that is null counts as absent. -/
theorem field_eq_ok_iff : field ms name = .ok value ↔
    (ms.find? name).filter (!·.isNull) = value.map Json.Value.string := by
  rw [field]
  cases ms.find? name with
  | none => cases value <;> simp
  | some v => cases v <;> cases value <;> simp [Json.Value.isNull, Option.filter]

theorem wellFormed_of_ofMembers (hsorted : Dictionary.IsSorted ms) (h : ofMembers ms = .ok e) :
    e.WellFormed := by
  obtain ⟨-, -, -, hextra⟩ := ofMembers_eq_ok_iff.mp h
  refine ⟨?_, fun m hm => ?_⟩
  · rw [hextra]
    exact hsorted.sublist List.filter_sublist
  · rw [hextra] at hm
    exact List.of_mem_filter hm

/-! ### Writing an entry -/

theorem find?_writtenField (k name : String) (value : Option String) :
    Dictionary.find? k (writtenField name value) =
      if k = name then value.map .string else none := by
  cases value with
  | none => simp [writtenField]
  | some s => simp [writtenField, Dictionary.find?]

theorem exists_of_mem_writtenField {m : String × Json.Value} (h : m ∈ writtenField name value) :
    ∃ s, m = (name, .string s) := by
  cases value with
  | none => cases h
  | some s => exact ⟨s, List.mem_singleton.mp h⟩

/-- The members that stand for the interpreted properties. -/
def writtenFields (e : Entry) : List (String × Json.Value) :=
  writtenField "key" e.key ++ writtenField "command" e.command ++ writtenField "when" e.when

theorem members_eq (e : Entry) : e.members = e.writtenFields ++ e.extra := rfl

theorem mem_writtenFields {m : String × Json.Value} (h : m ∈ e.writtenFields) :
    m.1 ∈ fieldNames ∧ ∃ s, m.2 = .string s := by
  simp only [writtenFields, List.mem_append] at h
  rcases h with (h | h) | h <;> obtain ⟨s, rfl⟩ := exists_of_mem_writtenField h <;>
    exact ⟨by simp [fieldNames], s, rfl⟩

theorem pairwise_writtenField (name : String) (value : Option String) :
    (writtenField name value).Pairwise fun p q => p.1 ≠ q.1 := by
  cases value with
  | none => exact .nil
  | some s => exact List.pairwise_singleton _ _

theorem find?_members (k : String) (e : Entry) :
    Dictionary.find? k e.members =
      (if k = "key" then e.key.map Json.Value.string else none).or
        ((if k = "command" then e.command.map Json.Value.string else none).or
          ((if k = "when" then e.when.map Json.Value.string else none).or
            (Dictionary.find? k e.extra))) := by
  simp only [members, Dictionary.find?_append, find?_writtenField, Option.or_assoc]

theorem WellFormed.find?_extra (he : e.WellFormed) (hk : k ∈ fieldNames) :
    Dictionary.find? k e.extra = none := by
  refine Dictionary.find?_eq_none_iff.mpr fun m hm heq => ?_
  have hextra := he.all_isExtra m hm
  simp [isExtra, heq, hk] at hextra

theorem pairwise_writtenFields (e : Entry) : e.writtenFields.Pairwise fun p q => p.1 ≠ q.1 := by
  have hne : ∀ {p q : String × Json.Value} {name name' : String} {value value' : Option String},
      name ≠ name' → p ∈ writtenField name value → q ∈ writtenField name' value' → p.1 ≠ q.1 := by
    intro p q name name' value value' hne hp hq
    obtain ⟨s, rfl⟩ := exists_of_mem_writtenField hp
    obtain ⟨s', rfl⟩ := exists_of_mem_writtenField hq
    exact hne
  simp only [writtenFields, List.pairwise_append, List.mem_append]
  refine ⟨⟨pairwise_writtenField _ _, pairwise_writtenField _ _, fun p hp q hq => ?_⟩,
    pairwise_writtenField _ _, fun p hp q hq => ?_⟩
  · exact hne (by decide) hp hq
  · exact hp.elim (hne (by decide) · hq) (hne (by decide) · hq)

theorem WellFormed.pairwise_members (he : e.WellFormed) :
    e.members.Pairwise fun p q => p.1 ≠ q.1 := by
  have hextra : e.extra.Pairwise fun p q => p.1 ≠ q.1 := he.isSorted.imp fun hlt => hlt.ne
  rw [members_eq]
  refine List.pairwise_append.mpr ⟨pairwise_writtenFields e, hextra, fun p hp q hq => ?_⟩
  have hnone := he.find?_extra (mem_writtenFields hp).1
  exact (Dictionary.find?_eq_none_iff.mp hnone q hq).symm

theorem WellFormed.find?_ofList_members (he : e.WellFormed) (k : String) :
    Dictionary.find? k (Dictionary.ofList e.members) =
      if k = "key" then e.key.map Json.Value.string
      else if k = "command" then e.command.map Json.Value.string
      else if k = "when" then e.when.map Json.Value.string
      else Dictionary.find? k e.extra := by
  rw [Dictionary.find?_ofList he.pairwise_members, find?_members]
  by_cases hfield : k ∈ fieldNames
  · rw [he.find?_extra hfield]
    rcases mem_fieldNames.mp hfield with rfl | rfl | rfl <;> simp
  · obtain ⟨hcommand, hkey, hwhen⟩ := notMem_fieldNames.mp hfield
    simp [hcommand, hkey, hwhen]

/-- An entry is read from the object that it is written as. -/
theorem WellFormed.ofMembers_members (he : e.WellFormed) :
    ofMembers (Dictionary.ofList e.members) = .ok e := by
  have hstring : ∀ value : Option String,
      (value.map Json.Value.string).filter (!·.isNull) = value.map Json.Value.string := by
    intro value
    cases value <;> rfl
  have hsorted := Dictionary.isSorted_ofList e.members
  rw [ofMembers_eq_ok_iff, field_eq_ok_iff, field_eq_ok_iff, field_eq_ok_iff]
  rw [he.find?_ofList_members, he.find?_ofList_members, he.find?_ofList_members]
  refine ⟨hstring e.command, hstring e.key, hstring e.when,
    Dictionary.ext he.isSorted (hsorted.sublist List.filter_sublist) fun k => ?_⟩
  by_cases hfield : k ∈ fieldNames
  · rw [he.find?_extra hfield, Dictionary.find?_filter_of_false (by simp [isExtra, hfield])]
  · obtain ⟨hcommand, hkey, hwhen⟩ := notMem_fieldNames.mp hfield
    rw [Dictionary.find?_filter_of_true hsorted (by simp [isExtra, hfield]),
      he.find?_ofList_members, if_neg hkey, if_neg hcommand, if_neg hwhen]

/-- The members that are written back: a `key` or `when` that is null is left out. -/
def writtenMembers (ms : Json.Members) : Json.Members :=
  ms.filter fun m => !(m.2.isNull && (m.1 == "key" || m.1 == "when"))

theorem ofList_members (hsorted : Dictionary.IsSorted ms) (h : ofMembers ms = .ok e)
    (hcommand : e.command ≠ none) : Dictionary.ofList e.members = writtenMembers ms := by
  have he : e.WellFormed := wellFormed_of_ofMembers hsorted h
  obtain ⟨hc, hk, hw, hextra⟩ := ofMembers_eq_ok_iff.mp h
  rw [field_eq_ok_iff] at hc hk hw
  refine Dictionary.ext (Dictionary.isSorted_ofList _) (hsorted.sublist List.filter_sublist)
    fun k => ?_
  rw [he.find?_ofList_members, writtenMembers]
  by_cases hfield : k ∈ fieldNames
  · rcases mem_fieldNames.mp hfield with rfl | rfl | rfl
    · -- a command that is not absent is not null either
      obtain ⟨c, hsome⟩ := Option.ne_none_iff_exists'.mp hcommand
      rw [hsome] at hc
      obtain ⟨hfind, -⟩ := Option.filter_eq_some_iff.mp hc
      rw [if_neg (by decide), if_pos rfl, hsome, Option.map_some,
        Dictionary.find?_filter_of_true hsorted (by simp), hfind]
    · rw [if_pos rfl, ← hk, Dictionary.find?_filter hsorted]
      simp
    · rw [if_neg (by decide), if_neg (by decide), if_pos rfl, ← hw,
        Dictionary.find?_filter hsorted]
      simp
  · obtain ⟨hcommand, hkey, hwhen⟩ := notMem_fieldNames.mp hfield
    rw [if_neg hkey, if_neg hcommand, if_neg hwhen, hextra,
      Dictionary.find?_filter_of_true hsorted (by simp [isExtra, hfield]),
      Dictionary.find?_filter_of_true hsorted (by simp [hkey, hwhen])]

/-- The object of an entry with a command, as it is written. -/
def written : Json.Value → Json.Value
  | .object ms => .object (writtenMembers ms)
  | v => v

end Entry

end Keybindings
