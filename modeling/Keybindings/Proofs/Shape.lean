import Keybindings.Proofs.Document
import Keybindings.Proofs.Json.Values

/-!
Which JSON values are keybindings documents.

The shape of a document is read off its value: an array of objects whose interpreted properties are
null or strings where they are present (`Json.Value.isKeybindings`).  A text of such a value is read
as what its objects say (`Entry.Says`), and of any other value the first element that is out of
shape is reported (`Document.parse_decides`).
-/

namespace Keybindings

namespace Json.Value

/-- Whether an interpreted property may be as it is found: absent, null or a string. -/
def isField : Option Value → Bool
  | none | some .null | some (.string _) => true
  | some _ => false

/-- Whether a value is an object with interpreted properties that may be as they are. -/
def isKeybinding : Value → Bool
  | .object ms => ["key", "command", "when"].all fun name => isField (Dictionary.find? name ms)
  | _ => false

def isKeybindings : Value → Bool
  | .array vs => vs.all isKeybinding
  | _ => false

end Json.Value

open Json (Value Members)

/-- The entry says what the object with the members `ms` says: an interpreted property is absent
unless it is a string, and each other member is carried along once, with its value. -/
structure Entry.Says (e : Entry) (ms : Members) : Prop where
  key_eq : e.key = (ms.find? "key").bind Value.string?
  command_eq : e.command = (ms.find? "command").bind Value.string?
  when_eq : e.when = (ms.find? "when").bind Value.string?
  isSorted_extra : Dictionary.IsSorted e.extra
  find?_extra : ∀ k, Dictionary.find? k e.extra =
    if k = "key" ∨ k = "command" ∨ k = "when" then none else ms.find? k

/-- An interpreted property is out of shape, and the report is about its value. -/
def Entry.Faults (ms : Members) (cause : Json.Cause) : Prop :=
  ∃ name ∈ fieldNames, ∃ v, ms.find? name = some v ∧ Value.isField (some v) = false ∧
    cause = .wrongType v "a string"

namespace Entry

variable {ms : Members} {e : Entry} {name : String} {value : Option String}

/-! ### Single properties -/

theorem field_eq_ok_iff_isField : field ms name = .ok value ↔
    Value.isField (ms.find? name) = true ∧ value = (ms.find? name).bind Value.string? := by
  rw [field]
  cases ms.find? name with
  | none => simp [Value.isField, eq_comm]
  | some v => cases v <;> simp [Value.isField, Value.string?, eq_comm]

theorem field_of_not_isField (h : Value.isField (ms.find? name) = false) :
    ∃ v, ms.find? name = some v ∧ Value.isField (some v) = false ∧
      field ms name = .error (.wrongType v "a string") := by
  rw [field]
  cases hv : ms.find? name with
  | none =>
      rw [hv] at h
      cases h
  | some v =>
      rw [hv] at h
      refine ⟨v, rfl, h, ?_⟩
      cases v with
      | null => cases h
      | string s => cases h
      | _ => rfl

/-! ### Objects -/

theorem exists_ofMembers_iff :
    (∃ e, ofMembers ms = .ok e) ↔ (Value.object ms).isKeybinding = true := by
  simp only [Value.isKeybinding, List.all_cons, List.all_nil, Bool.and_true, Bool.and_eq_true]
  constructor
  · rintro ⟨e, he⟩
    obtain ⟨hcommand, hkey, hwhen, -⟩ := ofMembers_eq_ok_iff.mp he
    rw [field_eq_ok_iff_isField] at hcommand hkey hwhen
    exact ⟨hkey.1, hcommand.1, hwhen.1⟩
  · rintro ⟨hkey, hcommand, hwhen⟩
    refine ⟨⟨(ms.find? "key").bind Value.string?, (ms.find? "command").bind Value.string?,
      (ms.find? "when").bind Value.string?, ms.filter isExtra⟩, ofMembers_eq_ok_iff.mpr ?_⟩
    exact ⟨field_eq_ok_iff_isField.mpr ⟨hcommand, rfl⟩, field_eq_ok_iff_isField.mpr ⟨hkey, rfl⟩,
      field_eq_ok_iff_isField.mpr ⟨hwhen, rfl⟩, rfl⟩

theorem says_of_ofMembers (hsorted : Dictionary.IsSorted ms) (h : ofMembers ms = .ok e) :
    e.Says ms := by
  obtain ⟨hcommand, hkey, hwhen, hextra⟩ := ofMembers_eq_ok_iff.mp h
  rw [field_eq_ok_iff_isField] at hcommand hkey hwhen
  refine ⟨hkey.2, hcommand.2, hwhen.2, (wellFormed_of_ofMembers hsorted h).isSorted, fun k => ?_⟩
  rw [hextra]
  split
  · next hk =>
    have hfield : k ∈ fieldNames := mem_fieldNames.mpr (by tauto)
    exact Dictionary.find?_filter_of_false (by simp [isExtra, hfield])
  · next hk =>
    have hfield : k ∉ fieldNames := notMem_fieldNames.mpr (by tauto)
    exact Dictionary.find?_filter_of_true hsorted (by simp [isExtra, hfield])

theorem faults_of_ofMembers {cause : Json.Cause} (h : ofMembers ms = .error cause) :
    Faults ms cause := by
  have hfault : ∀ name ∈ fieldNames, ∀ cause, field ms name = .error cause → Faults ms cause := by
    intro name hname cause hfield
    cases hok : Value.isField (ms.find? name) with
    | true =>
        rw [field_eq_ok_iff_isField.mpr ⟨hok, rfl⟩] at hfield
        cases hfield
    | false =>
        obtain ⟨v, hv, hbad, heq⟩ := field_of_not_isField hok
        exact ⟨name, hname, v, hv, hbad, Except.error.inj (hfield.symm.trans heq)⟩
  rw [ofMembers] at h
  cases hcommand : field ms "command" with
  | error cause' =>
      rw [hcommand] at h
      cases h
      exact hfault "command" (by decide) _ hcommand
  | ok command =>
      cases hkey : field ms "key" with
      | error cause' =>
          rw [hcommand, hkey] at h
          cases h
          exact hfault "key" (by decide) _ hkey
      | ok key =>
          cases hwhen : field ms "when" with
          | error cause' =>
              rw [hcommand, hkey, hwhen] at h
              cases h
              exact hfault "when" (by decide) _ hwhen
          | ok when =>
              rw [hcommand, hkey, hwhen] at h
              cases h

end Entry

namespace Document

/-! ### Arrays -/

theorem entriesFrom_append_of_error {k : Nat} {us vs : List Value} {e : ParseError}
    (hus : ∀ u ∈ us, u.isKeybinding = true) (h : entriesFrom (k + us.length) vs = .error e) :
    entriesFrom k (us ++ vs) = .error e := by
  induction us generalizing k with
  | nil => exact h
  | cons u us ih =>
      have hu := hus u List.mem_cons_self
      cases u with
      | object ms =>
          obtain ⟨e', he'⟩ := Entry.exists_ofMembers_iff.mpr hu
          rw [List.length_cons, ← Nat.add_assoc, Nat.add_right_comm] at h
          rw [List.cons_append, entriesFrom, he',
            ih (fun u' hu' => hus u' (List.mem_cons_of_mem _ hu')) h]
          rfl
      | _ => cases hu

theorem exists_entriesFrom_iff {k : Nat} {vs : List Value} :
    (∃ es, entriesFrom k vs = .ok es) ↔ ∀ v ∈ vs, v.isKeybinding = true := by
  induction vs generalizing k with
  | nil => exact ⟨fun _ => by simp, fun _ => ⟨[], rfl⟩⟩
  | cons v vs ih =>
      rw [List.forall_mem_cons, ← ih (k := k + 1)]
      constructor
      · rintro ⟨es, h⟩
        obtain ⟨ms, e, es', rfl, -, he, hes⟩ := entriesFrom_cons_eq_ok_iff.mp h
        exact ⟨Entry.exists_ofMembers_iff.mp ⟨e, he⟩, es', hes⟩
      · rintro ⟨hv, es', hes⟩
        cases v with
        | object ms =>
            obtain ⟨e, he⟩ := Entry.exists_ofMembers_iff.mpr hv
            exact ⟨e :: es', entriesFrom_cons_eq_ok_iff.mpr ⟨ms, e, es', rfl, rfl, he, hes⟩⟩
        | _ => cases hv

theorem exists_ofValue_iff {v : Value} :
    (∃ es, ofValue v = .ok es) ↔ v.isKeybindings = true := by
  cases v with
  | array vs => exact exists_entriesFrom_iff.trans List.all_eq_true.symm
  | _ => exact ⟨fun ⟨_, h⟩ => (nomatch h), nofun⟩

/-- What is reported of an array whose first element out of shape is `u`. -/
theorem ofValue_eq_error {us ws : List Value} {u : Value}
    (hus : ∀ x ∈ us, x.isKeybinding = true) (hu : u.isKeybinding = false) :
    (u.isObject = false →
        ofValue (.array (us ++ u :: ws)) = .error (.entryNotObject us.length u.kind)) ∧
      ∀ ms, u = .object ms → ∃ cause, Entry.Faults ms cause ∧
        ofValue (.array (us ++ u :: ws)) = .error (.invalidEntry us.length cause) := by
  constructor
  · intro hobject
    refine entriesFrom_append_of_error hus ?_
    rw [Nat.zero_add]
    cases u with
    | object ms => cases hobject
    | _ => rfl
  · rintro ms rfl
    cases hms : Entry.ofMembers ms with
    | ok e =>
        rw [Entry.exists_ofMembers_iff.mp ⟨e, hms⟩] at hu
        cases hu
    | error cause =>
        refine ⟨cause, Entry.faults_of_ofMembers hms, entriesFrom_append_of_error hus ?_⟩
        rw [Nat.zero_add, entriesFrom, hms]
        rfl

/-! ### Texts -/

theorem isSorted_of_read {t : Text} {vs : List Value} {ms : Members}
    (h : Json.read t = .ok (.array vs)) (hms : .object ms ∈ vs) : Dictionary.IsSorted ms :=
  ((Json.fits_of_read h).items _ hms).members.1

/-- The entries that are read say what the elements say, one for each in their order. -/
theorem says_of_parse {t : Text} {vs : List Value} {es : List Entry}
    (hread : Json.read t = .ok (.array vs)) (h : parse t = .ok es) :
    List.Forall₂ (fun v e => ∃ ms, v = .object ms ∧ e.Says ms) vs es := by
  rw [parse, hread] at h
  have hes := entriesFrom_eq_ok_iff.mp h
  refine List.forall₂_iff_get.mpr ⟨hes.length_eq, fun i hi hi' => ?_⟩
  obtain ⟨ms, hms, he⟩ := hes.get hi hi'
  exact ⟨ms, hms, Entry.says_of_ofMembers
    (isSorted_of_read hread (hms ▸ List.get_mem vs ⟨i, hi⟩)) he⟩

/-- A text is read as a document exactly if its value has the shape of one, and then as the entries
that its elements say.  Otherwise the report tells that the text holds no value or no array, or it
names the first element that is out of shape. -/
theorem parse_decides (t : Text) :
    (∀ f, Json.read t = .error f →
        parse t = .error (.invalidJson f.cause (f.place t).1 (f.place t).2)) ∧
      ∀ v, Json.read t = .ok v →
        ((∃ es, parse t = .ok es) ↔ v.isKeybindings = true) ∧
        (∀ es, parse t = .ok es → ∃ vs, v = .array vs ∧
          List.Forall₂ (fun u e => ∃ ms, u = .object ms ∧ e.Says ms) vs es) ∧
        ((∀ vs, v ≠ .array vs) → parse t = .error (.notAnArray v.kind)) ∧
        ∀ us u ws, v = .array (us ++ u :: ws) → (∀ x ∈ us, x.isKeybinding = true) →
          u.isKeybinding = false →
            (u.isObject = false → parse t = .error (.entryNotObject us.length u.kind)) ∧
            ∀ ms, u = .object ms → ∃ cause, Entry.Faults ms cause ∧
              parse t = .error (.invalidEntry us.length cause) := by
  constructor
  · intro f hf
    rw [parse, hf]
  · intro v hread
    have hparse : parse t = ofValue v := by rw [parse, hread]
    refine ⟨?_, fun es hes => ?_, fun hv => ?_, ?_⟩
    · rw [hparse]
      exact exists_ofValue_iff
    · obtain ⟨vs, rfl, -⟩ := ofValue_eq_ok.mp (hparse ▸ hes)
      exact ⟨vs, rfl, says_of_parse hread hes⟩
    · rw [hparse]
      cases v with
      | array vs => exact absurd rfl (hv vs)
      | _ => rfl
    · rintro us u ws rfl hus hu
      rw [hparse]
      exact ofValue_eq_error hus hu

/-- A repeated command of which the last counts, a null, a key that is no string, and no object. -/
def mixedText : Text :=
  ("[\x7b\"command\": 1, \"command\": \"a\", \"when\": null\x7d, " ++
    "\x7b\"key\": 5, \"args\": []\x7d, 7]").toList

theorem parse_decides_mixed : ∃ us ms ws,
    Json.read mixedText = .ok (.array (us ++ .object ms :: ws)) ∧
      (∀ x ∈ us, x.isKeybinding = true) ∧ (Value.object ms).isKeybinding = false ∧
      ∃ cause, Entry.Faults ms cause ∧ parse mixedText = .error (.invalidEntry 1 cause) :=
  let us : List Value := [.object [("command", .string "a"), ("when", .null)]]
  let ms : Members := [("args", .array []), ("key", .number (.int 5))]
  let ws : List Value := [.number (.int 7)]
  have hus : ∀ x ∈ us, x.isKeybinding = true := List.forall_mem_singleton.mpr rfl
  ⟨us, ms, ws, rfl, hus, rfl,
    (((parse_decides mixedText).2 _ rfl).2.2.2 us (.object ms) ws rfl hus rfl).2 ms rfl⟩

end Document

end Keybindings
