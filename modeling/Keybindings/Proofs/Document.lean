import Keybindings.Document
import Keybindings.Proofs.Entry
import Keybindings.Proofs.Json.Layout
import Mathlib.Data.List.Forall2

/-!
Which texts are keybindings documents.

A text is one exactly if it has a layout whose objects all are entries (`Document.parse_eq_ok_iff`).
-/

namespace Keybindings

/-- The value is read as the entry `e`. -/
def Json.Value.IsEntry (v : Json.Value) (e : Entry) : Prop :=
  ∃ ms, v = .object ms ∧ Entry.ofMembers ms = .ok e

/-- The element is the text of the entry `e`. -/
def Json.Element.Holds (x : Json.Element) (e : Entry) : Prop :=
  Entry.ofMembers x.members = .ok e

theorem Json.Element.isEntry_value_iff {x : Json.Element} {e : Entry} :
    x.value.IsEntry e ↔ x.Holds e := by
  constructor
  · rintro ⟨ms, hms, he⟩
    cases hms
    exact he
  · exact fun he => ⟨x.members, rfl, he⟩

namespace Document

theorem entriesFrom_cons_eq_ok_iff {k : Nat} {v : Json.Value} {vs : List Json.Value}
    {es : List Entry} : entriesFrom k (v :: vs) = .ok es ↔
      ∃ ms e es', v = .object ms ∧ es = e :: es' ∧ Entry.ofMembers ms = .ok e ∧
        entriesFrom (k + 1) vs = .ok es' := by
  constructor
  · intro h
    cases v with
    | object ms =>
        cases he : Entry.ofMembers ms with
        | error cause =>
            rw [entriesFrom, he] at h
            cases h
        | ok e =>
            cases hes : entriesFrom (k + 1) vs with
            | error cause =>
                rw [entriesFrom, he, hes] at h
                cases h
            | ok es' =>
                rw [entriesFrom, he, hes] at h
                cases h
                exact ⟨ms, e, es', rfl, rfl, he, rfl⟩
    | _ => cases h
  · rintro ⟨ms, e, es', rfl, rfl, he, hes⟩
    rw [entriesFrom, he, hes]
    rfl

/-- The index counts in reports only. -/
theorem entriesFrom_eq_ok_iff {k : Nat} {vs : List Json.Value} {es : List Entry} :
    entriesFrom k vs = .ok es ↔ List.Forall₂ Json.Value.IsEntry vs es := by
  induction vs generalizing k es with
  | nil =>
      rw [entriesFrom, List.forall₂_nil_left_iff]
      exact ⟨fun h => by cases h; rfl, fun h => by rw [h]⟩
  | cons v vs ih =>
      rw [entriesFrom_cons_eq_ok_iff, List.forall₂_cons_left_iff]
      constructor
      · rintro ⟨ms, e, es', hms, rfl, he, hes⟩
        exact ⟨e, es', ⟨ms, hms, he⟩, ih.mp hes, rfl⟩
      · rintro ⟨e, es', ⟨ms, hms, he⟩, hes, rfl⟩
        exact ⟨ms, e, es', hms, rfl, he, ih.mpr hes⟩

theorem isObject_of_entriesFrom {k : Nat} {vs : List Json.Value} {es : List Entry}
    (h : entriesFrom k vs = .ok es) : ∀ v ∈ vs, v.isObject := by
  induction vs generalizing k es with
  | nil => simp
  | cons v vs ih =>
      obtain ⟨ms, e, es', rfl, rfl, he, hes⟩ := entriesFrom_cons_eq_ok_iff.mp h
      intro u hu
      rcases List.mem_cons.mp hu with rfl | hu
      · rfl
      · exact ih hes u hu

theorem entriesFrom_elements {k : Nat} {xs : List Json.Element} {es : List Entry} :
    entriesFrom k (xs.map Json.Element.value) = .ok es ↔
      List.Forall₂ Json.Element.Holds xs es := by
  simp only [entriesFrom_eq_ok_iff, List.forall₂_map_left_iff, Json.Element.isEntry_value_iff]

theorem parse_eq_ok {t : Text} {es : List Entry} :
    parse t = .ok es ↔ ∃ v, Json.read t = .ok v ∧ ofValue v = .ok es := by
  rw [parse]
  cases Json.read t with
  | error f => simp
  | ok v => simp

theorem ofValue_eq_ok {v : Json.Value} {es : List Entry} :
    ofValue v = .ok es ↔ ∃ vs, v = .array vs ∧ entriesFrom 0 vs = .ok es := by
  cases v <;> simp [ofValue]

theorem parse_text {L : Json.Layout} {es : List Entry} :
    parse L.text = .ok es ↔ List.Forall₂ Json.Element.Holds L.elements es := by
  rw [parse, L.read_text]
  exact entriesFrom_elements

theorem parse_eq_ok_iff {t : Text} {es : List Entry} :
    parse t = .ok es ↔
      ∃ L : Json.Layout, t = L.text ∧ List.Forall₂ Json.Element.Holds L.elements es := by
  constructor
  · intro h
    obtain ⟨v, hread, hv⟩ := parse_eq_ok.mp h
    obtain ⟨vs, rfl, hes⟩ := ofValue_eq_ok.mp hv
    obtain ⟨L, rfl, rfl⟩ := Json.exists_layout hread (isObject_of_entriesFrom hes)
    exact ⟨L, rfl, entriesFrom_elements.mp hes⟩
  · rintro ⟨L, rfl, hes⟩
    exact parse_text.mpr hes

end Document

end Keybindings
