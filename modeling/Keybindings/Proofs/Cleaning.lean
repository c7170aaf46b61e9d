import Keybindings.Cleaning
import Keybindings.Proofs.Json.Printing
import Keybindings.Proofs.Validation

/-!
What cleaning writes.

A document that is written from entries is read as these entries again (`Document.parse_render`),
as long as no double is among their properties.  So cleaning keeps the objects of the valid entries
as they were (`read_cleanDocument`), and there is nothing left to clean or to report in its result
(`cleanDocument_cleaned`).
-/

namespace Keybindings

/-- An entry that is read again from its object in a document. -/
structure Entry.IsPrintable (e : Entry) : Prop extends e.WellFormed where
  fits : ∀ m ∈ e.extra, m.2.Fits (Json.maxDepth - 2)
  isExact : ∀ m ∈ e.extra, m.2.isExact

theorem Entry.IsPrintable.readsAs {e : Entry} (he : e.IsPrintable) (level : Nat) :
    Json.State.ReadsAs (Json.maxDepth - 1) (e.toValue.prettyAt level)
      (.object (Dictionary.ofList e.members)) := by
  refine Json.State.readsAs_object (n := Json.maxDepth - 2) fun m hm => ?_
  rcases List.mem_append.mp hm with hm | hm
  · obtain ⟨-, s, hs⟩ := mem_writtenFields hm
    rw [hs]
    exact Json.State.readsAs_printString _ s
  · exact Json.State.readsAs_prettyAt (he.fits m hm) (he.isExact m hm) _

theorem Json.Value.IsEntry.isPrintable {v : Json.Value} {e : Entry} (h : v.IsEntry e)
    (hfits : v.Fits (Json.maxDepth - 1)) (hexact : v.isExact) : e.IsPrintable := by
  obtain ⟨ms, rfl, he⟩ := h
  obtain ⟨hsorted, hmembers⟩ := Json.Value.Fits.members (n := Json.maxDepth - 2) hfits
  have hextra : ∀ m ∈ e.extra, m ∈ ms := by
    rw [(Entry.ofMembers_eq_ok_iff.mp he).2.2.2]
    exact fun m hm => List.mem_of_mem_filter hm
  exact {
    toWellFormed := Entry.wellFormed_of_ofMembers hsorted he
    fits := fun m hm => hmembers m (hextra m hm)
    isExact := fun m hm => Json.Value.isExact_object.mp hexact m (hextra m hm) }

namespace Document

variable {t : Text} {es : List Entry} {v : Json.Value}

/-- The objects of an accepted text with the entries they are read as. -/
theorem exists_objects (h : parse t = .ok es) (hread : Json.read t = .ok v) :
    ∃ vs, v = .array vs ∧ List.Forall₂ Json.Value.IsEntry vs es := by
  obtain ⟨u, hu, hes⟩ := parse_eq_ok.mp h
  rw [hread] at hu
  cases hu
  obtain ⟨vs, rfl, hvs⟩ := ofValue_eq_ok.mp hes
  exact ⟨vs, rfl, entriesFrom_eq_ok_iff.mp hvs⟩

theorem read_render (h : ∀ e ∈ es, e.IsPrintable) :
    Json.read (render es) =
      .ok (.array (es.map fun e => .object (Dictionary.ofList e.members))) := by
  refine Json.read_of_readsAs ?_
  exact Json.State.readsAs_array (n := Json.maxDepth - 1) fun e he => (h e he).readsAs 1

/-- Writing and reading a document gives the entries it was written from. -/
theorem parse_render (h : ∀ e ∈ es, e.IsPrintable) : parse (render es) = .ok es := by
  refine parse_eq_ok.mpr ⟨_, read_render h, ?_⟩
  refine ofValue_eq_ok.mpr ⟨_, rfl, entriesFrom_eq_ok_iff.mpr ?_⟩
  rw [List.forall₂_map_left_iff, List.forall₂_same]
  exact fun e he => ⟨_, rfl, (h e he).ofMembers_members⟩

/-- The entries of a text without doubles, with the objects they are read from. -/
theorem isPrintable_of_parse (h : parse t = .ok es) (hread : Json.read t = .ok v)
    (hexact : v.isExact) : ∀ e ∈ es, e.IsPrintable := by
  obtain ⟨vs, rfl, hentries⟩ := exists_objects h hread
  have hfits := Json.Value.Fits.items (n := Json.maxDepth - 1) (Json.fits_of_read hread)
  have hitems := Json.Value.isExact_array.mp hexact
  clear h hread hexact
  induction hentries with
  | nil => exact List.forall_mem_nil _
  | cons hentry _ ih =>
      obtain ⟨hv, hfits⟩ := List.forall_mem_cons.mp hfits
      obtain ⟨hv', hitems⟩ := List.forall_mem_cons.mp hitems
      exact List.forall_mem_cons.mpr ⟨hentry.isPrintable hv hv', ih hfits hitems⟩

end Document

theorem Entry.command_ne_none {e : Entry} {r : Registry} (h : e.isValid r) : e.command ≠ none := by
  intro hnone
  rw [isValid, commandRef?, hnone] at h
  cases h

/-- A valid entry is written as its object without the nulls. -/
theorem Json.Value.IsEntry.object_members {v : Json.Value} {e : Entry} {r : Registry}
    (h : v.IsEntry e) {n : Nat} (hfits : v.Fits (n + 1)) (hvalid : e.isValid r) :
    Json.Value.object (Dictionary.ofList e.members) = Entry.written v := by
  obtain ⟨ms, rfl, he⟩ := h
  rw [Entry.written, Entry.ofList_members hfits.members.1 he (Entry.command_ne_none hvalid)]

theorem map_clean {vs : List Json.Value} {es : List Entry} (r : Registry)
    (h : List.Forall₂ Json.Value.IsEntry vs es) {n : Nat} (hfits : ∀ v ∈ vs, v.Fits (n + 1)) :
    (clean es r).map (fun e => Json.Value.object (Dictionary.ofList e.members)) =
      ((vs.zip es).filter (·.2.isValid r)).map (Entry.written ·.1) := by
  induction h with
  | nil => rfl
  | @cons v e vs es hentry _ ih =>
      obtain ⟨hv, hfits⟩ := List.forall_mem_cons.mp hfits
      cases hvalid : e.isValid r with
      | false =>
          rw [clean_cons_invalid hvalid, ih hfits]
          simp [hvalid]
      | true =>
          rw [clean_cons_valid hvalid, List.map_cons, hentry.object_members hv hvalid, ih hfits]
          simp [hvalid]

theorem isPrintable_clean {es : List Entry} (h : ∀ e ∈ es, e.IsPrintable) (r : Registry) :
    ∀ e ∈ clean es r, e.IsPrintable :=
  fun e he => h e (List.mem_of_mem_filter he)

/-- Cleaning loses nothing of what it keeps: its text holds the objects of the valid entries, in
their order and as they were, save that a `key` or `when` that is null is left out. -/
theorem read_cleanDocument {t : Text} {es : List Entry} {v : Json.Value} (r : Registry)
    (h : Document.parse t = .ok es) (hread : Json.read t = .ok v) (hexact : v.isExact) :
    ∃ vs o, v = .array vs ∧ List.Forall₂ Json.Value.IsEntry vs es ∧
      cleanDocument t r = .ok o ∧
      Json.read o.text =
        .ok (.array (((vs.zip es).filter (·.2.isValid r)).map (Entry.written ·.1))) := by
  have hprintable := Document.isPrintable_of_parse h hread hexact
  obtain ⟨vs, rfl, hentries⟩ := Document.exists_objects h hread
  have hfits := Json.Value.Fits.items (n := Json.maxDepth - 1) (Json.fits_of_read hread)
  refine ⟨vs, _, rfl, hentries, cleanDocument_eq r h, ?_⟩
  rw [Document.read_render (isPrintable_clean hprintable r),
    map_clean (n := Json.maxDepth - 2) r hentries hfits]

/-- A valid entry with a null and with nested arguments, and an entry that is not valid. -/
def nestedText : Text :=
  ("[\x7b\"when\": null, \"command\": \"a\", \"args\": \x7b\"n\": [1, null]\x7d\x7d, " ++
    "\x7b\"key\": \"b\"\x7d]").toList

def nestedArguments : Json.Value :=
  .object [("n", .array [.number (.int 1), .null])]

def nestedEntries : List Entry :=
  [⟨none, some "a", none, [("args", nestedArguments)]⟩, ⟨some "b", none, none, []⟩]

def nestedObjects : List Json.Value :=
  [.object [("args", nestedArguments), ("command", .string "a"), ("when", .null)],
    .object [("key", .string "b")]]

theorem parse_nestedText : Document.parse nestedText = .ok nestedEntries := rfl

theorem read_nestedText : Json.read nestedText = .ok (.array nestedObjects) := rfl

theorem read_cleanDocument_nested : ∃ o, cleanDocument nestedText ⟨["a"], true⟩ = .ok o ∧
    Json.read o.text =
      .ok (.array [.object [("args", nestedArguments), ("command", .string "a")]]) := by
  obtain ⟨vs, o, hvs, -, ho, hread⟩ :=
    read_cleanDocument ⟨["a"], true⟩ parse_nestedText read_nestedText rfl
  cases hvs
  exact ⟨o, ho, hread⟩

/-! ### Cleaning again -/

theorem Entry.isValid_mono {e : Entry} {r r' : Registry} (hids : ∀ id ∈ r.ids, id ∈ r'.ids)
    (h : e.isValid r) : e.isValid r' := by
  rw [isValid] at h ⊢
  cases href : e.commandRef? with
  | none =>
      rw [href] at h
      cases h
  | some ref =>
      rw [href] at h
      exact List.contains_iff_mem.mpr (hids _ (List.contains_iff_mem.mp h))

/-- Cleaning for a registry that has further commands first makes no difference. -/
theorem clean_clean_of_subset {r r' : Registry} (hids : ∀ id ∈ r.ids, id ∈ r'.ids)
    (es : List Entry) : clean (clean es r') r = clean es r := by
  rw [clean, clean, List.filter_filter]
  refine List.filter_congr fun e _ => ?_
  cases hvalid : e.isValid r with
  | false => rfl
  | true => rw [Entry.isValid_mono hids hvalid, Bool.and_self]

theorem clean_clean (es : List Entry) (r : Registry) : clean (clean es r) r = clean es r :=
  clean_clean_of_subset (fun _ h => h) es

/-- A document that was cleaned is left as it is when it is cleaned again, and has no diagnostics,
also for a registry that has further commands. -/
theorem cleanDocument_cleaned {t : Text} {es : List Entry} {v : Json.Value} (r : Registry)
    (h : Document.parse t = .ok es) (hread : Json.read t = .ok v) (hexact : v.isExact) :
    ∃ o, cleanDocument t r = .ok o ∧ cleanDocument o.text r = .ok ⟨o.text, o.kept, 0⟩ ∧
      ∀ (label : String) (r' : Registry), (∀ id ∈ r.ids, id ∈ r'.ids) →
        Validation.document label o.text r' = [] := by
  have hprintable := Document.isPrintable_of_parse h hread hexact
  have hparse : Document.parse (Document.render (clean es r)) = .ok (clean es r) :=
    Document.parse_render (isPrintable_clean hprintable r)
  refine ⟨⟨Document.render (clean es r), (clean es r).length, es.length - (clean es r).length⟩,
    ?_, ?_, fun label r' hids => ?_⟩
  · rw [cleanDocument, h]
    rfl
  · rw [cleanDocument, hparse]
    show Except.ok _ = _
    rw [clean_clean, Nat.sub_self]
  · rw [Validation.document_eq_flags label r' hparse]
    refine Validation.flags_of_valid label (fun e he => ?_) _
    exact Entry.isValid_mono hids (List.mem_filter.mp he).2

theorem cleanDocument_cleaned_nested : ∃ o, cleanDocument nestedText ⟨["a"], true⟩ = .ok o ∧
    cleanDocument o.text ⟨["a"], true⟩ = .ok ⟨o.text, o.kept, 0⟩ ∧
      Validation.document defaultLabel o.text ⟨["a", "b"], false⟩ = [] := by
  obtain ⟨o, ho, hagain, hdocument⟩ :=
    cleanDocument_cleaned ⟨["a"], true⟩ parse_nestedText read_nestedText rfl
  exact ⟨o, ho, hagain, hdocument defaultLabel ⟨["a", "b"], false⟩ (by simp)⟩

end Keybindings
