import Keybindings.Cleaning
import Keybindings.Proofs.Location
import Keybindings.Validation

/-!
Checking and cleaning agree on what is wrong with a document.

Both look at the entries one by one, and `Validation.problem?_eq` says that they come to the same
verdict on each.  The diagnostics of a document are therefore one for each entry that cleaning
drops, at that entry's object (`diagnostics_cleaning_agree`).
-/

namespace Keybindings

namespace Validation

/-- The diagnostic of an entry that is not valid. -/
def flag (label : String) (e : Entry) (s : Span) : Diagnostic :=
  match e.commandRef? with
  | none => missingCommand label s
  | some ref => unknownCommand label s ref

theorem span_flag (label : String) (e : Entry) (s : Span) : (flag label e s).span = s := by
  rw [flag]
  cases e.commandRef? <;> rfl

theorem isFixable_flag (label : String) (e : Entry) (s : Span) :
    (flag label e s).kind.isFixable = true := by
  rw [flag]
  cases e.commandRef? <;> rfl

theorem problem?_eq (label : String) (r : Registry) (e : Entry) (s : Span) :
    problem? label r e s = if e.isValid r then none else some (flag label e s) := by
  rw [problem?, Entry.isValid, flag]
  cases e.commandRef? with
  | none => rfl
  | some ref => rfl

/-- The diagnostics of entries with the spans where they stand. -/
def flags (label : String) (r : Registry) (found : List (Entry × Span)) : List Diagnostic :=
  (found.filter fun p => !p.1.isValid r).map fun p => flag label p.1 p.2

theorem flags_append (label : String) (r : Registry) (found found' : List (Entry × Span)) :
    flags label r (found ++ found') = flags label r found ++ flags label r found' := by
  rw [flags, List.filter_append, List.map_append, flags, flags]

theorem flags_of_valid (label : String) {r : Registry} {es : List Entry}
    (h : ∀ e ∈ es, e.isValid r = true) (spans : List Span) : flags label r (es.zip spans) = [] := by
  rw [flags, List.map_eq_nil_iff, List.filter_eq_nil_iff]
  rintro ⟨e, s⟩ hmem
  simp [h e (List.of_mem_zip hmem).1]

theorem document_eq_flags {t : Text} {es : List Entry} (label : String) (r : Registry)
    (h : Document.parse t = .ok es) :
    document label t r = flags label r (es.zip (elementSpans t)) := by
  simp only [document, h]
  rw [entries, locateEntries_eq h, List.zip_map_right, List.filterMap_map]
  induction es.zip (elementSpans t) with
  | nil => rfl
  | cons p found ih =>
      obtain ⟨e, s⟩ := p
      have hproblem : ((fun (p : Entry × Option Span) => p.2.bind (problem? label r p.1)) ∘
          Prod.map id some) (e, s) = if e.isValid r then none else some (flag label e s) :=
        problem?_eq label r e s
      rw [List.filterMap_cons, hproblem]
      cases hvalid : e.isValid r with
      | true => simpa [flags, hvalid] using ih
      | false => simpa [flags, hvalid] using ih

end Validation

/-- The indices of the entries that cleaning drops, in ascending order. -/
def droppedIndices (es : List Entry) (r : Registry) : List Nat :=
  (es.zipIdx.filter fun p => !p.1.isValid r).map Prod.snd

theorem mem_droppedIndices {es : List Entry} {r : Registry} {i : Nat} :
    i ∈ droppedIndices es r ↔ ∃ e, es[i]? = some e ∧ e.isValid r = false := by
  simp [droppedIndices, List.mem_zipIdx_iff_getElem?]

theorem pairwise_droppedIndices (es : List Entry) (r : Registry) :
    (droppedIndices es r).Pairwise (· < ·) := by
  have hsublist : (droppedIndices es r).Sublist (es.zipIdx.map Prod.snd) :=
    List.filter_sublist.map Prod.snd
  refine List.Pairwise.sublist hsublist ?_
  rw [List.zipIdx_map_snd]
  exact List.pairwise_lt_range'

theorem clean_cons_valid {e : Entry} {r : Registry} (he : e.isValid r = true) (es : List Entry) :
    clean (e :: es) r = e :: clean es r := by
  rw [clean, List.filter_cons_of_pos (p := (Entry.isValid · r)) he, clean]

theorem clean_cons_invalid {e : Entry} {r : Registry} (he : e.isValid r = false)
    (es : List Entry) : clean (e :: es) r = clean es r := by
  rw [clean, List.filter_cons_of_neg (by simp [he]), clean]

/-- Cleaning keeps the entries at all other indices. -/
theorem clean_eq_filter_zipIdx (es : List Entry) (r : Registry) :
    clean es r = (es.zipIdx.filter fun p => p.2 ∉ droppedIndices es r).map Prod.fst := by
  have hfilter : (es.zipIdx.filter fun p => p.2 ∉ droppedIndices es r) =
      es.zipIdx.filter ((Entry.isValid · r) ∘ Prod.fst) := by
    refine List.filter_congr fun p hp => ?_
    have he : es[p.2]? = some p.1 := List.mem_zipIdx_iff_getElem?.mp hp
    simp [mem_droppedIndices, he]
  rw [hfilter, ← List.filter_map, List.zipIdx_map_fst, clean]

theorem length_clean_add (es : List Entry) (r : Registry) :
    (clean es r).length + (droppedIndices es r).length = es.length := by
  have hkept : (clean es r).length = (es.zipIdx.filter fun p => p.1.isValid r).length := by
    have hmap : clean es r = (es.zipIdx.filter ((Entry.isValid · r) ∘ Prod.fst)).map Prod.fst := by
      rw [← List.filter_map, List.zipIdx_map_fst, clean]
    rw [hmap, List.length_map]
    rfl
  have hsplit := List.length_eq_length_filter_add (l := es.zipIdx) fun p => p.1.isValid r
  rw [List.length_zipIdx] at hsplit
  rw [hkept, droppedIndices, List.length_map]
  exact hsplit.symm

theorem cleanDocument_eq {t : Text} {es : List Entry} (r : Registry)
    (h : Document.parse t = .ok es) : cleanDocument t r =
      .ok ⟨Document.render (clean es r), es.length - (droppedIndices es r).length,
        (droppedIndices es r).length⟩ := by
  have hlength := length_clean_add es r
  have hkept : (clean es r).length = es.length - (droppedIndices es r).length := by omega
  have hremoved : es.length - (clean es r).length = (droppedIndices es r).length := by omega
  rw [cleanDocument, h]
  show Except.ok _ = _
  rw [hremoved, hkept]

theorem zip_eq_zipIdx_map {es : List Entry} {spans : List Span} (h : es.length = spans.length) :
    es.zip spans = es.zipIdx.map fun p => (p.1, spans.getD p.2 default) := by
  refine List.ext_getElem (by simp [h]) fun i hi _ => ?_
  rw [List.length_zip] at hi
  have hi' : i < spans.length := by omega
  simp [hi']

/-- The diagnostics come in the order of the dropped indices. -/
theorem getElem?_document {t : Text} {es : List Entry} (label : String) (r : Registry)
    (h : Document.parse t = .ok es) {k i : Nat} (hk : (droppedIndices es r)[k]? = some i) :
    ∃ e s, es[i]? = some e ∧ (elementSpans t)[i]? = some s ∧ IsEntryAt t s e ∧
      (Validation.document label t r)[k]? = some (Validation.flag label e s) := by
  rw [droppedIndices, List.getElem?_map, Option.map_eq_some_iff] at hk
  obtain ⟨⟨e, i⟩, hk, rfl⟩ := hk
  have he : es[i]? = some e :=
    List.mem_zipIdx_iff_getElem?.mp (List.mem_of_mem_filter (List.mem_of_getElem? hk))
  obtain ⟨s, hs, hat⟩ := exists_span_of_entry h he
  refine ⟨e, s, he, hs, hat, ?_⟩
  -- with the spans looked up by index, both lists come from the same filtered one
  rw [Validation.document_eq_flags label r h, Validation.flags,
    zip_eq_zipIdx_map (length_elementSpans h).symm, List.filter_map, List.map_map,
    List.getElem?_map]
  show Option.map _ (es.zipIdx.filter fun p => !p.1.isValid r)[k]? = _
  rw [hk, Option.map_some, Function.comp_apply, List.getD_eq_getElem?_getD, hs, Option.getD_some]

theorem length_document {t : Text} {es : List Entry} (label : String) (r : Registry)
    (h : Document.parse t = .ok es) :
    (Validation.document label t r).length = (droppedIndices es r).length := by
  rw [Validation.document_eq_flags label r h, Validation.flags, droppedIndices,
    zip_eq_zipIdx_map (length_elementSpans h).symm, List.filter_map, List.length_map,
    List.length_map, List.length_map]
  rfl

/-- Checking a document finds what cleaning it takes away. -/
theorem diagnostics_cleaning_agree (label : String) (t : Text) (r : Registry) :
    match Document.parse t with
    | .error err =>
      (∃ d, Validation.document label t r = [d] ∧ d.kind = .invalidJson ∧ d.span = .whole t) ∧
        cleanDocument t r = .error err
    | .ok es =>
      (droppedIndices es r).Pairwise (· < ·) ∧
      clean es r = (es.zipIdx.filter fun p => p.2 ∉ droppedIndices es r).map Prod.fst ∧
      (Validation.document label t r).length = (droppedIndices es r).length ∧
      (∀ k i : Nat, (droppedIndices es r)[k]? = some i →
        ∃ e s d, es[i]? = some e ∧ (elementSpans t)[i]? = some s ∧ IsEntryAt t s e ∧
          (Validation.document label t r)[k]? = some d ∧ d.span = s ∧
          (e.commandRef? = none → d.kind = .missingCommand) ∧
          (e.commandRef? ≠ none →
            d.kind = .unknownCommand ∧ d.related.map Related.span = [s])) ∧
      ∃ o, cleanDocument t r = .ok o ∧ o.removed = (droppedIndices es r).length ∧
        o.kept = es.length - (droppedIndices es r).length := by
  cases hparse : Document.parse t with
  | error err =>
      have hdocument : Validation.document label t r = [Validation.invalidJson label t err] := by
        rw [Validation.document, hparse]
      refine ⟨⟨_, hdocument, rfl, rfl⟩, ?_⟩
      rw [cleanDocument, hparse]
      rfl
  | ok es =>
      refine ⟨pairwise_droppedIndices es r, clean_eq_filter_zipIdx es r,
        length_document label r hparse, fun k i hk => ?_, _, cleanDocument_eq r hparse, rfl, rfl⟩
      obtain ⟨e, s, he, hs, hat, hd⟩ := getElem?_document label r hparse hk
      refine ⟨e, s, _, he, hs, hat, hd, Validation.span_flag label e s, fun hnone => ?_,
        fun hsome => ?_⟩
      · rw [Validation.flag, hnone]
        rfl
      · obtain ⟨ref, href⟩ := Option.ne_none_iff_exists'.mp hsome
        rw [Validation.flag, href]
        exact ⟨rfl, rfl⟩

end Keybindings
