import Keybindings.Proofs.Aggregation
import Keybindings.Proofs.Cleaning

/-!
Knowing more commands.

If more can be read of a source, its registry holds more ids (`Source.IsWithin.exists_registry`).  An
entry that was valid stays so, hence a larger registry reports less and keeps more.  What depends on
no registry is reported all the same (`Validation.filter_flags`), so that a listing that fails can
only add reports of unknown commands (`verdicts_mono`).
-/

namespace Keybindings

/-! ### Sources -/

namespace Source

variable {s s' : Source} {r : Registry} {id : String}

/-- Every listing that can be read of the one source can be read of the other one, with at least the
same ids. -/
structure IsWithin (s s' : Source) : Prop where
  active : ∀ ids, s.active = .ok ids → ∃ ids', s'.active = .ok ids' ∧ ids ⊆ ids'
  all : ∀ ids, s.all = .ok ids → ∃ ids', s'.all = .ok ids' ∧ ids ⊆ ids'
  manifests : ∀ ms, s.manifests = .ok ms → ∃ ms', s'.manifests = .ok ms' ∧
    ∀ m, .ok m ∈ ms → ∀ id ∈ m.commandIds, ∃ m', .ok m' ∈ ms' ∧ id ∈ m'.commandIds

theorem IsWithin.isReadable (h : s.IsWithin s') (hs : s.IsReadable) : s'.IsReadable := by
  rcases hs with ⟨ids, hids⟩ | ⟨ids, hids⟩ | ⟨ms, hms⟩
  · obtain ⟨ids', hids', -⟩ := h.active ids hids
    exact .inl ⟨ids', hids'⟩
  · obtain ⟨ids', hids', -⟩ := h.all ids hids
    exact .inr (.inl ⟨ids', hids'⟩)
  · obtain ⟨ms', hms', -⟩ := h.manifests ms hms
    exact .inr (.inr ⟨ms', hms'⟩)

theorem IsWithin.lists (h : s.IsWithin s') (hs : s.Lists id) : s'.Lists id := by
  rcases hs with ⟨ids, hids, hid⟩ | ⟨ids, hids, hid⟩ | ⟨ms, m, hms, hm, hid⟩
  · obtain ⟨ids', hids', hsubset⟩ := h.active ids hids
    exact .inl ⟨ids', hids', hsubset hid⟩
  · obtain ⟨ids', hids', hsubset⟩ := h.all ids hids
    exact .inr (.inl ⟨ids', hids', hsubset hid⟩)
  · obtain ⟨ms', hms', hmanifests⟩ := h.manifests ms hms
    obtain ⟨m', hm', hid'⟩ := hmanifests m hm id hid
    exact .inr (.inr ⟨ms', m', hms', hm', hid'⟩)

theorem IsWithin.exists_registry (h : s.IsWithin s') (hr : s.registry = .ok r) :
    ∃ r', s'.registry = .ok r' ∧ ∀ id ∈ r.ids, id ∈ r'.ids := by
  obtain ⟨r', hr'⟩ := isReadable_iff.mp (h.isReadable (isReadable_iff.mpr ⟨r, hr⟩))
  refine ⟨r', hr', fun id hid => ?_⟩
  obtain ⟨hne, hlists⟩ := (mem_ids_registry hr).mp hid
  exact (mem_ids_registry hr').mpr ⟨hne, h.lists hlists⟩

end Source

/-! ### Verdicts -/

namespace Validation

variable {r r' : Registry}

theorem flags_sublist (hids : ∀ id ∈ r.ids, id ∈ r'.ids) (label : String)
    (found : List (Entry × Span)) : (flags label r' found).Sublist (flags label r found) := by
  refine List.Sublist.map _ (List.monotone_filter_right found fun p hp => ?_)
  rw [Bool.not_eq_true'] at hp ⊢
  exact Bool.eq_false_iff.mpr fun h => Bool.eq_false_iff.mp hp (Entry.isValid_mono hids h)

theorem kind_flag (label : String) (e : Entry) (s : Span) : (flag label e s).kind =
    if e.commandRef? = none then .missingCommand else .unknownCommand := by
  rw [flag]
  cases e.commandRef? <;> rfl

/-- An entry without a command is reported for any registry. -/
theorem filter_flags (label : String) (r : Registry) (found : List (Entry × Span)) :
    (flags label r found).filter (·.kind ≠ .unknownCommand) =
      (found.filter fun p => p.1.commandRef? = none).map fun p => flag label p.1 p.2 := by
  rw [flags, List.filter_map, List.filter_filter]
  refine congrArg _ (List.filter_congr fun p _ => ?_)
  rw [Function.comp_apply, kind_flag, Entry.isValid]
  cases p.1.commandRef? <;> rfl

theorem document_sublist (hids : ∀ id ∈ r.ids, id ∈ r'.ids) (label : String) (t : Text) :
    (document label t r').Sublist (document label t r) := by
  cases hparse : Document.parse t with
  | error err => simp only [document, hparse, List.Sublist.refl]
  | ok es =>
      rw [document_eq_flags label r hparse, document_eq_flags label r' hparse]
      exact flags_sublist hids label _

theorem filter_document (label : String) (t : Text) (r r' : Registry) :
    (document label t r').filter (·.kind ≠ .unknownCommand) =
      (document label t r).filter (·.kind ≠ .unknownCommand) := by
  cases hparse : Document.parse t with
  | error err => simp only [document, hparse]
  | ok es =>
      rw [document_eq_flags label r hparse, document_eq_flags label r' hparse, filter_flags,
        filter_flags]

end Validation

theorem clean_sublist {r r' : Registry} (hids : ∀ id ∈ r.ids, id ∈ r'.ids) (es : List Entry) :
    (clean es r).Sublist (clean es r') :=
  List.monotone_filter_right es fun _ h => Entry.isValid_mono hids h

/-- If more can be read of a source, the registry holds more, of the diagnostics only some of those
that report an unknown command go, and cleaning keeps more. -/
theorem verdicts_mono {s s' : Source} {r : Registry} (hs : s.IsWithin s')
    (hr : s.registry = .ok r) (label : String) (t : Text) :
    ∃ r', s'.registry = .ok r' ∧ (∀ id, r.contains id → r'.contains id) ∧
      (Validation.document label t r').Sublist (Validation.document label t r) ∧
      (Validation.document label t r').filter (·.kind ≠ .unknownCommand) =
        (Validation.document label t r).filter (·.kind ≠ .unknownCommand) ∧
      ∀ es, (clean es r).Sublist (clean es r') ∧ clean (clean es r') r = clean es r := by
  obtain ⟨r', hr', hids⟩ := hs.exists_registry hr
  refine ⟨r', hr', fun id hid => ?_, Validation.document_sublist hids label t,
    Validation.filter_document label t r r',
    fun es => ⟨clean_sublist hids es, clean_clean_of_subset hids es⟩⟩
  exact Registry.contains_iff.mpr (hids id (Registry.contains_iff.mp hid))

/-- Without the list of all commands a keybinding looks unknown that is not. -/
theorem verdicts_mono_failing :
    let t := ("[\x7b\"command\": \"a\"\x7d, \x7b\"command\": \"-b\"\x7d, \x7b\x7d]").toList
    let failing : Source := ⟨.ok ["a"], .error .noSources, .error .noSources⟩
    let whole : Source := ⟨.ok ["a"], .ok ["b", "a"], .ok []⟩
    failing.IsWithin whole ∧ failing.registry = .ok ⟨["a"], true⟩ ∧
      whole.registry = .ok ⟨["a", "b"], true⟩ ∧
      (Validation.document defaultLabel t ⟨["a"], true⟩).map Diagnostic.kind =
        [.unknownCommand, .missingCommand] ∧
      (Validation.document defaultLabel t ⟨["a", "b"], true⟩).Sublist
        (Validation.document defaultLabel t ⟨["a"], true⟩) := by
  intro t failing whole
  have hwithin : failing.IsWithin whole :=
    ⟨fun ids hids => ⟨ids, hids, List.Subset.refl ids⟩, nofun, nofun⟩
  obtain ⟨r', hr', -, hsublist, -⟩ := verdicts_mono hwithin rfl defaultLabel t
  cases hr'
  exact ⟨hwithin, rfl, rfl, rfl, hsublist⟩

end Keybindings
