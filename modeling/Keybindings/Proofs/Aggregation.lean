import Keybindings.Proofs.Entry
import Keybindings.Source
import Mathlib.Data.List.Sort
import Mathlib.Data.String.Basic

/-!
Which commands a registry holds.

Insertions keep the ids of a registry in order, so that a registry is determined by the ids that it
holds and by where they come from (`Registry.ext_of_isSorted`).  Every listing that can be read adds
its ids, and every manifest on its own (`Source.mem_ids_registry`).  A registry is therefore the
union of what can be read, in whatever order and however often it is listed
(`Source.registry_isUnion`).
-/

namespace Keybindings

/-! ### Insertions -/

theorem pairwise_insertSorted {xs : List String} (h : xs.Pairwise (· < ·)) (s : String) :
    (insertSorted s xs).Pairwise (· < ·) := by
  induction xs with
  | nil => exact List.pairwise_singleton _ _
  | cons x xs ih =>
      obtain ⟨hx, hxs⟩ := List.pairwise_cons.mp h
      simp only [insertSorted]
      split
      · exact h
      · next hne =>
        split
        · next hlt =>
          refine List.pairwise_cons.mpr ⟨fun y hy => ?_, h⟩
          rcases List.mem_cons.mp hy with rfl | hy
          · exact hlt
          · exact hlt.trans (hx y hy)
        · next hnlt =>
          refine List.pairwise_cons.mpr ⟨fun y hy => ?_, ih hxs⟩
          rcases mem_insertSorted.mp hy with rfl | hy
          · exact lt_of_le_of_ne (not_lt.mp hnlt) (Ne.symm hne)
          · exact hx y hy

namespace Registry

variable {r r' : Registry} {id : String} {ids : List String}

theorem contains_iff : r.contains id ↔ id ∈ r.ids :=
  List.contains_iff_mem

theorem mem_ids_insert {added : String} :
    id ∈ (r.insert added).ids ↔ id ≠ "" ∧ id = added ∨ id ∈ r.ids := by
  rw [insert]
  split
  · next hempty => exact ⟨.inr, fun h => h.resolve_left fun h => h.1 (h.2.trans hempty)⟩
  · next hne =>
    rw [mem_insertSorted]
    exact or_congr_left ⟨fun h => ⟨h ▸ hne, h⟩, fun h => h.2⟩

theorem mem_ids_extend : id ∈ (r.extend ids).ids ↔ id ≠ "" ∧ id ∈ ids ∨ id ∈ r.ids := by
  induction ids generalizing r with
  | nil => simp [extend]
  | cons added ids ih =>
      have hextend : r.extend (added :: ids) = (r.insert added).extend ids := rfl
      rw [hextend, ih, mem_ids_insert, List.mem_cons, and_or_left, ← or_assoc]
      exact or_congr_left or_comm

@[simp] theorem hostListed_insert (r : Registry) (id : String) :
    (r.insert id).hostListed = r.hostListed := by
  rw [insert]
  split <;> rfl

@[simp] theorem hostListed_extend (r : Registry) (ids : List String) :
    (r.extend ids).hostListed = r.hostListed := by
  induction ids generalizing r with
  | nil => rfl
  | cons id ids ih => exact (ih (r.insert id)).trans (r.hostListed_insert id)

/-- The ids are in ascending order, and each occurs once. -/
def IsSorted (r : Registry) : Prop :=
  r.ids.Pairwise (· < ·)

theorem IsSorted.insert (h : r.IsSorted) (id : String) : (r.insert id).IsSorted := by
  rw [Registry.insert]
  split
  · exact h
  · exact pairwise_insertSorted h id

theorem IsSorted.extend (h : r.IsSorted) (ids : List String) : (r.extend ids).IsSorted := by
  induction ids generalizing r with
  | nil => exact h
  | cons id ids ih => exact ih (h.insert id)

theorem isSorted_empty : IsSorted {} := .nil

theorem ext_of_isSorted (hr : r.IsSorted) (hr' : r'.IsSorted)
    (hids : ∀ id, id ∈ r.ids ↔ id ∈ r'.ids) (hhost : r.hostListed = r'.hostListed) : r = r' := by
  obtain ⟨ids, hostListed⟩ := r
  obtain ⟨ids', hostListed'⟩ := r'
  obtain rfl : ids = ids' := hr.eq_of_mem_iff hr' hids
  exact congrArg (mk ids) hhost

end Registry

/-! ### Listings -/

namespace Source

variable {s s' : Source} {r r' : Registry} {id : String}

/-- At least one of the three listings can be read. -/
def IsReadable (s : Source) : Prop :=
  (∃ ids, s.active = .ok ids) ∨ (∃ ids, s.all = .ok ids) ∨ ∃ ms, s.manifests = .ok ms

/-- An editor's list has the id, or a well-formed manifest mentions it. -/
def Lists (s : Source) (id : String) : Prop :=
  (∃ ids, s.active = .ok ids ∧ id ∈ ids) ∨ (∃ ids, s.all = .ok ids ∧ id ∈ ids) ∨
    ∃ ms m, s.manifests = .ok ms ∧ .ok m ∈ ms ∧ id ∈ m.commandIds

theorem mem_ids_addHostList {l : Except SourceError (List String)} :
    id ∈ (addHostList r l).ids ↔ id ≠ "" ∧ (∃ ids, l = .ok ids ∧ id ∈ ids) ∨ id ∈ r.ids := by
  cases l with
  | error e => simp [addHostList]
  | ok ids => simpa [addHostList, Registry.withHostCommands] using Registry.mem_ids_extend

theorem hostListed_addHostList {l : Except SourceError (List String)} :
    (addHostList r l).hostListed ↔ (∃ ids, l = .ok ids) ∨ r.hostListed := by
  cases l with
  | error e => simp [addHostList]
  | ok ids => simp [addHostList, Registry.withHostCommands]

theorem isSorted_addHostList (h : r.IsSorted) (l : Except SourceError (List String)) :
    (addHostList r l).IsSorted := by
  cases l with
  | error e => exact h
  | ok ids => exact h.extend ids

theorem mem_ids_addManifest {m : Except SourceError Manifest} :
    id ∈ (addManifest r m).ids ↔ id ≠ "" ∧ (∃ m', m = .ok m' ∧ id ∈ m'.commandIds) ∨ id ∈ r.ids := by
  cases m with
  | error e => simp [addManifest]
  | ok m => simpa [addManifest] using Registry.mem_ids_extend

/-- A malformed manifest does not keep the others from being read. -/
theorem mem_ids_foldl_addManifest {ms : List (Except SourceError Manifest)} :
    id ∈ (ms.foldl addManifest r).ids ↔
      id ≠ "" ∧ (∃ m, .ok m ∈ ms ∧ id ∈ m.commandIds) ∨ id ∈ r.ids := by
  induction ms generalizing r with
  | nil => simp
  | cons m ms ih =>
      rw [List.foldl_cons, ih, mem_ids_addManifest, ← or_assoc, ← and_or_left]
      refine or_congr_left (and_congr_right fun _ => ?_)
      simp only [List.mem_cons, or_and_right, exists_or, eq_comm (b := m)]
      exact or_comm

theorem mem_ids_addManifests {l : Except SourceError (List (Except SourceError Manifest))} :
    id ∈ (addManifests r l).ids ↔
      id ≠ "" ∧ (∃ ms m, l = .ok ms ∧ .ok m ∈ ms ∧ id ∈ m.commandIds) ∨ id ∈ r.ids := by
  cases l with
  | error e => simp [addManifests]
  | ok ms => simpa [addManifests] using mem_ids_foldl_addManifest

theorem hostListed_addManifests (r : Registry)
    (l : Except SourceError (List (Except SourceError Manifest))) :
    (addManifests r l).hostListed = r.hostListed := by
  cases l with
  | error e => rfl
  | ok ms =>
      rw [addManifests]
      induction ms generalizing r with
      | nil => rfl
      | cons m ms ih =>
          rw [List.foldl_cons, ih]
          cases m with
          | error e => rfl
          | ok m => exact r.hostListed_extend m.commandIds

theorem isSorted_addManifests (h : r.IsSorted)
    (l : Except SourceError (List (Except SourceError Manifest))) :
    (addManifests r l).IsSorted := by
  cases l with
  | error e => exact h
  | ok ms =>
      rw [addManifests]
      induction ms generalizing r with
      | nil => exact h
      | cons m ms ih =>
          refine ih ?_
          cases m with
          | error e => exact h
          | ok m => exact h.extend m.commandIds

/-! ### The union -/

/-- Everything that can be read. -/
def union (s : Source) : Registry :=
  addManifests (addHostList (addHostList {} s.active) s.all) s.manifests

theorem registry_eq_ok_iff : s.registry = .ok r ↔ s.IsReadable ∧ r = s.union := by
  obtain ⟨active, all, manifests⟩ := s
  cases active <;> cases all <;> cases manifests <;>
    simp [registry, IsReadable, union, eq_comm (a := r)]

theorem registry_eq_error_iff {e : SourceError} :
    s.registry = .error e ↔ ¬ s.IsReadable ∧ e = .noSources := by
  obtain ⟨active, all, manifests⟩ := s
  cases active <;> cases all <;> cases manifests <;>
    simp [registry, IsReadable, eq_comm (a := e)]

theorem isReadable_iff : s.IsReadable ↔ ∃ r, s.registry = .ok r := by
  simp only [registry_eq_ok_iff, exists_and_left, exists_eq, and_true]

theorem mem_ids_registry (h : s.registry = .ok r) : id ∈ r.ids ↔ id ≠ "" ∧ s.Lists id := by
  obtain ⟨-, rfl⟩ := registry_eq_ok_iff.mp h
  rw [union, mem_ids_addManifests, mem_ids_addHostList, mem_ids_addHostList, Lists]
  simp only [List.not_mem_nil, or_false, ← and_or_left]
  exact and_congr_right fun _ => or_comm.trans ((or_congr_left or_comm).trans or_assoc)

theorem hostListed_registry (h : s.registry = .ok r) :
    r.hostListed ↔ (∃ ids, s.active = .ok ids) ∨ ∃ ids, s.all = .ok ids := by
  obtain ⟨-, rfl⟩ := registry_eq_ok_iff.mp h
  rw [union, hostListed_addManifests, hostListed_addHostList, hostListed_addHostList]
  simp only [Bool.false_eq_true, or_false]
  exact or_comm

theorem isSorted_union (s : Source) : s.union.IsSorted :=
  isSorted_addManifests
    (isSorted_addHostList (isSorted_addHostList Registry.isSorted_empty s.active) s.all) s.manifests

/-- Sources of which the same listings can be read, with the same ids in them. -/
structure SameIds (s s' : Source) : Prop where
  active : (∃ ids, s.active = .ok ids) ↔ ∃ ids, s'.active = .ok ids
  all : (∃ ids, s.all = .ok ids) ↔ ∃ ids, s'.all = .ok ids
  manifests : (∃ ms, s.manifests = .ok ms) ↔ ∃ ms, s'.manifests = .ok ms
  lists : ∀ id, id ≠ "" → (s.Lists id ↔ s'.Lists id)

theorem SameIds.registry_eq (h : SameIds s s') : s.registry = s'.registry := by
  have hreadable : s.IsReadable ↔ s'.IsReadable := or_congr h.active (or_congr h.all h.manifests)
  cases hr : s.registry with
  | error e =>
      obtain ⟨hunreadable, rfl⟩ := registry_eq_error_iff.mp hr
      exact (registry_eq_error_iff.mpr ⟨hreadable.not.mp hunreadable, rfl⟩).symm
  | ok r =>
      obtain ⟨r', hr'⟩ := isReadable_iff.mp (hreadable.mp (isReadable_iff.mpr ⟨r, hr⟩))
      obtain ⟨-, hunion⟩ := registry_eq_ok_iff.mp hr
      obtain ⟨-, hunion'⟩ := registry_eq_ok_iff.mp hr'
      have hhost : r.hostListed ↔ r'.hostListed := by
        rw [hostListed_registry hr, hostListed_registry hr', h.active, h.all]
      have heq : r = r' := by
        refine Registry.ext_of_isSorted (hunion ▸ isSorted_union s) (hunion' ▸ isSorted_union s')
          (fun id => ?_) (Bool.eq_iff_iff.mpr hhost)
        rw [mem_ids_registry hr, mem_ids_registry hr']
        exact and_congr_right fun hid => h.lists id hid
      rw [heq, hr']

end Source

/-! ### Packages -/

/-- A section of a package is a list of items or a single one, or is left out. -/
inductive IsSection : Option Json.Value → List Json.Value → Prop
  | absent : IsSection none []
  | null : IsSection (some .null) []
  | list (items : List Json.Value) : IsSection (some (.array items)) items
  | single (members : Json.Members) : IsSection (some (.object members)) [.object members]

namespace Manifest

variable {id name c : String} {section? : Option Json.Value} {ids : List String}

theorem sectionIds_eq_ok_iff : sectionIds id name section? = .ok ids ↔
    ∃ items, IsSection section? items ∧ ids = items.filterMap itemCommand? := by
  constructor
  · intro h
    match section? with
    | none =>
        cases h
        exact ⟨_, .absent, rfl⟩
    | some .null =>
        cases h
        exact ⟨_, .null, rfl⟩
    | some (.array items) =>
        cases h
        exact ⟨_, .list items, rfl⟩
    | some (.object members) =>
        cases h
        refine ⟨_, .single members, ?_⟩
        rw [List.filterMap_cons]
        cases itemCommand? (.object members) <;> rfl
    | some (.bool _) | some (.number _) | some (.string _) => cases h
  · rintro ⟨items, hsection, rfl⟩
    cases hsection with
    | absent => rfl
    | null => rfl
    | list items => rfl
    | single members =>
        rw [List.filterMap_cons, sectionIds]
        cases itemCommand? (.object members) <;> rfl

theorem itemCommand?_eq_some_iff {item : Json.Value} :
    itemCommand? item = some c ↔ c ≠ "" ∧ item.member? "command" = some (.string c) := by
  rw [itemCommand?, Option.filter_eq_some_iff, Option.bind_eq_some_iff, and_comm]
  simp only [decide_eq_true_eq]
  refine and_congr_right fun _ => ⟨?_, fun h => ⟨_, h, rfl⟩⟩
  rintro ⟨v, hv, hstring⟩
  cases v with
  | string s =>
      cases hstring
      exact hv
  | _ => cases hstring

end Manifest

/-- An installed extension. -/
structure Package where
  id : String
  content : Json.Value

namespace Package

variable {p : Package} {m : Manifest} {c : String}

def manifest (p : Package) : Except SourceError Manifest :=
  Manifest.ofPackage p.id p.content

/-- A well-formed package has these items in its two sections. -/
inductive Sections (p : Package) : List Json.Value → List Json.Value → Prop
  | absent (h : p.content.member? "contributes" = none) : Sections p [] []
  | null (h : p.content.member? "contributes" = some .null) : Sections p [] []
  | object {contributes : Json.Members} {commands keybindings : List Json.Value}
      (h : p.content.member? "contributes" = some (.object contributes))
      (hcommands : IsSection (contributes.find? "commands") commands)
      (hkeybindings : IsSection (contributes.find? "keybindings") keybindings) :
      Sections p commands keybindings

/-- An item of a well-formed package has the command. -/
def Declares (p : Package) (c : String) : Prop :=
  ∃ commands keybindings item, p.Sections commands keybindings ∧
    item ∈ commands ++ keybindings ∧ item.member? "command" = some (.string c)

theorem manifest_eq_ok_iff : p.manifest = .ok m ↔ ∃ commands keybindings,
    p.Sections commands keybindings ∧ m = ⟨p.id, commands.filterMap Manifest.itemCommand?,
      keybindings.filterMap Manifest.itemCommand?⟩ := by
  rw [manifest, Manifest.ofPackage]
  constructor
  · intro h
    match hcontributes : p.content.member? "contributes" with
    | none =>
        rw [hcontributes] at h
        cases h
        exact ⟨_, _, .absent hcontributes, rfl⟩
    | some .null =>
        rw [hcontributes] at h
        cases h
        exact ⟨_, _, .null hcontributes, rfl⟩
    | some (.object contributes) =>
        rw [hcontributes] at h
        obtain ⟨ids, hids, h⟩ := bind_eq_ok_iff.mp h
        obtain ⟨ids', hids', h⟩ := bind_eq_ok_iff.mp h
        obtain ⟨commands, hcommands, rfl⟩ := Manifest.sectionIds_eq_ok_iff.mp hids
        obtain ⟨keybindings, hkeybindings, rfl⟩ := Manifest.sectionIds_eq_ok_iff.mp hids'
        cases h
        exact ⟨_, _, .object hcontributes hcommands hkeybindings, rfl⟩
    | some (.bool _) | some (.number _) | some (.string _) | some (.array _) =>
        rw [hcontributes] at h
        cases h
  · rintro ⟨commands, keybindings, hsections, rfl⟩
    cases hsections with
    | absent h =>
        rw [h]
        rfl
    | null h =>
        rw [h]
        rfl
    | object h hcommands hkeybindings =>
        rw [h]
        refine bind_eq_ok_iff.mpr ⟨_, Manifest.sectionIds_eq_ok_iff.mpr ⟨_, hcommands, rfl⟩, ?_⟩
        exact bind_eq_ok_iff.mpr ⟨_, Manifest.sectionIds_eq_ok_iff.mpr ⟨_, hkeybindings, rfl⟩, rfl⟩

theorem exists_manifest_iff :
    (∃ m, p.manifest = .ok m) ↔ ∃ commands keybindings, p.Sections commands keybindings := by
  constructor
  · rintro ⟨m, hm⟩
    obtain ⟨commands, keybindings, hsections, -⟩ := manifest_eq_ok_iff.mp hm
    exact ⟨commands, keybindings, hsections⟩
  · rintro ⟨commands, keybindings, hsections⟩
    exact ⟨_, manifest_eq_ok_iff.mpr ⟨commands, keybindings, hsections, rfl⟩⟩

/-- A manifest mentions the commands that its package declares, apart from the empty one. -/
theorem exists_mem_commandIds_iff :
    (∃ m, p.manifest = .ok m ∧ c ∈ m.commandIds) ↔ c ≠ "" ∧ p.Declares c := by
  have hmem : ∀ {commands keybindings : List Json.Value}, c ∈ (⟨p.id,
      commands.filterMap Manifest.itemCommand?, keybindings.filterMap Manifest.itemCommand?⟩ :
        Manifest).commandIds ↔ c ≠ "" ∧ ∃ item ∈ commands ++ keybindings,
          item.member? "command" = some (.string c) := by
    intro commands keybindings
    rw [Manifest.commandIds, ← List.filterMap_append, List.mem_filterMap]
    simp only [Manifest.itemCommand?_eq_some_iff]
    exact ⟨fun ⟨item, hitem, hc, h⟩ => ⟨hc, item, hitem, h⟩,
      fun ⟨hc, item, hitem, h⟩ => ⟨item, hitem, hc, h⟩⟩
  constructor
  · rintro ⟨m, hm, hc⟩
    obtain ⟨commands, keybindings, hsections, rfl⟩ := manifest_eq_ok_iff.mp hm
    obtain ⟨hne, item, hitem, hcommand⟩ := hmem.mp hc
    exact ⟨hne, commands, keybindings, item, hsections, hitem, hcommand⟩
  · rintro ⟨hne, commands, keybindings, item, hsections, hitem, hcommand⟩
    exact ⟨_, manifest_eq_ok_iff.mpr ⟨commands, keybindings, hsections, rfl⟩,
      hmem.mpr ⟨hne, item, hitem, hcommand⟩⟩

end Package

namespace Source

/-- A source whose manifests are those of the packages that could be read. -/
def ofPackages (active all : Except SourceError (List String))
    (packages : Except SourceError (List (Except SourceError Package))) : Source :=
  ⟨active, all, packages.map (List.map (·.bind Package.manifest))⟩

variable {active all : Except SourceError (List String)}
  {packages : Except SourceError (List (Except SourceError Package))} {id : String}

theorem exists_manifests_ofPackages : (∃ ms, (ofPackages active all packages).manifests = .ok ms) ↔
    ∃ ps, packages = .ok ps := by
  cases packages with
  | error e => exact ⟨nofun, nofun⟩
  | ok ps => exact ⟨fun _ => ⟨ps, rfl⟩, fun _ => ⟨_, rfl⟩⟩

theorem lists_ofPackages (hid : id ≠ "") : (ofPackages active all packages).Lists id ↔
    (∃ ids, active = .ok ids ∧ id ∈ ids) ∨ (∃ ids, all = .ok ids ∧ id ∈ ids) ∨
      ∃ ps p, packages = .ok ps ∧ .ok p ∈ ps ∧ p.Declares id := by
  refine or_congr_right (or_congr_right ?_)
  have hdeclares : ∀ p : Package, p.Declares id ↔ ∃ m, p.manifest = .ok m ∧ id ∈ m.commandIds :=
    fun p => (and_iff_right hid).symm.trans Package.exists_mem_commandIds_iff.symm
  simp only [hdeclares]
  constructor
  · rintro ⟨ms, m, hms, hm, hmem⟩
    cases packages with
    | error e => cases hms
    | ok ps =>
        cases hms
        obtain ⟨listed, hlisted, hmanifest⟩ := List.mem_map.mp hm
        obtain ⟨p, rfl, hp⟩ := bind_eq_ok_iff.mp hmanifest
        exact ⟨ps, p, rfl, hlisted, m, hp, hmem⟩
  · rintro ⟨ps, p, rfl, hp, m, hm, hmem⟩
    exact ⟨_, m, rfl, List.mem_map.mpr ⟨_, hp, hm⟩, hmem⟩

/-- Two listings both fail, or have the same members among those that count. -/
def SameMembers {α : Type} (counts : α → Prop) :
    Except SourceError (List α) → Except SourceError (List α) → Prop
  | .ok xs, .ok ys => ∀ x, counts x → (x ∈ xs ↔ x ∈ ys)
  | .error _, .error _ => True
  | _, _ => False

section SameMembers

variable {α : Type} {counts : α → Prop} {l l' : Except SourceError (List α)} {x : α}

theorem SameMembers.exists_ok_iff (h : SameMembers counts l l') :
    (∃ xs, l = .ok xs) ↔ ∃ ys, l' = .ok ys := by
  cases l with
  | error e =>
      cases l' with
      | error e' => exact ⟨nofun, nofun⟩
      | ok ys => cases h
  | ok xs =>
      cases l' with
      | error e => cases h
      | ok ys => exact ⟨fun _ => ⟨ys, rfl⟩, fun _ => ⟨xs, rfl⟩⟩

theorem SameMembers.exists_mem_iff (h : SameMembers counts l l') (hx : counts x) :
    (∃ xs, l = .ok xs ∧ x ∈ xs) ↔ ∃ ys, l' = .ok ys ∧ x ∈ ys := by
  cases l with
  | error e =>
      cases l' with
      | error e' => exact ⟨nofun, nofun⟩
      | ok ys => cases h
  | ok xs =>
      cases l' with
      | error e => cases h
      | ok ys => simpa using h x hx

end SameMembers

/-- A package whose manifest can be read. -/
def IsWellFormed (listed : Except SourceError Package) : Prop :=
  ∃ m, listed.bind Package.manifest = .ok m

theorem sameIds_ofPackages {active' all' : Except SourceError (List String)}
    {packages' : Except SourceError (List (Except SourceError Package))}
    (hactive : SameMembers (· ≠ "") active active') (hall : SameMembers (· ≠ "") all all')
    (hpackages : SameMembers IsWellFormed packages packages') :
    SameIds (ofPackages active all packages) (ofPackages active' all' packages') where
  active := hactive.exists_ok_iff
  all := hall.exists_ok_iff
  manifests := by
    rw [exists_manifests_ofPackages, exists_manifests_ofPackages]
    exact hpackages.exists_ok_iff
  lists id hid := by
    rw [lists_ofPackages hid, lists_ofPackages hid]
    refine or_congr (hactive.exists_mem_iff hid) (or_congr (hall.exists_mem_iff hid) ?_)
    rw [exists_comm, exists_comm (α := List (Except SourceError Package))]
    refine exists_congr fun p => ?_
    simp only [← and_assoc, exists_and_right]
    -- a package that declares an id is well-formed
    refine and_congr_left fun hdeclares => hpackages.exists_mem_iff ?_
    obtain ⟨m, hm, -⟩ := Package.exists_mem_commandIds_iff.mpr ⟨hid, hdeclares⟩
    exact ⟨m, hm⟩

/-- A registry is the union of what can be read.  It is missing only if no listing can be read, and
holds the ids on the editor's lists and those that well-formed packages declare.  In which order and
how often ids and packages are listed does not matter, and neither do malformed packages. -/
theorem registry_isUnion (active all : Except SourceError (List String))
    (packages : Except SourceError (List (Except SourceError Package))) :
    let source := ofPackages active all packages
    (∀ err, source.registry = .error err ↔ ((∃ e, active = .error e) ∧ (∃ e, all = .error e) ∧
      ∃ e, packages = .error e) ∧ err = .noSources) ∧
    (∀ r, source.registry = .ok r →
      (∀ id, r.contains id ↔ id ≠ "" ∧ ((∃ ids, active = .ok ids ∧ id ∈ ids) ∨
        (∃ ids, all = .ok ids ∧ id ∈ ids) ∨
          ∃ ps p, packages = .ok ps ∧ .ok p ∈ ps ∧ p.Declares id)) ∧
      (r.hostListed ↔ (∃ ids, active = .ok ids) ∨ ∃ ids, all = .ok ids)) ∧
    (∀ p : Package, IsWellFormed (.ok p) ↔
      ∃ commands keybindings, p.Sections commands keybindings) ∧
    (∀ source', SameIds source source' → source'.registry = source.registry) ∧
    ∀ active' all' packages', SameMembers (· ≠ "") active active' →
      SameMembers (· ≠ "") all all' → SameMembers IsWellFormed packages packages' →
        (ofPackages active' all' packages').registry = source.registry := by
  intro source
  refine ⟨fun err => ?_, fun r hr => ⟨fun id => ?_, hostListed_registry hr⟩,
    fun p => Package.exists_manifest_iff, fun source' h => h.registry_eq.symm,
    fun active' all' packages' hactive hall hpackages =>
      (sameIds_ofPackages hactive hall hpackages).registry_eq.symm⟩
  · rw [registry_eq_error_iff]
    refine and_congr_left fun _ => ?_
    cases active <;> cases all <;> cases packages <;>
      simp [source, ofPackages, IsReadable, Except.map]
  · rw [Registry.contains_iff, mem_ids_registry hr]
    exact and_congr_right fun hid => lists_ofPackages hid

/-- A package with one malformed section declares nothing, and the next one is read nevertheless. -/
example :
    let malformed := Json.Value.object [("contributes", .object
      [("commands", .array [.object [("command", .string "a")]]), ("keybindings", .bool true)])]
    let wellFormed := Json.Value.object [("contributes", .object
      [("keybindings", .object [("command", .string "b")])])]
    (ofPackages (.error .noSources) (.ok ["c", "", "b"])
      (.ok [.ok ⟨"x", malformed⟩, .ok ⟨"y", wellFormed⟩])).registry = .ok ⟨["b", "c"], true⟩ :=
  rfl

end Source

end Keybindings
