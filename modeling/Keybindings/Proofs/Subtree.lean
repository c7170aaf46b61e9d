import Keybindings.Proofs.Files
import Mathlib.Data.List.Nodup

/-!
File trees that differ in one part.

A path is looked up from place to place (`FileTree.route`), and nothing matters but what is found at
these places (`FileTree.leadsTo_congr`).  When a part of the tree is taken out, a path that leads
past it leads to the same node as before, and one that leads to or through it leads to nothing
(`FileTree.leadsTo_without`).
-/

namespace Keybindings

namespace FileTree

variable {tree tree' : FileTree} {p q here : Place} {ss : List Text} {n : FileNode}
  {path : String} {name : Text}

/-! ### Paths

The places that a path passes are those at which a walk looks: directories, and the links that it
follows.  A path goes back up at `..` and anywhere at a link, so that it may pass a place that is
not above the one it leads to; whether it leads through a part of the tree is therefore asked of all
the places that it passes. -/

def route (tree : FileTree) (path : Text) : List Place :=
  tree.routeFrom maxLinks (tree.origin path) (Path.segments path)

def LeadsTo (tree : FileTree) (path : String) (p : Place) (n : FileNode) : Prop :=
  tree.locate path.toList = .ok p ∧ tree.node? p = some n

/-- A path leads to a place or to one behind it, or passes one of them on the way. -/
def LeadsThrough (tree : FileTree) (p : Place) (path : String) : Prop :=
  ∃ q ∈ tree.route path.toList, p <+: q

instance (tree : FileTree) (p : Place) (path : String) : Decidable (tree.LeadsThrough p path) :=
  inferInstanceAs (Decidable (∃ q ∈ tree.route path.toList, p <+: q))

/-- The places end up at `p`, and there is a node at every place on the way. -/
structure IsRouteTo (tree : FileTree) (p : Place) (qs : List Place) : Prop where
  mem : p ∈ qs
  isSome : ∀ q ∈ qs, q = p ∨ (tree.node? q).isSome

theorem IsRouteTo.cons {qs : List Place} (h : tree.IsRouteTo p qs)
    (hnode : tree.node? here = some n) : tree.IsRouteTo p (here :: qs) where
  mem := List.mem_cons_of_mem _ h.mem
  isSome := by
    refine List.forall_mem_cons.mpr ⟨.inr ?_, h.isSome⟩
    rw [hnode, Option.isSome_some]

theorem isRouteTo_routeWith {follow : Place → List Text → Except FileError Place}
    {passed : Place → List Text → List Place}
    (hfollow : ∀ here ss, follow here ss = .ok p → tree.IsRouteTo p (passed here ss))
    (h : tree.walkWith follow here ss = .ok p) :
    tree.IsRouteTo p (tree.routeWith passed here ss) := by
  induction ss generalizing here with
  | nil =>
      rcases walkWith_nil_eq_ok_iff.mp h with ⟨target, hlink, h⟩ | ⟨hother, rfl⟩
      · have hroute := (hfollow _ _ h).cons hlink
        rw [routeWith_link hlink]
        simpa using hroute
      · rw [routeWith_nil hother]
        exact ⟨List.mem_singleton_self _, fun q hq => .inl (List.mem_singleton.mp hq)⟩
  | cons s ss ih =>
      rcases walkWith_cons_eq_ok_iff.mp h with ⟨target, hlink, h⟩ | ⟨hdirectory, -, h⟩
      · rw [routeWith_link hlink]
        exact (hfollow _ _ h).cons hlink
      · rw [routeWith_directory hdirectory]
        exact (ih h).cons hdirectory

theorem isRouteTo_routeFrom {links : Nat} (h : tree.walk links here ss = .ok p) :
    tree.IsRouteTo p (tree.routeFrom links here ss) := by
  induction links generalizing here ss with
  | zero =>
      rw [walk] at h
      exact isRouteTo_routeWith (fun _ _ => by nofun) h
  | succ links ih => exact isRouteTo_routeWith (fun _ _ => ih) h

theorem locate_eq_ok_iff {path : Text} : tree.locate path = .ok p ↔
    segments path = .ok (Path.segments path) ∧
      tree.walk maxLinks (tree.origin path) (Path.segments path) = .ok p := by
  have hsegments : ∀ ss, segments path = .ok ss → ss = Path.segments path := by
    intro ss hss
    rw [segments] at hss
    split_ifs at hss
    cases hss
    rfl
  rw [locate, bind_eq_ok_iff]
  constructor
  · rintro ⟨ss, hss, hwalk⟩
    obtain rfl := hsegments ss hss
    exact ⟨hss, hwalk⟩
  · exact fun h => ⟨_, h⟩

theorem LeadsTo.isRouteTo (h : tree.LeadsTo path p n) :
    tree.IsRouteTo p (tree.route path.toList) :=
  isRouteTo_routeFrom (locate_eq_ok_iff.mp h.1).2

theorem LeadsTo.isSome_of_mem_route (h : tree.LeadsTo path p n) (hq : q ∈ tree.route path.toList) :
    (tree.node? q).isSome := by
  rcases h.isRouteTo.isSome q hq with rfl | hsome
  · rw [h.2, Option.isSome_some]
  · exact hsome

/-- What a path leads to depends only on what is found on the way. -/
theorem leadsTo_congr (hdir : tree'.workingDir = tree.workingDir)
    (h : ∀ q ∈ tree.route path.toList, tree'.node? q = tree.node? q) :
    (tree'.LeadsTo path p n ↔ tree.LeadsTo path p n) ∧
      tree'.route path.toList = tree.route path.toList := by
  have horigin : tree'.origin path.toList = tree.origin path.toList := by
    rw [origin, origin, hdir]
  obtain ⟨hwalk, hroute⟩ := walk_congr fun q hq => .inl (h q hq)
  refine ⟨?_, by rw [route, horigin, hroute, route]⟩
  rw [LeadsTo, LeadsTo, locate_eq_ok_iff, locate_eq_ok_iff, horigin, hwalk]
  refine and_congr_right fun hp => ?_
  rw [h p (isRouteTo_routeFrom hp.2).mem]

theorem look_eq_ok_iff_leadsTo : tree.look path = .ok n ↔ ∃ p, tree.LeadsTo path p n :=
  look_eq_ok_iff

theorem readText_eq_ok_iff_leadsTo {t : Text} :
    tree.readText path = .ok t ↔ ∃ p, tree.LeadsTo path p (.file (.text t)) :=
  readText_eq_ok_iff

/-! ### Directories

What a directory lists is said by the nodes that are found below it, so that the order in which a
tree keeps its nodes does not show. -/

theorem isSome_node?_iff (h : p ≠ []) : (tree.node? p).isSome ↔ ∃ n, (p, n) ∈ tree.nodes := by
  rw [node?, if_neg h, Option.isSome_map, List.find?_isSome]
  constructor
  · rintro ⟨⟨q, n⟩, hmem, hq⟩
    obtain rfl := of_decide_eq_true hq
    exact ⟨n, hmem⟩
  · rintro ⟨n, hmem⟩
    exact ⟨_, hmem, decide_eq_true rfl⟩

/-- A directory can be listed if a path leads to it, and its listing has the names at the places
right below it. -/
theorem list_eq_ok_iff {names : List Text} : tree.list path = .ok names ↔
    ∃ here, tree.LeadsTo path here .directory ∧
      names = tree.nodes.filterMap fun n =>
        if n.1.dropLast = here then n.1.getLast? else none := by
  simp only [list, bind_eq_ok_iff, LeadsTo, and_assoc]
  refine exists_congr fun here => and_congr_right fun _ => ?_
  match tree.node? here with
  | none | some (.file _) | some (.link _) => exact ⟨nofun, nofun⟩
  | some .directory =>
      constructor
      · intro h
        cases h
        exact ⟨rfl, rfl⟩
      · rintro ⟨-, rfl⟩
        rfl

theorem exists_list_iff : (∃ names, tree.list path = .ok names) ↔
    ∃ here, tree.LeadsTo path here .directory := by
  simp only [list_eq_ok_iff]
  exact ⟨fun ⟨_, here, h, _⟩ => ⟨here, h⟩, fun ⟨here, h⟩ => ⟨_, here, h, rfl⟩⟩

/-- A listed name is that of a node right below the directory. -/
theorem exists_mem_list_iff : (∃ names, tree.list path = .ok names ∧ name ∈ names) ↔
    ∃ here, tree.LeadsTo path here .directory ∧ (tree.node? (here ++ [name])).isSome := by
  have hmem : ∀ here : Place, name ∈ (tree.nodes.filterMap fun n =>
      if n.1.dropLast = here then n.1.getLast? else none) ↔
        (tree.node? (here ++ [name])).isSome := by
    intro here
    rw [isSome_node?_iff (by simp), List.mem_filterMap]
    constructor
    · rintro ⟨⟨q, n⟩, hmem, hname⟩
      obtain ⟨hhere, hlast⟩ := Option.ite_none_right_eq_some.mp hname
      obtain ⟨above, rfl⟩ := List.getLast?_eq_some_iff.mp hlast
      rw [List.dropLast_concat] at hhere
      exact ⟨n, hhere ▸ hmem⟩
    · rintro ⟨n, hmem⟩
      exact ⟨_, hmem, by simp⟩
  simp only [list_eq_ok_iff]
  constructor
  · rintro ⟨_, ⟨here, h, rfl⟩, hname⟩
    exact ⟨here, h, (hmem here).mp hname⟩
  · rintro ⟨here, h, hname⟩
    exact ⟨_, ⟨here, h, rfl⟩, (hmem here).mpr hname⟩

/-! ### Trees with the same nodes -/

/-- The same is found at each place, in whatever order it is kept. -/
structure SameNodes (tree tree' : FileTree) : Prop where
  workingDir_eq : tree'.workingDir = tree.workingDir
  node?_eq : ∀ q, tree'.node? q = tree.node? q

theorem find?_eq_some_iff {nodes : List (Place × FileNode)} (hnodup : (nodes.map Prod.fst).Nodup)
    {m : Place × FileNode} : nodes.find? (·.1 = q) = some m ↔ m ∈ nodes ∧ m.1 = q := by
  have hfound : ∀ {m : Place × FileNode}, nodes.find? (·.1 = q) = some m →
      m ∈ nodes ∧ m.1 = q := by
    intro m hm
    have hq := List.find?_some hm
    exact ⟨List.mem_of_find?_eq_some hm, by simpa using hq⟩
  refine ⟨hfound, fun ⟨hmem, hq⟩ => ?_⟩
  have hsome : (nodes.find? (·.1 = q)).isSome := List.find?_isSome.mpr ⟨m, hmem, by simpa using hq⟩
  obtain ⟨m', hm'⟩ := Option.isSome_iff_exists.mp hsome
  obtain ⟨hmem', hq'⟩ := hfound hm'
  rw [hm', List.inj_on_of_nodup_map hnodup hmem' hmem (hq'.trans hq.symm)]

/-- Where no place is taken twice, any order of the nodes will do. -/
theorem sameNodes_of_perm {nodes : List (Place × FileNode)} (h : tree.nodes.Perm nodes)
    (hnodup : (tree.nodes.map Prod.fst).Nodup) : tree.SameNodes { tree with nodes := nodes } := by
  have hnodup' : (nodes.map Prod.fst).Nodup := (h.map Prod.fst).nodup_iff.mp hnodup
  refine ⟨rfl, fun q => ?_⟩
  rw [node?, node?]
  congr 2
  refine Option.ext fun m => ?_
  rw [find?_eq_some_iff hnodup', find?_eq_some_iff hnodup, h.mem_iff]

theorem SameNodes.leadsTo_iff (h : tree.SameNodes tree') :
    tree'.LeadsTo path p n ↔ tree.LeadsTo path p n :=
  (leadsTo_congr h.workingDir_eq fun q _ => h.node?_eq q).1

/-! ### A part taken out -/

/-- The tree without what is found at a place and behind it. -/
def without (tree : FileTree) (p : Place) : FileTree :=
  { tree with nodes := tree.nodes.filter fun n => ¬ p <+: n.1 }

theorem node?_without (hp : p ≠ []) (tree : FileTree) (q : Place) :
    (tree.without p).node? q = if p <+: q then none else tree.node? q := by
  by_cases hq : q = []
  · have hprefix : ¬ p <+: q := by
      rw [hq, List.prefix_nil]
      exact hp
    rw [if_neg hprefix, node?, node?, if_pos hq, if_pos hq]
  · rw [node?, node?, if_neg hq, if_neg hq, without, List.find?_filter]
    have hkept : (fun m : Place × FileNode => decide ((decide ¬ p <+: m.1) = true ∧
        decide (m.1 = q) = true)) = fun m => !decide (p <+: q) && decide (m.1 = q) := by
      funext m
      by_cases hm : m.1 = q
      · simp [hm]
      · simp [hm]
    rw [hkept]
    split
    · next hbehind => simp [hbehind]
    · next hbehind => simp [hbehind]

theorem leadsTo_without (hp : p ≠ []) : (tree.without p).LeadsTo path q n ↔
    ¬ tree.LeadsThrough p path ∧ tree.LeadsTo path q n := by
  constructor
  · intro h
    -- there is still a node at every place on the way, so that none of them is in the part
    have hpast : ∀ r ∈ (tree.without p).route path.toList, ¬ p <+: r := by
      intro r hr hbehind
      have hsome := h.isSome_of_mem_route hr
      rw [node?_without hp, if_pos hbehind] at hsome
      cases hsome
    have hsame : ∀ r ∈ (tree.without p).route path.toList,
        tree.node? r = (tree.without p).node? r := by
      intro r hr
      rw [node?_without hp, if_neg (hpast r hr)]
    obtain ⟨hleads, hroute⟩ := leadsTo_congr (by rfl) hsame
    refine ⟨?_, hleads.mpr h⟩
    rintro ⟨r, hr, hbehind⟩
    rw [hroute] at hr
    exact hpast r hr hbehind
  · rintro ⟨hpast, h⟩
    have hsame : ∀ r ∈ tree.route path.toList, (tree.without p).node? r = tree.node? r := by
      intro r hr
      rw [node?_without hp, if_neg fun hbehind => hpast ⟨r, hr, hbehind⟩]
    exact (leadsTo_congr (by rfl) hsame).1.mpr h

end FileTree

end Keybindings
