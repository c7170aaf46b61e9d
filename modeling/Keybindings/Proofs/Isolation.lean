import Keybindings.Files.Listing
import Keybindings.Proofs.Aggregation
import Keybindings.Proofs.Subtree

/-!
The registry that the files of a tree give.

The commands file and each directory with extensions give what they hold themselves, whatever
becomes of the others (`Listing.lists_source`).  The registry therefore does not depend on any
order, and what cannot be read is as if it were not configured.  An extension without a well-formed
package gives nothing, so that it can come and go; what goes with it is what is read along paths
that lead through its directory (`Listing.registry_isolated`).
-/

namespace Keybindings

namespace FileTree

variable {tree tree' : FileTree} {p here : Place} {dir path id : String} {name : Text}
  {package : Package} {s : Snapshot}

/-! ### What files give -/

def HasSnapshot (tree : FileTree) (path : String) (s : Snapshot) : Prop :=
  ∃ t, tree.readText path = .ok t ∧ Snapshot.read t = .ok s

def IsListable (tree : FileTree) (dir : String) : Prop :=
  ∃ names, tree.list dir = .ok names

/-- The path of the package file of an extension. -/
def packagePath (dir : String) (name : Text) : String :=
  Path.join (Path.join dir (String.ofList name)) "package.json"

/-- An extension in a directory has a package file with JSON in it. -/
inductive HasPackage (tree : FileTree) (dir : String) (name : Text) : Package → Prop
  | mk {names : List Text} {t : Text} {v : Json.Value}
      (hnames : tree.list dir = .ok names) (hname : name ∈ names)
      (htext : tree.readText (packagePath dir name) = .ok t) (hread : Json.read t = .ok v) :
      HasPackage tree dir name ⟨(Manifest.extensionId? v).getD (String.ofList name), v⟩

/-- An extension in a directory declares a command. -/
def Declares (tree : FileTree) (dir id : String) : Prop :=
  ∃ name package, tree.HasPackage dir name package ∧ package.Declares id

/-- A name in a directory is that of no extension with a well-formed package. -/
inductive IsBroken (tree : FileTree) (dir : String) (name : Text) : Prop
  | missing {e : FileError} (h : tree.look (packagePath dir name) = .error e)
  | notAFile (h : tree.look (packagePath dir name) = .ok .directory)
  | notUtf8 {b : List UInt8} (h : tree.look (packagePath dir name) = .ok (.file (.bytes b)))
  | notJson {t : Text} {f : Json.Fault}
      (h : tree.look (packagePath dir name) = .ok (.file (.text t))) (hread : Json.read t = .error f)
  | malformed {t : Text} {v : Json.Value}
      (h : tree.look (packagePath dir name) = .ok (.file (.text t))) (hread : Json.read t = .ok v)
      (hsections : ∀ id commands keybindings, ¬ Package.Sections ⟨id, v⟩ commands keybindings)

theorem isListable_iff : tree.IsListable dir ↔ ∃ here, tree.LeadsTo dir here .directory :=
  exists_list_iff

theorem hasPackage_iff : tree.HasPackage dir name package ↔
    (∃ here, tree.LeadsTo dir here .directory ∧ (tree.node? (here ++ [name])).isSome) ∧
      ∃ t q v, tree.LeadsTo (packagePath dir name) q (.file (.text t)) ∧ Json.read t = .ok v ∧
        package = ⟨(Manifest.extensionId? v).getD (String.ofList name), v⟩ := by
  rw [← exists_mem_list_iff]
  constructor
  · rintro ⟨hnames, hname, htext, hread⟩
    obtain ⟨q, hq⟩ := readText_eq_ok_iff_leadsTo.mp htext
    exact ⟨⟨_, hnames, hname⟩, _, q, _, hq, hread, rfl⟩
  · rintro ⟨⟨names, hnames, hname⟩, t, q, v, hq, hread, rfl⟩
    exact ⟨hnames, hname, readText_eq_ok_iff_leadsTo.mpr ⟨q, hq⟩, hread⟩

theorem HasPackage.isListable (h : tree.HasPackage dir name package) : tree.IsListable dir := by
  obtain ⟨hnames, -, -, -⟩ := h
  exact ⟨_, hnames⟩

theorem Declares.isListable (h : tree.Declares dir id) : tree.IsListable dir := by
  obtain ⟨_, _, hpackage, -⟩ := h
  exact hpackage.isListable

theorem IsBroken.not_declares (h : tree.IsBroken dir name)
    (hpackage : tree.HasPackage dir name package) : ¬ package.Declares id := by
  rintro ⟨commands, keybindings, -, hsections, -⟩
  obtain ⟨-, -, htext, hread⟩ := hpackage
  have hlook := look_eq_ok_iff_leadsTo.mpr (readText_eq_ok_iff_leadsTo.mp htext)
  cases h with
  | missing h => cases h.symm.trans hlook
  | notAFile h => cases h.symm.trans hlook
  | notUtf8 h => cases h.symm.trans hlook
  | notJson h hfault =>
      cases h.symm.trans hlook
      cases hfault.symm.trans hread
  | malformed h hread' hnone =>
      cases h.symm.trans hlook
      cases hread'.symm.trans hread
      exact hnone _ _ _ hsections

theorem SameNodes.hasSnapshot_iff (h : tree.SameNodes tree') :
    tree'.HasSnapshot path s ↔ tree.HasSnapshot path s := by
  simp only [HasSnapshot, readText_eq_ok_iff_leadsTo, h.leadsTo_iff]

theorem SameNodes.isListable_iff (h : tree.SameNodes tree') :
    tree'.IsListable dir ↔ tree.IsListable dir := by
  simp only [FileTree.isListable_iff, h.leadsTo_iff]

theorem SameNodes.hasPackage_iff (h : tree.SameNodes tree') :
    tree'.HasPackage dir name package ↔ tree.HasPackage dir name package := by
  simp only [FileTree.hasPackage_iff, h.leadsTo_iff, h.node?_eq]

theorem SameNodes.declares_iff (h : tree.SameNodes tree') :
    tree'.Declares dir id ↔ tree.Declares dir id := by
  simp only [Declares, h.hasPackage_iff]

/-! ### What is read past a place

An extension is found by two paths: that of the directory which lists it, and that of its package
file.  Through a link, the second can lead elsewhere than to a place behind the first. -/

/-- A directory lists a name, and its package file is read, without coming to a place or behind
it. -/
structure IsPast (tree : FileTree) (p : Place) (dir : String) (name : Text) : Prop where
  directory : ¬ tree.LeadsThrough p dir
  listed : ∀ here, tree.locate dir.toList = .ok here → ¬ p <+: here ++ [name]
  package : ¬ tree.LeadsThrough p (packagePath dir name)

theorem hasSnapshot_without (hp : p ≠ []) :
    (tree.without p).HasSnapshot path s ↔ ¬ tree.LeadsThrough p path ∧ tree.HasSnapshot path s := by
  simp only [HasSnapshot, readText_eq_ok_iff_leadsTo, leadsTo_without hp, exists_and_left, and_assoc]

theorem isListable_without (hp : p ≠ []) :
    (tree.without p).IsListable dir ↔ ¬ tree.LeadsThrough p dir ∧ tree.IsListable dir := by
  simp only [isListable_iff, leadsTo_without hp, exists_and_left]

theorem hasPackage_without (hp : p ≠ []) : (tree.without p).HasPackage dir name package ↔
    tree.IsPast p dir name ∧ tree.HasPackage dir name package := by
  simp only [hasPackage_iff, leadsTo_without hp, node?_without hp]
  constructor
  · rintro ⟨⟨here, ⟨hdir, hhere⟩, hsome⟩, t, q, v, ⟨hpackage, hq⟩, hread⟩
    split at hsome
    · cases hsome
    · next hlisted =>
      refine ⟨⟨hdir, fun here' hhere' => ?_, hpackage⟩, ⟨here, hhere, hsome⟩, t, q, v, hq, hread⟩
      rwa [← Except.ok.inj (hhere.1.symm.trans hhere')]
  · rintro ⟨hpast, ⟨here, hhere, hsome⟩, t, q, v, hq, hread⟩
    refine ⟨⟨here, ⟨hpast.directory, hhere⟩, ?_⟩, t, q, v, ⟨hpast.package, hq⟩, hread⟩
    rwa [if_neg (hpast.listed here hhere.1)]

/-- An extension that declares a command is read past the place of a broken one, if its directory
and its package file are. -/
theorem isPast_of_isBroken (hbroken : tree.locate dir.toList = .ok here → tree.IsBroken dir name)
    {name' : Text} (hpackage : tree.HasPackage dir name' package) (hdeclares : package.Declares id)
    (hdir : ¬ tree.LeadsThrough (here ++ [name]) dir)
    (hpath : (tree.locate dir.toList = .ok here → name' ≠ name) →
      ¬ tree.LeadsThrough (here ++ [name]) (packagePath dir name')) :
    tree.IsPast (here ++ [name]) dir name' := by
  have hother : tree.locate dir.toList = .ok here → name' ≠ name := by
    rintro hhere rfl
    exact (hbroken hhere).not_declares hpackage hdeclares
  refine ⟨hdir, fun here' hhere' hbehind => ?_, hpath hother⟩
  rcases List.prefix_concat_iff.mp hbehind with heq | hbehind
  · obtain ⟨rfl, hname⟩ := List.append_inj' heq rfl
    exact hother hhere' (List.singleton_inj.mp hname).symm
  · obtain ⟨⟨here'', hleads, -⟩, -⟩ := hasPackage_iff.mp hpackage
    obtain rfl : here'' = here' := Except.ok.inj (hleads.1.symm.trans hhere')
    exact hdir ⟨here'', hleads.isRouteTo.mem, hbehind⟩

end FileTree

/-! ### Listings

Each of the three lists that a listing gives is described by the files that it is read from, down
to the commands that are declared. -/

namespace Listing

variable {l l' : Listing} {tree tree' : FileTree} {dir path id name : String} {s : Snapshot}
  {m : Manifest}

theorem snapshot_eq_ok_iff : l.snapshot tree = .ok s ↔
    ∃ path ∈ l.commandsFile, tree.HasSnapshot path s := by
  rw [snapshot]
  cases l.commandsFile with
  | none => exact ⟨nofun, nofun⟩
  | some path =>
      simp only [Option.mem_def, Option.some.injEq, exists_eq_left', FileTree.HasSnapshot]
      cases tree.readText path with
      | error e => exact ⟨nofun, nofun⟩
      | ok t =>
          simp only [Except.ok.injEq, exists_eq_left']
          cases Snapshot.read t with
          | error e => exact ⟨nofun, nofun⟩
          | ok s' => simp [Except.mapError]

theorem exists_snapshot_iff {given : Snapshot → Prop} :
    (∃ s, l.snapshot tree = .ok s ∧ given s) ↔
      ∃ path ∈ l.commandsFile, ∃ s, tree.HasSnapshot path s ∧ given s := by
  simp only [snapshot_eq_ok_iff]
  constructor
  · rintro ⟨s, ⟨path, hpath, hs⟩, h⟩
    exact ⟨path, hpath, s, hs, h⟩
  · rintro ⟨path, hpath, s, hs, h⟩
    exact ⟨s, ⟨path, hpath, hs⟩, h⟩

theorem exists_isSnapshot_iff : (∃ s, l.snapshot tree = .ok s) ↔
    ∃ path ∈ l.commandsFile, ∃ s, tree.HasSnapshot path s := by
  simpa using @exists_snapshot_iff l tree fun _ => True

theorem manifest_eq_ok_iff : manifest tree path name = .ok m ↔ ∃ t v,
    tree.readText path = .ok t ∧ Json.read t = .ok v ∧
      (Package.mk ((Manifest.extensionId? v).getD name) v).manifest = .ok m := by
  rw [manifest]
  cases tree.readText path with
  | error e => exact ⟨nofun, nofun⟩
  | ok t =>
      cases hread : Json.read t with
      | error f => simp [hread]
      | ok v => simp [hread, Package.manifest]

theorem isFile_of_readText {t : Text} (h : tree.readText path = .ok t) :
    tree.isFile path = true := by
  have hlook := FileTree.look_eq_ok_iff_leadsTo.mpr (FileTree.readText_eq_ok_iff_leadsTo.mp h)
  rw [FileTree.isFile, hlook]

theorem exists_mem_directory_iff : (∃ ms, directory tree dir = .ok ms ∧ .ok m ∈ ms) ↔
    ∃ name package, tree.HasPackage dir name package ∧ package.manifest = .ok m := by
  simp only [directory, bind_eq_ok_iff]
  constructor
  · rintro ⟨ms, ⟨names, hnames, hms⟩, hm⟩
    cases hms
    obtain ⟨name, hname, hmanifest⟩ := List.mem_filterMap.mp hm
    obtain ⟨-, hmanifest⟩ := Option.ite_none_right_eq_some.mp hmanifest
    obtain ⟨t, v, htext, hread, hpackage⟩ := manifest_eq_ok_iff.mp (Option.some.inj hmanifest)
    exact ⟨name, _, ⟨hnames, hname, htext, hread⟩, hpackage⟩
  · rintro ⟨name, _, ⟨hnames, hname, htext, hread⟩, hpackage⟩
    refine ⟨_, ⟨_, hnames, rfl⟩, List.mem_filterMap.mpr ⟨_, hname, ?_⟩⟩
    exact Option.ite_none_right_eq_some.mpr ⟨isFile_of_readText htext,
      congrArg some (manifest_eq_ok_iff.mpr ⟨_, _, htext, hread, hpackage⟩)⟩

theorem exists_directory_iff : (∃ ms, directory tree dir = .ok ms) ↔ tree.IsListable dir := by
  simp only [directory, bind_eq_ok_iff, FileTree.IsListable]
  exact ⟨fun ⟨_, names, hnames, _⟩ => ⟨names, hnames⟩, fun ⟨_, hnames⟩ => ⟨_, _, hnames, rfl⟩⟩

/-- The manifests of the directories that can be listed. -/
def listed (l : Listing) (tree : FileTree) : List (List (Except SourceError Manifest)) :=
  (l.extensionsDirs.map (directory tree)).filterMap Except.toOption

theorem mem_listed_iff {ms : List (Except SourceError Manifest)} :
    ms ∈ l.listed tree ↔ ∃ dir ∈ l.extensionsDirs, directory tree dir = .ok ms := by
  simp only [listed, List.mem_filterMap, List.mem_map]
  constructor
  · rintro ⟨_, ⟨dir, hdir, rfl⟩, hms⟩
    refine ⟨dir, hdir, ?_⟩
    cases hdirectory : directory tree dir with
    | error e =>
        rw [hdirectory] at hms
        cases hms
    | ok ms' =>
        rw [hdirectory] at hms
        cases hms
        rfl
  · rintro ⟨dir, hdir, hms⟩
    exact ⟨_, ⟨dir, hdir, rfl⟩, by rw [hms]; rfl⟩

theorem manifests_eq_ok_iff {ms : List (Except SourceError Manifest)} :
    l.manifests tree = .ok ms ↔ l.listed tree ≠ [] ∧ ms = (l.listed tree).flatten := by
  rw [manifests]
  split
  · next hnone =>
    have hlisted : l.listed tree = [] := by rw [listed, hnone, List.map_nil, List.filterMap_nil]
    exact ⟨nofun, fun h => absurd hlisted h.1⟩
  · show (if l.listed tree = [] then _ else _) = _ ↔ _
    split
    · next hempty => exact ⟨nofun, fun h => absurd hempty h.1⟩
    · next hsome =>
      rw [Except.ok.injEq, eq_comm]
      exact (and_iff_right hsome).symm

/-- There are manifests if one of the directories can be listed. -/
theorem exists_manifests_iff :
    (∃ ms, l.manifests tree = .ok ms) ↔ ∃ dir ∈ l.extensionsDirs, tree.IsListable dir := by
  simp only [manifests_eq_ok_iff, exists_and_left, exists_eq, and_true, ← exists_directory_iff]
  constructor
  · intro hsome
    obtain ⟨ms, hms⟩ := List.exists_mem_of_ne_nil _ hsome
    obtain ⟨dir, hdir, hdirectory⟩ := mem_listed_iff.mp hms
    exact ⟨dir, hdir, ms, hdirectory⟩
  · rintro ⟨dir, hdir, ms, hdirectory⟩
    exact List.ne_nil_of_mem (mem_listed_iff.mpr ⟨dir, hdir, hdirectory⟩)

/-- A manifest is that of a package in one of the directories. -/
theorem exists_mem_manifests_iff : (∃ ms, l.manifests tree = .ok ms ∧ .ok m ∈ ms) ↔
    ∃ dir ∈ l.extensionsDirs, ∃ name package,
      tree.HasPackage dir name package ∧ package.manifest = .ok m := by
  simp only [manifests_eq_ok_iff, ← exists_mem_directory_iff]
  constructor
  · rintro ⟨_, ⟨-, rfl⟩, hm⟩
    obtain ⟨ms, hms, hm⟩ := List.mem_flatten.mp hm
    obtain ⟨dir, hdir, hdirectory⟩ := mem_listed_iff.mp hms
    exact ⟨dir, hdir, ms, hdirectory, hm⟩
  · rintro ⟨dir, hdir, ms, hdirectory, hm⟩
    have hms := mem_listed_iff.mpr ⟨dir, hdir, hdirectory⟩
    exact ⟨_, ⟨List.ne_nil_of_mem hms, rfl⟩, List.mem_flatten.mpr ⟨ms, hms, hm⟩⟩

theorem active_eq_ok_iff {ids : List String} : (l.source tree).active = .ok ids ↔
    ∃ s, l.snapshot tree = .ok s ∧ s.active = ids :=
  map_eq_ok_iff

theorem all_eq_ok_iff {ids : List String} : (l.source tree).all = .ok ids ↔
    ∃ s, l.snapshot tree = .ok s ∧ s.all = ids :=
  map_eq_ok_iff

theorem exists_active_iff : (∃ ids, (l.source tree).active = .ok ids) ↔
    ∃ s, l.snapshot tree = .ok s :=
  exists_map_eq_ok_iff

theorem exists_all_iff : (∃ ids, (l.source tree).all = .ok ids) ↔
    ∃ s, l.snapshot tree = .ok s :=
  exists_map_eq_ok_iff

/-- The commands file and each of the directories give their own commands. -/
theorem lists_source (hid : id ≠ "") : (l.source tree).Lists id ↔
    (∃ s, l.snapshot tree = .ok s ∧ (id ∈ s.active ∨ id ∈ s.all)) ∨
      ∃ dir ∈ l.extensionsDirs, tree.Declares dir id := by
  have hmanifests : (∃ ms m, (l.source tree).manifests = .ok ms ∧ .ok m ∈ ms ∧
      id ∈ m.commandIds) ↔ ∃ dir ∈ l.extensionsDirs, tree.Declares dir id := by
    constructor
    · rintro ⟨ms, m, hms, hm, hmem⟩
      obtain ⟨dir, hdir, name, package, hpackage, hmanifest⟩ :=
        exists_mem_manifests_iff.mp ⟨ms, hms, hm⟩
      obtain ⟨-, hdeclares⟩ := Package.exists_mem_commandIds_iff.mp ⟨m, hmanifest, hmem⟩
      exact ⟨dir, hdir, name, package, hpackage, hdeclares⟩
    · rintro ⟨dir, hdir, name, package, hpackage, hdeclares⟩
      obtain ⟨m, hmanifest, hmem⟩ := Package.exists_mem_commandIds_iff.mpr ⟨hid, hdeclares⟩
      obtain ⟨ms, hms, hm⟩ :=
        exists_mem_manifests_iff.mpr ⟨dir, hdir, name, package, hpackage, hmanifest⟩
      exact ⟨ms, m, hms, hm, hmem⟩
  rw [Source.Lists, hmanifests, ← or_assoc]
  refine or_congr_left ?_
  simp only [active_eq_ok_iff, all_eq_ok_iff]
  constructor
  · rintro (⟨_, ⟨s, hs, rfl⟩, hmem⟩ | ⟨_, ⟨s, hs, rfl⟩, hmem⟩)
    · exact ⟨s, hs, .inl hmem⟩
    · exact ⟨s, hs, .inr hmem⟩
  · rintro ⟨s, hs, hmem | hmem⟩
    · exact .inl ⟨_, ⟨s, hs, rfl⟩, hmem⟩
    · exact .inr ⟨_, ⟨s, hs, rfl⟩, hmem⟩

/-! ### Two listings -/

theorem isReadable_source : (l.source tree).IsReadable ↔
    (∃ s, l.snapshot tree = .ok s) ∨ ∃ dir ∈ l.extensionsDirs, tree.IsListable dir := by
  rw [Source.IsReadable, exists_active_iff, exists_all_iff, ← or_assoc, or_self,
    ← exists_manifests_iff]
  exact Iff.rfl

/-- Nothing matters but the snapshot, whether a directory can be listed, and what is declared. -/
theorem registry_congr (hsnapshot : ∀ s, l'.snapshot tree' = .ok s ↔ l.snapshot tree = .ok s)
    (hlistable : (∃ dir ∈ l'.extensionsDirs, tree'.IsListable dir) ↔
      ∃ dir ∈ l.extensionsDirs, tree.IsListable dir)
    (hdeclares : ∀ id, (∃ dir ∈ l'.extensionsDirs, tree'.Declares dir id) ↔
      ∃ dir ∈ l.extensionsDirs, tree.Declares dir id) :
    (l'.source tree').registry = (l.source tree).registry := by
  refine Source.SameIds.registry_eq ⟨?_, ?_, ?_, fun id hid => ?_⟩
  · simp only [active_eq_ok_iff, hsnapshot]
  · simp only [all_eq_ok_iff, hsnapshot]
  · exact exists_manifests_iff.trans (hlistable.trans exists_manifests_iff.symm)
  · rw [lists_source hid, lists_source hid, hdeclares]
    simp only [hsnapshot]

/-- The order of the nodes and of the directories does not matter. -/
theorem registry_sameNodes (h : tree.SameNodes tree') {dirs : List String}
    (hdirs : ∀ dir, dir ∈ dirs ↔ dir ∈ l.extensionsDirs) :
    (Listing.source ⟨l.commandsFile, dirs⟩ tree').registry = (l.source tree).registry := by
  refine registry_congr (fun s => ?_) ?_ fun id => ?_
  · simp only [snapshot_eq_ok_iff, h.hasSnapshot_iff]
  · simp only [h.isListable_iff, hdirs]
  · simp only [h.declares_iff, hdirs]

/-- The listing with some of its paths only. -/
def only (l : Listing) (keepsFile keepsDir : String → Bool) : Listing :=
  ⟨l.commandsFile.filter keepsFile, l.extensionsDirs.filter keepsDir⟩

/-- What cannot be read may be left out. -/
theorem registry_only {keepsFile keepsDir : String → Bool}
    (hfile : ∀ path ∈ l.commandsFile, ∀ s, tree.HasSnapshot path s → keepsFile path = true)
    (hdirs : ∀ dir ∈ l.extensionsDirs, tree.IsListable dir → keepsDir dir = true) :
    ((l.only keepsFile keepsDir).source tree).registry = (l.source tree).registry := by
  have hkept : ∀ (given : String → Prop), (∀ dir, given dir → tree.IsListable dir) →
      ((∃ dir ∈ (l.only keepsFile keepsDir).extensionsDirs, given dir) ↔
        ∃ dir ∈ l.extensionsDirs, given dir) := by
    intro given hgiven
    refine exists_congr fun dir => and_congr_left fun h => ?_
    rw [only, List.mem_filter]
    exact and_iff_left_of_imp fun hdir => hdirs dir hdir (hgiven dir h)
  refine registry_congr (fun s => ?_) (hkept _ fun _ h => h)
    fun id => hkept _ fun _ h => h.isListable
  rw [snapshot_eq_ok_iff, snapshot_eq_ok_iff]
  refine exists_congr fun path => and_congr_left fun h => ?_
  rw [only, Option.mem_filter_iff]
  exact and_iff_left_of_imp fun hpath => hfile path hpath s h

/-- A broken extension makes no difference to what is read past its directory. -/
theorem registry_without {here : Place} {name : Text}
    (hbroken : ∀ dir ∈ l.extensionsDirs, tree.locate dir.toList = .ok here →
      tree.IsBroken dir name)
    (hfile : ∀ path ∈ l.commandsFile, ∀ s, tree.HasSnapshot path s →
      ¬ tree.LeadsThrough (here ++ [name]) path)
    (hdirs : ∀ dir ∈ l.extensionsDirs, tree.IsListable dir →
      ¬ tree.LeadsThrough (here ++ [name]) dir)
    (hpackages : ∀ dir ∈ l.extensionsDirs, ∀ name' package id,
      tree.HasPackage dir name' package → package.Declares id →
        (tree.locate dir.toList = .ok here → name' ≠ name) →
          ¬ tree.LeadsThrough (here ++ [name]) (FileTree.packagePath dir name')) :
    (l.source (tree.without (here ++ [name]))).registry = (l.source tree).registry := by
  have hp : here ++ [name] ≠ [] := by simp
  refine registry_congr (fun s => ?_) ?_ fun id => ?_
  · rw [snapshot_eq_ok_iff, snapshot_eq_ok_iff]
    refine exists_congr fun path => and_congr_right fun hpath => ?_
    rw [FileTree.hasSnapshot_without hp]
    exact and_iff_right_of_imp (hfile path hpath s)
  · refine exists_congr fun dir => and_congr_right fun hdir => ?_
    rw [FileTree.isListable_without hp]
    exact and_iff_right_of_imp (hdirs dir hdir)
  · refine exists_congr fun dir => and_congr_right fun hdir => ?_
    refine exists_congr fun name' => exists_congr fun package => and_congr_left fun hdeclares => ?_
    rw [FileTree.hasPackage_without hp]
    refine and_iff_right_of_imp fun hpackage => ?_
    exact FileTree.isPast_of_isBroken (hbroken dir hdir) hpackage hdeclares
      (hdirs dir hdir hpackage.isListable) (hpackages dir hdir name' package id hpackage hdeclares)

/-- A registry is the union of what the commands file and the directories give, each on its own, in
whatever order they are configured and enumerated; it is missing only if none of them can be read.
What cannot be read may be left out.  When a part of the tree goes, what is read along paths that
lead past it stays, and nothing else.  A broken extension therefore makes no difference, unless
something else is read along a path through its directory. -/
theorem registry_isolated (l : Listing) (tree : FileTree) :
    (∀ r, (l.source tree).registry = .ok r →
      (∀ id, r.contains id ↔ id ≠ "" ∧
        ((∃ path ∈ l.commandsFile, ∃ s, tree.HasSnapshot path s ∧ (id ∈ s.active ∨ id ∈ s.all)) ∨
          ∃ dir ∈ l.extensionsDirs, tree.Declares dir id)) ∧
      (r.hostListed ↔ ∃ path ∈ l.commandsFile, ∃ s, tree.HasSnapshot path s)) ∧
    (∀ e, (l.source tree).registry = .error e ↔
      ((∀ path ∈ l.commandsFile, ∀ s, ¬ tree.HasSnapshot path s) ∧
        ∀ dir ∈ l.extensionsDirs, ¬ tree.IsListable dir) ∧ e = .noSources) ∧
    (∀ tree' dirs, tree.SameNodes tree' → (∀ dir, dir ∈ dirs ↔ dir ∈ l.extensionsDirs) →
      (Listing.source ⟨l.commandsFile, dirs⟩ tree').registry = (l.source tree).registry) ∧
    (∀ keepsFile keepsDir : String → Bool,
      (∀ path ∈ l.commandsFile, ∀ s, tree.HasSnapshot path s → keepsFile path = true) →
        (∀ dir ∈ l.extensionsDirs, tree.IsListable dir → keepsDir dir = true) →
          ((l.only keepsFile keepsDir).source tree).registry = (l.source tree).registry) ∧
    (∀ p tree', p ≠ [] → (tree.without p).SameNodes tree' →
      (∀ path s, tree'.HasSnapshot path s ↔
        ¬ tree.LeadsThrough p path ∧ tree.HasSnapshot path s) ∧
      (∀ dir, tree'.IsListable dir ↔ ¬ tree.LeadsThrough p dir ∧ tree.IsListable dir) ∧
      ∀ dir name package, tree'.HasPackage dir name package ↔
        tree.IsPast p dir name ∧ tree.HasPackage dir name package) ∧
    ∀ here name tree', (tree.without (here ++ [name])).SameNodes tree' →
      (∀ dir ∈ l.extensionsDirs, tree.locate dir.toList = .ok here → tree.IsBroken dir name) →
      (∀ path ∈ l.commandsFile, ∀ s, tree.HasSnapshot path s →
        ¬ tree.LeadsThrough (here ++ [name]) path) →
      (∀ dir ∈ l.extensionsDirs, tree.IsListable dir →
        ¬ tree.LeadsThrough (here ++ [name]) dir) →
      (∀ dir ∈ l.extensionsDirs, ∀ name' package id,
        tree.HasPackage dir name' package → package.Declares id →
          (tree.locate dir.toList = .ok here → name' ≠ name) →
            ¬ tree.LeadsThrough (here ++ [name]) (FileTree.packagePath dir name')) →
        (l.source tree').registry = (l.source tree).registry := by
  refine ⟨fun r hr => ⟨fun id => ?_, ?_⟩, fun e => ?_,
    fun tree' dirs htree hdirs => registry_sameNodes htree hdirs,
    fun keepsFile keepsDir hfile hdirs => registry_only hfile hdirs,
    fun p tree' hp htree => ⟨fun path s => ?_, fun dir => ?_, fun dir name package => ?_⟩,
    fun here name tree' htree hbroken hfile hdirs hpackages => ?_⟩
  · rw [Registry.contains_iff, Source.mem_ids_registry hr]
    exact and_congr_right fun hid => (lists_source hid).trans (or_congr_left exists_snapshot_iff)
  · rw [Source.hostListed_registry hr, exists_active_iff, exists_all_iff, or_self]
    exact exists_isSnapshot_iff
  · rw [Source.registry_eq_error_iff, isReadable_source, exists_isSnapshot_iff]
    simp only [not_or, not_exists, not_and]
  · rw [htree.hasSnapshot_iff, FileTree.hasSnapshot_without hp]
  · rw [htree.isListable_iff, FileTree.isListable_without hp]
  · rw [htree.hasPackage_iff, FileTree.hasPackage_without hp]
  · exact (registry_sameNodes htree fun _ => Iff.rfl).trans
      (registry_without hbroken hfile hdirs hpackages)

def placeOf (names : List String) : Place :=
  names.map String.toList

def declaring : Text :=
  "\x7b\"contributes\": \x7b\"commands\": \x7b\"command\": \"b\"\x7d\x7d\x7d".toList

/-- A commands file, an extension whose package is cut short, and a link to one that declares a
command. -/
def installed : FileTree :=
  ((((FileTree.empty []).addFile (placeOf ["commands.json"]) (.text "[\"a\"]".toList)).addFile
    (placeOf ["ext", "cut", "package.json"]) (.text "\x7b".toList)).addFile
    (placeOf ["shared", "package.json"]) (.text declaring)).set
    (placeOf ["ext", "tool"]) (.link "../shared".toList)

theorem registry_isolated_installed :
    let l : Listing := ⟨some "commands.json", ["ext", "absent"]⟩
    (l.source installed).registry = .ok ⟨["a", "b"], true⟩ ∧
    (∃ path ∈ l.commandsFile, ∃ s, installed.HasSnapshot path s) ∧
    (Listing.source ⟨some "commands.json", ["absent", "ext", "ext"]⟩
      { installed with nodes := installed.nodes.reverse }).registry = .ok ⟨["a", "b"], true⟩ ∧
    (Listing.source ⟨some "commands.json", ["ext"]⟩ installed).registry =
      .ok ⟨["a", "b"], true⟩ ∧
    (∀ package, ¬ (installed.without (placeOf ["shared"])).HasPackage "ext" "tool".toList package) ∧
    (l.source (installed.without (placeOf ["ext", "cut"]))).registry =
      .ok ⟨["a", "b"], true⟩ := by
  intro l
  have hr : (l.source installed).registry = .ok ⟨["a", "b"], true⟩ := by decide +kernel
  have hreverse : installed.SameNodes { installed with nodes := installed.nodes.reverse } :=
    FileTree.sameNodes_of_perm (List.reverse_perm _).symm (by decide +kernel)
  have hlistable : ∀ dir ∈ l.extensionsDirs, installed.IsListable dir → decide (dir = "ext") := by
    rintro dir hdir ⟨names, hnames⟩
    rcases List.mem_pair.mp hdir with rfl | rfl
    · rfl
    · cases hnames
  have hext : installed.list "ext" = .ok ["cut".toList, "tool".toList] := by decide +kernel
  have hlocate : installed.locate "ext".toList = .ok (placeOf ["ext"]) := by decide +kernel
  obtain ⟨hunion, -, horder, honly, hpast, hbroken⟩ := registry_isolated l installed
  refine ⟨hr, (hunion _ hr).2.mp rfl, ?_, ?_, fun package hpackage => ?_, ?_⟩
  · exact (horder _ ["absent", "ext", "ext"] hreverse (by simp [l, or_comm])).trans hr
  · exact (honly (fun _ => true) (fun dir => dir = "ext") (fun _ _ _ _ => rfl) hlistable).trans hr
  · -- the package file is found by way of the link
    have hthrough : installed.LeadsThrough (placeOf ["shared"])
        (FileTree.packagePath "ext" "tool".toList) := by decide +kernel
    obtain ⟨-, -, hpackages⟩ := hpast (placeOf ["shared"]) _ (by decide) ⟨rfl, fun _ => rfl⟩
    exact ((hpackages _ _ _).mp hpackage).1.package hthrough
  · refine (hbroken (placeOf ["ext"]) "cut".toList _ ⟨rfl, fun _ => rfl⟩ ?_ ?_ ?_ ?_).trans hr
    · rintro dir hdir hhere
      rcases List.mem_pair.mp hdir with rfl | rfl
      · exact .notJson (t := ['\x7b']) (by decide +kernel) rfl
      · cases hhere
    · rintro path ⟨⟩ s -
      decide +kernel
    · rintro dir hdir -
      rcases List.mem_pair.mp hdir with rfl | rfl <;> decide +kernel
    · rintro dir hdir name package id ⟨hnames, hname, -, -⟩ - hother
      obtain rfl := of_decide_eq_true (hlistable dir hdir ⟨_, hnames⟩)
      cases hext.symm.trans hnames
      rcases List.mem_pair.mp hname with rfl | rfl
      · exact absurd rfl (hother hlocate)
      · decide +kernel

/-- A commands file that is kept next to the extensions, in a directory without a package. -/
def exported : FileTree :=
  (FileTree.empty []).addFile (placeOf ["ext", "export", "commands.json"]) (.text "[\"a\"]".toList)

/-- An extension that is a link into another directory, which has no package itself. -/
def linked : FileTree :=
  ((FileTree.empty []).addFile (placeOf ["ext", "mono", "pkg", "package.json"])
    (.text declaring)).set (placeOf ["ext", "tool"]) (.link "mono/pkg".toList)

/-- What is read through a directory goes with it, also where the directory is no extension. -/
theorem registry_without_passed :
    (exported.locate "ext".toList = .ok (placeOf ["ext"]) ∧
      exported.node? (placeOf ["ext", "export"]) = some .directory ∧
      exported.IsBroken "ext" "export".toList ∧
      (Listing.source ⟨some "ext/export/commands.json", ["ext"]⟩ exported).registry =
        .ok ⟨["a"], true⟩ ∧
      (Listing.source ⟨some "ext/export/commands.json", ["ext"]⟩
        (exported.without (placeOf ["ext", "export"]))).registry = .ok ⟨[], false⟩) ∧
    linked.locate "ext".toList = .ok (placeOf ["ext"]) ∧
      linked.node? (placeOf ["ext", "mono"]) = some .directory ∧
      linked.IsBroken "ext" "mono".toList ∧
      (Listing.source ⟨none, ["ext"]⟩ linked).registry = .ok ⟨["b"], false⟩ ∧
      (Listing.source ⟨none, ["ext"]⟩ (linked.without (placeOf ["ext", "mono"]))).registry =
        .ok ⟨[], false⟩ := by
  have hexport : exported.look (FileTree.packagePath "ext" "export".toList) = .error .notFound := by
    decide +kernel
  have hmono : linked.look (FileTree.packagePath "ext" "mono".toList) = .error .notFound := by
    decide +kernel
  refine ⟨⟨?_, rfl, .missing hexport, ?_, ?_⟩, ?_, rfl, .missing hmono, ?_, ?_⟩ <;>
    decide +kernel

end Listing

end Keybindings
