import Keybindings.Files.Editor
import Keybindings.Proofs.Entry
import Keybindings.Proofs.Text.Offsets

/-!
Where paths lead to, and what writing a file changes.

A walk depends only on what is found at the places that it passes (`FileTree.walk_congr`).  A write
sets what is found at the one place that its path leads to and leaves every other place as
it was (`FileTree.node?_set_of_ne`).  Staged edits do not touch the files, and saving writes at
most the file of the editor, and not in a dry run (`FileEditor.save_cases`).
-/

namespace Keybindings

namespace FileTree

variable {tree tree' : FileTree} {p q here : Place} {n : FileNode} {path : String} {t : Text}
  {ss : List Text}

theorem find?_setNode_self (p : Place) (n : FileNode) (nodes : List (Place × FileNode)) :
    (setNode p n nodes).find? (·.1 = p) = some (p, n) := by
  induction nodes with
  | nil => simp [setNode]
  | cons m nodes ih =>
      by_cases hm : m.1 = p
      · simp [setNode, hm]
      · simp [setNode, hm, ih]

theorem find?_setNode_of_ne (h : q ≠ p) (n : FileNode) (nodes : List (Place × FileNode)) :
    (setNode p n nodes).find? (·.1 = q) = nodes.find? (·.1 = q) := by
  induction nodes with
  | nil => simp [setNode, h.symm]
  | cons m nodes ih =>
      by_cases hm : m.1 = p
      · simp [setNode, hm, h.symm]
      · rw [setNode, if_neg hm, List.find?_cons, List.find?_cons, ih]

theorem node?_set_self (h : p ≠ []) (tree : FileTree) (n : FileNode) :
    (tree.set p n).node? p = some n := by
  rw [node?, if_neg h, set, find?_setNode_self]
  rfl

theorem node?_set_of_ne (h : q ≠ p) (tree : FileTree) (n : FileNode) :
    (tree.set p n).node? q = tree.node? q := by
  rw [node?, node?, set, find?_setNode_of_ne h]

theorem look_eq_ok_iff : tree.look path = .ok n ↔
    ∃ p, tree.locate path.toList = .ok p ∧ tree.node? p = some n := by
  rw [look, bind_eq_ok_iff]
  refine exists_congr fun p => and_congr_right fun _ => ?_
  cases tree.node? p with
  | none => exact ⟨nofun, nofun⟩
  | some m => refine ⟨fun h => ?_, fun h => ?_⟩ <;> cases h <;> rfl

theorem readText_eq_ok_iff : tree.readText path = .ok t ↔
    ∃ p, tree.locate path.toList = .ok p ∧ tree.node? p = some (.file (.text t)) := by
  rw [← look_eq_ok_iff, readText]
  cases tree.look path with
  | error e => exact ⟨nofun, nofun⟩
  | ok n =>
      match n with
      | .directory => exact ⟨nofun, nofun⟩
      | .link _ => exact ⟨nofun, nofun⟩
      | .file (.bytes _) => exact ⟨nofun, nofun⟩
      | .file (.text t') =>
          refine ⟨fun h => ?_, fun h => ?_⟩ <;> cases h <;> rfl

/-! ### Walks

A walk hands over at a link.  What is said of walks is therefore first said for any `follow` that
they hand over to, by induction on the segments, and then for `walk` itself, by induction on the
links that may still be followed. -/

section Walks

variable {follow follow' : Place → List Text → Except FileError Place}
  {passed passed' : Place → List Text → List Place} {s target : Text} {links : Nat}

theorem walkWith_link (h : tree.node? here = some (.link target)) : tree.walkWith follow here ss =
    follow (startAt here.dropLast target) (Path.segments target ++ ss) := by
  cases ss <;> simp [walkWith, h]

theorem walkWith_directory (h : tree.node? here = some .directory) :
    tree.walkWith follow here (s :: ss) =
      if maxName < Text.size s then .error .nameTooLong
      else tree.walkWith follow (enter here s) ss := by
  rw [walkWith, h]

theorem walkWith_nil_eq_ok_iff : tree.walkWith follow here [] = .ok p ↔
    (∃ target, tree.node? here = some (.link target) ∧
      follow (startAt here.dropLast target) (Path.segments target) = .ok p) ∨
    (∀ target, tree.node? here ≠ some (.link target)) ∧ here = p := by
  rcases hnode : tree.node? here with _ | (_ | c | target) <;> simp [walkWith, hnode]

/-- A walk goes on along a link or out of a directory. -/
theorem walkWith_cons_eq_ok_iff : tree.walkWith follow here (s :: ss) = .ok p ↔
    (∃ target, tree.node? here = some (.link target) ∧
      follow (startAt here.dropLast target) (Path.segments target ++ s :: ss) = .ok p) ∨
    tree.node? here = some .directory ∧ ¬ maxName < Text.size s ∧
      tree.walkWith follow (enter here s) ss = .ok p := by
  rcases hnode : tree.node? here with _ | (_ | c | target)
  · simp [walkWith, hnode]
  · by_cases hsize : maxName < Text.size s <;> simp [walkWith, hnode, hsize]
  · simp [walkWith, hnode]
  · simp [walkWith, hnode]

theorem walkWith_mono (hfollow : ∀ here ss, follow here ss = .ok p → follow' here ss = .ok p)
    (h : tree.walkWith follow here ss = .ok p) : tree.walkWith follow' here ss = .ok p := by
  induction ss generalizing here with
  | nil =>
      rw [walkWith_nil_eq_ok_iff] at h ⊢
      exact h.imp_left fun ⟨target, hlink, h⟩ => ⟨target, hlink, hfollow _ _ h⟩
  | cons s ss ih =>
      rw [walkWith_cons_eq_ok_iff] at h ⊢
      exact h.imp (fun ⟨target, hlink, h⟩ => ⟨target, hlink, hfollow _ _ h⟩)
        fun ⟨hdirectory, hsize, h⟩ => ⟨hdirectory, hsize, ih h⟩

theorem walk_of_walkForWriting (h : tree.walkForWriting links here ss = .ok p) :
    tree.walk links here ss = .ok p := by
  induction links generalizing here ss with
  | zero =>
      rw [walkForWriting] at h
      split at h
      · obtain ⟨_, -, h⟩ := bind_eq_ok_iff.mp h
        cases h
      · exact h
  | succ links ih =>
      rw [walkForWriting] at h
      split at h
      · obtain ⟨_, -, h⟩ := bind_eq_ok_iff.mp h
        cases h
      · exact walkWith_mono (fun _ _ => ih) h

/-- The places passed from `here` along the given segments, with the one that they lead to as the
last. -/
def routeWith (tree : FileTree) (follow : Place → List Text → List Place) (here : Place) :
    List Text → List Place
  | [] =>
    match tree.node? here with
    | some (.link target) => here :: follow (startAt here.dropLast target) (Path.segments target)
    | _ => [here]
  | s :: ss =>
    match tree.node? here with
    | some (.link target) =>
      here :: follow (startAt here.dropLast target) (Path.segments target ++ s :: ss)
    | some .directory => here :: routeWith tree follow (enter here s) ss
    | _ => [here]

def routeFrom (tree : FileTree) : Nat → Place → List Text → List Place
  | 0 => tree.routeWith fun _ _ => []
  | links + 1 => tree.routeWith (tree.routeFrom links)

/-- The same is found at a place of two trees, apart from the content of a file. -/
def IsAlikeAt (tree tree' : FileTree) (q : Place) : Prop :=
  tree'.node? q = tree.node? q ∨
    ∃ c c', tree.node? q = some (.file c) ∧ tree'.node? q = some (.file c')

theorem routeWith_link (h : tree.node? here = some (.link target)) : tree.routeWith passed here ss =
    here :: passed (startAt here.dropLast target) (Path.segments target ++ ss) := by
  cases ss <;> simp [routeWith, h]

theorem routeWith_nil (h : ∀ target, tree.node? here ≠ some (.link target)) :
    tree.routeWith passed here [] = [here] := by
  rw [routeWith]
  split
  · next target hlink => exact absurd hlink (h target)
  · rfl

theorem routeWith_directory (h : tree.node? here = some .directory) :
    tree.routeWith passed here (s :: ss) = here :: tree.routeWith passed (enter here s) ss := by
  rw [routeWith, h]

theorem here_mem_routeWith (tree : FileTree) (passed : Place → List Text → List Place)
    (here : Place) (ss : List Text) : here ∈ tree.routeWith passed here ss := by
  cases ss <;> rw [routeWith] <;> split <;> exact List.mem_cons_self

/-- If `follow` and `passed` depend only on the places passed, the walk and its route do too. -/
theorem walkWith_congr
    (hfollow : ∀ here ss, (∀ q ∈ passed here ss, tree.IsAlikeAt tree' q) →
      follow' here ss = follow here ss ∧ passed' here ss = passed here ss)
    (h : ∀ q ∈ tree.routeWith passed here ss, tree.IsAlikeAt tree' q) :
    tree'.walkWith follow' here ss = tree.walkWith follow here ss ∧
      tree'.routeWith passed' here ss = tree.routeWith passed here ss := by
  have hlinked : ∀ {here ss target}, tree.node? here = some (.link target) →
      (∀ q ∈ tree.routeWith passed here ss, tree.IsAlikeAt tree' q) →
        tree'.node? here = tree.node? here →
          tree'.walkWith follow' here ss = tree.walkWith follow here ss ∧
            tree'.routeWith passed' here ss = tree.routeWith passed here ss := by
    intro here ss target hlink h hhere
    rw [routeWith_link hlink] at h
    obtain ⟨hwalk, hroute⟩ := hfollow _ _ fun q hq => h q (List.mem_cons_of_mem _ hq)
    rw [walkWith_link hlink, routeWith_link hlink, walkWith_link (hhere.trans hlink),
      routeWith_link (hhere.trans hlink), hwalk, hroute]
    exact ⟨rfl, rfl⟩
  have hhere := h here (tree.here_mem_routeWith passed here ss)
  induction ss generalizing here with
  | nil =>
      rcases hhere with hhere | ⟨c, c', hc, hc'⟩
      · rcases hnode : tree.node? here with _ | (_ | c | target)
        · simp [walkWith, routeWith, hhere, hnode]
        · simp [walkWith, routeWith, hhere, hnode]
        · simp [walkWith, routeWith, hhere, hnode]
        · exact hlinked hnode h hhere
      · simp [walkWith, routeWith, hc, hc']
  | cons s ss ih =>
      rcases hhere with hhere | ⟨c, c', hc, hc'⟩
      · rcases hnode : tree.node? here with _ | (_ | c | target)
        · simp [walkWith, routeWith, hhere, hnode]
        · have hleft := hhere.trans hnode
          rw [routeWith_directory hnode] at h
          have hrest : ∀ q ∈ tree.routeWith passed (enter here s) ss, tree.IsAlikeAt tree' q :=
            fun q hq => h q (List.mem_cons_of_mem _ hq)
          obtain ⟨hwalk, hroute⟩ := ih hrest (hrest _ (tree.here_mem_routeWith _ _ _))
          rw [walkWith_directory hnode, walkWith_directory hleft, routeWith_directory hnode,
            routeWith_directory hleft, hwalk, hroute]
          exact ⟨rfl, rfl⟩
        · simp [walkWith, routeWith, hhere, hnode]
        · exact hlinked hnode h hhere
      · simp [walkWith, routeWith, hc, hc']

/-- A walk depends only on what is found on the way, and not on the content of files. -/
theorem walk_congr
    (h : ∀ q ∈ tree.routeFrom links here ss, tree.IsAlikeAt tree' q) :
    tree'.walk links here ss = tree.walk links here ss ∧
      tree'.routeFrom links here ss = tree.routeFrom links here ss := by
  induction links generalizing here ss with
  | zero => exact walkWith_congr (fun _ _ _ => ⟨rfl, rfl⟩) h
  | succ links ih => exact walkWith_congr (fun _ _ => ih) h

end Walks

/-! ### Writing -/

/-- A path that can be written to leads to the same place for reading. -/
theorem locate_of_locateForWriting {path : Text} (h : tree.locateForWriting path = .ok p) :
    tree.locate path = .ok p := by
  obtain ⟨ss, hss, h⟩ := bind_eq_ok_iff.mp h
  exact bind_eq_ok_iff.mpr ⟨ss, hss, walk_of_walkForWriting h⟩

theorem writeText_eq_ok (h : tree.writeText path t = .ok tree') :
    ∃ p, tree.locate path.toList = .ok p ∧ tree' = tree.set p (.file (.text t)) := by
  obtain ⟨p, hp, h⟩ := bind_eq_ok_iff.mp h
  refine ⟨p, locate_of_locateForWriting hp, ?_⟩
  split at h
  · cases h
  · split at h <;> cases h
    rfl

/-- Writing a file that can be read changes the file and nothing else. -/
theorem node?_writeText {t₀ : Text} (hread : tree.readText path = .ok t₀)
    (h : tree.writeText path t = .ok tree') (q : Place) :
    tree'.node? q = tree.node? q ∨ tree.locate path.toList = .ok q ∧
      tree.node? q = some (.file (.text t₀)) ∧ tree'.node? q = some (.file (.text t)) := by
  obtain ⟨p, hp, hnode⟩ := readText_eq_ok_iff.mp hread
  obtain ⟨p', hp', rfl⟩ := writeText_eq_ok h
  obtain rfl : p = p' := Except.ok.inj (hp.symm.trans hp')
  by_cases hq : q = p
  · subst hq
    have hroot : q ≠ [] := by
      rintro rfl
      cases hnode
    exact .inr ⟨hp, hnode, node?_set_self hroot tree _⟩
  · exact .inl (node?_set_of_ne hq tree _)

/-- New content of a file does not change where paths lead to. -/
theorem walk_set_file {c c' : Content} (hp : tree.node? p = some (.file c)) (links : Nat)
    (here : Place) (ss : List Text) :
    (tree.set p (.file c')).walk links here ss = tree.walk links here ss := by
  have hroot : p ≠ [] := by
    rintro rfl
    cases hp
  refine And.left (walk_congr fun q _ => ?_)
  by_cases hq : q = p
  · subst hq
    exact .inr ⟨c, c', hp, node?_set_self hroot tree _⟩
  · exact .inl (node?_set_of_ne hq tree _)

/-- A text that was written is read. -/
theorem readText_writeText {t₀ : Text} (hread : tree.readText path = .ok t₀)
    (h : tree.writeText path t = .ok tree') : tree'.readText path = .ok t := by
  obtain ⟨p, hp, hnode⟩ := readText_eq_ok_iff.mp hread
  obtain ⟨p', hp', rfl⟩ := writeText_eq_ok h
  obtain rfl : p = p' := Except.ok.inj (hp.symm.trans hp')
  have hroot : p ≠ [] := by
    rintro rfl
    cases hnode
  refine readText_eq_ok_iff.mpr ⟨p, ?_, node?_set_self hroot tree _⟩
  rw [← hp, locate, locate]
  simp only [walk_set_file hnode]
  rfl

/-- The permissions to write do not matter to reading. -/
theorem readText_readOnly (tree : FileTree) (places : List Place) (path : String) :
    ({ tree with readOnly := places } : FileTree).readText path = tree.readText path := by
  have hwalk : ∀ links here ss,
      ({ tree with readOnly := places } : FileTree).walk links here ss = tree.walk links here ss :=
    fun _ _ _ => And.left (walk_congr fun _ _ => .inl rfl)
  simp only [readText, look, locate, hwalk]
  rfl

/-- The file that a path leads to can be written, whatever the text. -/
def IsWritable (tree : FileTree) (path : String) : Prop :=
  ∀ t, ∃ tree', tree.writeText path t = .ok tree'

end FileTree

namespace FileEditor

variable (ed : FileEditor) (s : Staged) (uri : String)

theorem tree_apply (e : Edit) : (ed.apply s uri e).2.tree = s.tree := by
  rw [apply]
  split
  · split <;> rfl
  · rfl

/-- A new text for the whole document is staged as it is. -/
theorem apply_whole (t : Text) :
    ed.apply s ed.uri ⟨.whole s.text, t⟩ = (true, { s with text := t, dirty := true }) := by
  rw [apply, if_pos rfl, Edit.apply_whole]

theorem apply_whole_cases (t : Text) :
    ed.apply s uri ⟨.whole s.text, t⟩ = (false, s) ∨
      ed.apply s uri ⟨.whole s.text, t⟩ = (true, { s with text := t, dirty := true }) := by
  by_cases huri : uri = ed.uri
  · subst huri
    exact .inr (ed.apply_whole s t)
  · exact .inl (if_neg huri)

/-- Saving writes the file if there is something to write and it may be written, and otherwise
changes nothing. -/
theorem save_cases : (ed.save s uri).2.tree = s.tree ∨ (ed.save s uri).1 = .ok () ∧
    ed.dryRun = false ∧ s.tree.writeText ed.path s.text = .ok (ed.save s uri).2.tree := by
  by_cases huri : uri = ed.uri
  · by_cases hskip : (!s.dirty || ed.dryRun) = true
    · rw [save, if_pos huri, if_pos hskip]
      exact .inl rfl
    · rw [save, if_pos huri, if_neg hskip]
      cases hwrite : s.tree.writeText ed.path s.text with
      | error e => exact .inl rfl
      | ok tree =>
          simp only [Bool.or_eq_true, not_or, Bool.not_eq_true] at hskip
          exact .inr ⟨rfl, hskip.2, rfl⟩
  · rw [save, if_neg huri]
    exact .inl rfl

variable {ed s}

theorem dirty_apply {uri : String} {s' : Staged} {e : Edit} (h : ed.apply s uri e = (true, s')) :
    s'.dirty = true := by
  rw [apply] at h
  split at h
  · split at h <;> cases h
    rfl
  · cases h

theorem save_of_dryRun (h : ed.dryRun = true) (s : Staged) : ed.save s ed.uri = (.ok (), s) := by
  rw [save, if_pos rfl, h, Bool.or_true, if_pos rfl]

theorem save_of_dirty (h : ed.dryRun = false) (hs : s.dirty = true) : ed.save s ed.uri =
    match s.tree.writeText ed.path s.text with
    | .ok tree => (.ok (), { s with dirty := false, tree := tree })
    | .error e => (.error (.saveFailed ed.uri e.message), s) := by
  rw [save, if_pos rfl, h, hs]
  rfl

end FileEditor

end Keybindings
