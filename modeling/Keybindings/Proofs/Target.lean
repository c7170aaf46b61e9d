import Keybindings.Target
import Keybindings.Proofs.Text.Case
import Mathlib.Data.List.Forall2

/-!
Which paths are taken for the same file.

What is compared of a path is the list of names that its segments lead to (`Target.resolve`), each
in lower case.  Everything that leaves the list as it is, such as a detour, makes no difference.
-/

namespace Keybindings

/-! ### Segments -/

namespace Text

theorem pieces_eq_splitOn (separator : Char) (t : Text) :
    pieces separator t = t.splitOn separator := by
  induction t with
  | nil => rw [pieces, List.splitOn_nil]
  | cons c t ih =>
      rw [pieces, List.splitOn_cons_eq_if_modifyHead, ih]
      by_cases hc : c = separator
      · rw [if_pos hc, if_pos (beq_iff_eq.mpr hc)]
      · rw [if_neg hc, if_neg (by rwa [beq_iff_eq])]
        cases hrest : t.splitOn separator with
        | nil => exact absurd hrest (List.splitOn_ne_nil separator t)
        | cons p ps => rw [List.modifyHead_cons]

theorem of_mem_splitOn {separator : Char} {t s : Text} (h : s ∈ t.splitOn separator) :
    separator ∉ s ∧ ∀ c ∈ s, c ∈ t := by
  induction t generalizing s with
  | nil =>
      rw [List.splitOn_nil, List.mem_singleton] at h
      simp [h]
  | cons c t ih =>
      rw [List.splitOn_cons_eq_if_modifyHead] at h
      by_cases hc : c = separator
      · rw [if_pos (beq_iff_eq.mpr hc), List.mem_cons] at h
        rcases h with rfl | h
        · simp
        · exact ⟨(ih h).1, fun d hd => List.mem_cons_of_mem c ((ih h).2 d hd)⟩
      · rw [if_neg (by rwa [beq_iff_eq])] at h
        cases hrest : t.splitOn separator with
        | nil => exact absurd hrest (List.splitOn_ne_nil separator t)
        | cons p ps =>
            rw [hrest] at ih h
            rw [List.modifyHead_cons, List.mem_cons] at h
            rcases h with rfl | h
            · obtain ⟨hsep, hmem⟩ := ih List.mem_cons_self
              refine ⟨?_, ?_⟩
              · rw [List.mem_cons, not_or]
                exact ⟨Ne.symm hc, hsep⟩
              · exact fun d hd => (List.mem_cons.mp hd).elim (fun heq => heq ▸ List.mem_cons_self)
                  fun hd => List.mem_cons_of_mem c (hmem d hd)
            · obtain ⟨hsep, hmem⟩ := ih (List.mem_cons_of_mem p h)
              exact ⟨hsep, fun d hd => List.mem_cons_of_mem c (hmem d hd)⟩

theorem of_mem_intercalate {separator c : Char} {ss : List Text}
    (h : c ∈ List.intercalate [separator] ss) : c = separator ∨ ∃ s ∈ ss, c ∈ s := by
  induction ss with
  | nil => exact absurd h List.not_mem_nil
  | cons s ss ih =>
      cases ss with
      | nil =>
          rw [List.intercalate_singleton] at h
          exact .inr ⟨s, List.mem_cons_self, h⟩
      | cons s' ss =>
          rw [List.intercalate_cons_cons, List.mem_append, List.mem_append, List.mem_singleton] at h
          rcases h with (hs | hsep) | hrest
          · exact .inr ⟨s, List.mem_cons_self, hs⟩
          · exact .inl hsep
          · exact (ih hrest).imp id fun ⟨s, hmem, hc⟩ => ⟨s, List.mem_cons_of_mem _ hmem, hc⟩

/-- Texts without separator that are not empty can be told from what is between them. -/
theorem intercalate_inj {separator : Char} {ss ss' : List Text}
    (hs : ∀ s ∈ ss, s ≠ [] ∧ separator ∉ s) (hs' : ∀ s ∈ ss', s ≠ [] ∧ separator ∉ s)
    (h : List.intercalate [separator] ss = List.intercalate [separator] ss') : ss = ss' := by
  have hne : ∀ {ss : List Text}, (∀ s ∈ ss, s ≠ [] ∧ separator ∉ s) →
      List.intercalate [separator] ss = [] → ss = [] := by
    intro ss hs hnil
    cases ss with
    | nil => rfl
    | cons s ss =>
        have hsne := (hs s List.mem_cons_self).1
        cases ss with
        | nil =>
            rw [List.intercalate_singleton] at hnil
            exact absurd hnil hsne
        | cons s' ss =>
            rw [List.intercalate_cons_cons, List.append_eq_nil_iff, List.append_eq_nil_iff] at hnil
            exact absurd hnil.1.1 hsne
  by_cases hnil : ss = []
  · rw [hnil, List.intercalate_nil] at h
    rw [hnil, hne hs' h.symm]
  · have hnil' : ss' ≠ [] := by
      rintro rfl
      rw [List.intercalate_nil] at h
      exact hnil (hne hs h)
    rw [← List.splitOn_intercalate separator (fun s hmem => (hs s hmem).2) hnil, h,
      List.splitOn_intercalate separator (fun s hmem => (hs' s hmem).2) hnil']

theorem splitOn_map_toLower (t : Text) :
    (t.map Char.toLower).splitOn '/' = (t.splitOn '/').map (List.map Char.toLower) := by
  induction t with
  | nil => rfl
  | cons c t ih =>
      have hslash : c.toLower = '/' ↔ c = '/' := toLower_iff (· = '/') (by decide +kernel) c
      rw [List.map_cons, List.splitOn_cons_eq_if_modifyHead, List.splitOn_cons_eq_if_modifyHead, ih]
      by_cases hc : c = '/'
      · rw [if_pos (by rw [beq_iff_eq, hslash, hc]), if_pos (by rw [beq_iff_eq, hc])]
        rfl
      · rw [if_neg (by rwa [beq_iff_eq, hslash]), if_neg (by rwa [beq_iff_eq])]
        cases t.splitOn '/' with
        | nil => rfl
        | cons p ps => rfl

end Text

namespace Target

/-- One more segment on the names that lead to a place, the last name first. -/
def settle (names : List Text) (s : Text) : List Text :=
  if s = [] ∨ s = ['.'] then names
  else if s = ['.', '.'] then names.tail
  else s :: names

/-- The names that the segments of a text lead to from a place. -/
def settleAll (names : List Text) (t : Text) : List Text :=
  (t.splitOn '/').foldl settle names

/-- A path as seen from the root. -/
def absolute (dir p : Text) : Text :=
  if (unifySlashes p).head? = some '/' then unifySlashes p else dir ++ '/' :: unifySlashes p

/-- The names on the way from the root to where a path leads. -/
def resolve (dir p : Text) : List Text :=
  (settleAll [] (absolute dir p)).reverse

@[simp] theorem settle_nil (names : List Text) : settle names [] = names :=
  rfl

@[simp] theorem settle_dot (names : List Text) : settle names ['.'] = names :=
  rfl

theorem settleAll_append_slash (names : List Text) (t rest : Text) :
    settleAll names (t ++ '/' :: rest) = settleAll (settleAll names t) rest := by
  rw [settleAll, List.splitOn_append_cons_self, List.foldl_append, settleAll, settleAll]

theorem settleAll_segment {s : Text} (hs : '/' ∉ s) (names : List Text) :
    settleAll names s = settle names s := by
  rw [settleAll, List.splitOn_eq_singleton hs, List.foldl_cons, List.foldl_nil]

/-! ### What is compared of a path -/

/-- The names that segments lead to are segments, the last of them or ones already there. -/
theorem foldl_settle_subset {names ss : List Text} {s : Text} (h : s ∈ ss.foldl settle names) :
    s ∈ names ∨ s ∈ ss ∧ s ≠ [] := by
  induction ss generalizing names with
  | nil => exact .inl h
  | cons s' ss ih =>
      rw [List.foldl_cons] at h
      rcases ih h with hnames | ⟨hmem, hne⟩
      · rw [settle] at hnames
        split at hnames
        · exact .inl hnames
        · next hplain =>
          split at hnames
          · exact .inl (List.mem_of_mem_tail hnames)
          · rcases List.mem_cons.mp hnames with rfl | hnames
            · exact .inr ⟨List.mem_cons_self, fun hs => hplain (.inl hs)⟩
            · exact .inl hnames
      · exact .inr ⟨List.mem_cons_of_mem s' hmem, hne⟩

theorem of_mem_resolve {dir p s : Text} (h : s ∈ resolve dir p) :
    s ≠ [] ∧ '/' ∉ s ∧ ∀ c ∈ s, c ∈ absolute dir p := by
  rw [resolve, List.mem_reverse, settleAll] at h
  rcases foldl_settle_subset h with hnil | ⟨hmem, hne⟩
  · exact absurd hnil List.not_mem_nil
  · exact ⟨hne, Text.of_mem_splitOn hmem⟩

theorem push_component (names : List Text) {s : Text} (hne : s ≠ []) (hdot : s ≠ ['.']) :
    Path.push (names.map Component.name ++ [.root]) (Path.component s) =
      (settle names s).map Component.name ++ [.root] := by
  rw [settle, if_neg (not_or.mpr ⟨hne, hdot⟩), Path.component, if_neg hdot]
  by_cases hparent : s = ['.', '.']
  · rw [if_pos hparent, if_pos hparent]
    cases names with
    | nil => rfl
    | cons name names => rfl
  · rw [if_neg hparent, if_neg hparent]
    rfl

theorem foldl_push_components (ss names : List Text) :
    (((ss.filter (· ≠ [])).filter (· ≠ ['.'])).map Path.component).foldl Path.push
        (names.map Component.name ++ [.root]) =
      (ss.foldl settle names).map Component.name ++ [.root] := by
  induction ss generalizing names with
  | nil => rfl
  | cons s ss ih =>
      by_cases hne : s = []
      · rw [List.filter_cons_of_neg (by simp [hne]), ih, hne, List.foldl_cons, settle_nil]
      · by_cases hdot : s = ['.']
        · rw [List.filter_cons_of_pos (by simp [hne]), List.filter_cons_of_neg (by simp [hdot]), ih,
            hdot, List.foldl_cons, settle_dot]
        · rw [List.filter_cons_of_pos (by simp [hne]), List.filter_cons_of_pos (by simp [hdot]),
            List.map_cons, List.foldl_cons, push_component names hne hdot, ih, List.foldl_cons]

theorem collapse_components {t : Text} (h : t.head? = some '/') :
    Path.collapse (Path.components t) = .root :: (settleAll [] t).reverse.map Component.name := by
  have habs : Path.isAbsolute t = true := by rw [Path.isAbsolute, h, beq_self_eq_true]
  rw [Path.components, if_pos habs, Path.collapse, List.foldl_cons]
  have hfold := foldl_push_components (Path.segments t) []
  rw [List.map_nil, List.nil_append] at hfold
  rw [show Path.push [] .root = [.root] from rfl, hfold, List.reverse_append, Path.segments,
    Text.pieces_eq_splitOn, ← settleAll, ← List.map_reverse]
  rfl

/-- A slash at the end of the directory is not doubled, which makes no difference. -/
theorem settleAll_joinText {dir : Text} (habs : dir.head? = some '/') (p : Text) :
    (Path.joinText dir (unifySlashes p)).head? = some '/' ∧
      settleAll [] (Path.joinText dir (unifySlashes p)) = settleAll [] (absolute dir p) := by
  obtain ⟨below, hdir⟩ : ∃ below, dir = '/' :: below := List.head?_eq_some_iff.mp habs
  by_cases hp : (unifySlashes p).head? = some '/'
  · have hpabs : Path.isAbsolute (unifySlashes p) = true := by
      rw [Path.isAbsolute, hp, beq_self_eq_true]
    rw [Path.joinText, if_pos (.inl hpabs), absolute, if_pos hp]
    exact ⟨hp, rfl⟩
  · have hrel : ¬ (Path.isAbsolute (unifySlashes p) = true ∨ dir = []) := by
      rw [Path.isAbsolute, beq_iff_eq, hdir]
      exact not_or.mpr ⟨hp, List.cons_ne_nil '/' below⟩
    rw [Path.joinText, if_neg hrel, absolute, if_neg hp]
    split
    · next hlast =>
      refine ⟨by rw [hdir]; rfl, ?_⟩
      obtain ⟨above, habove⟩ := List.getLast?_eq_some_iff.mp hlast
      rw [habove, List.append_assoc, List.append_assoc, List.singleton_append,
        List.singleton_append, settleAll_append_slash, settleAll_append_slash,
        ← List.nil_append ('/' :: _), settleAll_append_slash, settleAll_segment List.not_mem_nil,
        settle_nil]
    · exact ⟨by rw [hdir]; rfl, rfl⟩

theorem ofComponents_names (names : List Text) :
    Path.ofComponents (.root :: names.map Component.name) =
      '/' :: List.intercalate ['/'] names := by
  rw [Path.ofComponents, List.map_map]
  have hid : Path.componentText ∘ Component.name = id := rfl
  rw [hid, List.map_id]

theorem backslash_notMem_unifySlashes (p : Text) : '\\' ∉ unifySlashes p := by
  rw [unifySlashes, List.mem_map]
  rintro ⟨c, -, hc⟩
  split at hc
  · exact absurd hc (by decide)
  · contradiction

theorem unifySlashes_eq_self {t : Text} (h : '\\' ∉ t) : unifySlashes t = t := by
  refine (List.map_congr_left fun c hc => ?_).trans (List.map_id t)
  have hne : c ≠ '\\' := fun heq => h (heq ▸ hc)
  rw [if_neg hne, id]

theorem backslash_notMem_absolute {dir : Text} (hplain : '\\' ∉ dir) (p : Text) :
    '\\' ∉ absolute dir p := by
  have hp := backslash_notMem_unifySlashes p
  rw [absolute]
  split
  · exact hp
  · rw [List.mem_append, List.mem_cons, not_or, not_or]
    exact ⟨hplain, by decide, hp⟩

theorem comparable_eq {workingDir : String} (habs : workingDir.toList.head? = some '/')
    (hplain : '\\' ∉ workingDir.toList) (p : String) :
    comparable workingDir p =
      '/' :: List.intercalate ['/'] ((resolve workingDir.toList p.toList).map Text.lower) := by
  obtain ⟨hhead, hsettle⟩ := settleAll_joinText habs p.toList
  have hnone : '\\' ∉ '/' :: List.intercalate ['/'] (resolve workingDir.toList p.toList) := by
    rw [List.mem_cons, not_or]
    refine ⟨by decide, fun hmem => ?_⟩
    rcases Text.of_mem_intercalate hmem with hsep | ⟨s, hs, hc⟩
    · exact absurd hsep (by decide)
    · exact backslash_notMem_absolute hplain p.toList ((of_mem_resolve hs).2.2 _ hc)
  rw [comparable, collapse_components hhead, hsettle, ← resolve, ofComponents_names,
    unifySlashes_eq_self hnone, ← List.nil_append ('/' :: _), Text.lower_slash,
    Text.lower_intercalate]
  rfl

theorem isSame_iff {workingDir : String} (habs : workingDir.toList.head? = some '/')
    (hplain : '\\' ∉ workingDir.toList) (a b : String) :
    isSame workingDir a b = true ↔
      (resolve workingDir.toList a.toList).map Text.lower =
        (resolve workingDir.toList b.toList).map Text.lower := by
  have hsegments : ∀ p, ∀ s ∈ (resolve workingDir.toList p).map Text.lower, s ≠ [] ∧ '/' ∉ s := by
    intro p s hs
    obtain ⟨name, hname, rfl⟩ := List.mem_map.mp hs
    obtain ⟨hne, hslash, -⟩ := of_mem_resolve hname
    exact ⟨Text.lower_ne_nil hne, Text.slash_notMem_lower hslash⟩
  rw [isSame, decide_eq_true_iff, comparable_eq habs hplain, comparable_eq habs hplain]
  constructor
  · intro heq
    rw [List.cons_inj_right] at heq
    exact Text.intercalate_inj (hsegments a.toList) (hsegments b.toList) heq
  · intro heq
    rw [heq]

/-! ### Other spellings of a path -/

def IsSlash (c : Char) : Prop :=
  c = '/' ∨ c = '\\'

/-- A segment that leads one place down. -/
def IsName (s : Text) : Prop :=
  s ≠ [] ∧ s ≠ ['.'] ∧ s ≠ ['.', '.'] ∧ ∀ c ∈ s, ¬ IsSlash c

/-- A run of segments, each with the slash behind it, that leads back to where it starts. -/
inductive IsDetour : Text → Prop
  | none : IsDetour []
  | empty {c : Char} : IsSlash c → IsDetour [c]
  | dot {c : Char} : IsSlash c → IsDetour ['.', c]
  | back {name x : Text} {c d : Char} : IsName name → IsSlash c → IsDetour x → IsSlash d →
      IsDetour (name ++ c :: (x ++ ['.', '.', d]))
  | append {x y : Text} : IsDetour x → IsDetour y → IsDetour (x ++ y)

/-- The second text is another spelling of the path. -/
inductive Respells : Text → Text → Prop
  | detour {u v x : Text} {c : Char} : IsSlash c → IsDetour x →
      Respells (u ++ c :: v) (u ++ c :: (x ++ v))
  | trailing {p : Text} {c : Char} : p ≠ [] → IsSlash c → Respells p (p ++ [c])
  | slashes {p q : Text} : List.Forall₂ (fun c d => c = d ∨ IsSlash c ∧ IsSlash d) p q →
      Respells p q
  | letterCase {p q : Text} : p.map Char.toLower = q.map Char.toLower → Respells p q

theorem unifySlashes_append (p q : Text) :
    unifySlashes (p ++ q) = unifySlashes p ++ unifySlashes q :=
  List.map_append

theorem unifySlashes_slash {c : Char} (hc : IsSlash c) (p : Text) :
    unifySlashes (c :: p) = '/' :: unifySlashes p := by
  rw [unifySlashes, List.map_cons]
  rcases hc with rfl | rfl <;> rfl

theorem unifySlashes_name {name : Text} (h : IsName name) :
    unifySlashes name = name ∧ '/' ∉ name :=
  ⟨unifySlashes_eq_self fun hmem => h.2.2.2 _ hmem (.inr rfl),
    fun hmem => h.2.2.2 _ hmem (.inl rfl)⟩

theorem settle_name {name : Text} (h : IsName name) (names : List Text) :
    settle names name = name :: names := by
  rw [settle, if_neg (not_or.mpr ⟨h.1, h.2.1⟩), if_neg h.2.2.1]

/-- Whatever the names before it, a detour adds none and takes none away. -/
theorem settleAll_detour {x : Text} (hx : IsDetour x) (names : List Text) (rest : Text) :
    settleAll names (unifySlashes x ++ rest) = settleAll names rest := by
  induction hx generalizing names rest with
  | none => rfl
  | empty hc =>
      rw [unifySlashes_slash hc]
      exact settleAll_append_slash names [] rest
  | @dot c hc =>
      have hdot : unifySlashes ['.', c] = ['.'] ++ '/' :: [] :=
        congrArg (['.'] ++ ·) (unifySlashes_slash hc [])
      rw [hdot]
      exact settleAll_append_slash names ['.'] rest
  | @back name x c d hname hc hx hd ih =>
      obtain ⟨hunified, hslash⟩ := unifySlashes_name hname
      have hparent : unifySlashes ['.', '.', d] = ['.', '.'] ++ '/' :: [] :=
        congrArg (['.', '.'] ++ ·) (unifySlashes_slash hd [])
      calc settleAll names (unifySlashes (name ++ c :: (x ++ ['.', '.', d])) ++ rest)
          = settleAll names
              (name ++ '/' :: (unifySlashes x ++ (['.', '.'] ++ '/' :: rest))) := by
            rw [unifySlashes_append, unifySlashes_slash hc, unifySlashes_append, hunified, hparent]
            simp
        _ = settleAll (name :: names) (['.', '.'] ++ '/' :: rest) := by
            rw [settleAll_append_slash, settleAll_segment hslash, settle_name hname, ih]
        _ = settleAll names rest :=
            settleAll_append_slash (name :: names) ['.', '.'] rest
  | append hx hy ihx ihy =>
      rw [unifySlashes_append, List.append_assoc, ihx, ihy]

/-- Paths that start alike are put behind the same directory. -/
theorem absolute_eq_append {p q : Text} (h : (unifySlashes p).head? = (unifySlashes q).head?)
    (dir : Text) :
    ∃ above, absolute dir p = above ++ unifySlashes p ∧
      absolute dir q = above ++ unifySlashes q := by
  rw [absolute, absolute, ← h]
  split
  · exact ⟨[], rfl, rfl⟩
  · exact ⟨dir ++ ['/'], by rw [List.append_assoc]; rfl, by rw [List.append_assoc]; rfl⟩

theorem resolve_detour {c : Char} (hc : IsSlash c) {x : Text} (hx : IsDetour x) (dir u v : Text) :
    resolve dir (u ++ c :: (x ++ v)) = resolve dir (u ++ c :: v) := by
  have hu : ∀ w, unifySlashes (u ++ c :: w) = unifySlashes u ++ '/' :: unifySlashes w := by
    intro w
    rw [unifySlashes_append, unifySlashes_slash hc]
  have hhead : (unifySlashes (u ++ c :: (x ++ v))).head? = (unifySlashes (u ++ c :: v)).head? := by
    rw [hu, hu, List.head?_append, List.head?_append]
    rfl
  obtain ⟨above, hlong, hshort⟩ := absolute_eq_append hhead dir
  rw [resolve, resolve, hlong, hshort, hu, hu, ← List.append_assoc, ← List.append_assoc,
    settleAll_append_slash, settleAll_append_slash, unifySlashes_append, settleAll_detour hx]

theorem resolve_trailing {p : Text} (hp : p ≠ []) {c : Char} (hc : IsSlash c) (dir : Text) :
    resolve dir (p ++ [c]) = resolve dir p := by
  have hu : unifySlashes (p ++ [c]) = unifySlashes p ++ '/' :: [] := by
    rw [unifySlashes_append, unifySlashes_slash hc]
    rfl
  have hhead : (unifySlashes (p ++ [c])).head? = (unifySlashes p).head? := by
    rw [hu]
    cases p with
    | nil => exact absurd rfl hp
    | cons d p => rfl
  obtain ⟨above, hlong, hshort⟩ := absolute_eq_append hhead dir
  rw [resolve, resolve, hlong, hshort, hu, ← List.append_assoc, settleAll_append_slash,
    settleAll_segment List.not_mem_nil, settle_nil]

theorem resolve_slashes {p q : Text}
    (h : List.Forall₂ (fun c d => c = d ∨ IsSlash c ∧ IsSlash d) p q) (dir : Text) :
    resolve dir q = resolve dir p := by
  have hunified : unifySlashes p = unifySlashes q := by
    induction h with
    | nil => rfl
    | @cons c d p q hcd h ih =>
        rcases hcd with rfl | ⟨hc, hd⟩
        · exact congrArg (unifySlashes [c] ++ ·) ih
        · rw [unifySlashes_slash hc, unifySlashes_slash hd, ih]
  rw [resolve, resolve, absolute, absolute, hunified]

theorem settle_map_toLower (names : List Text) (s : Text) :
    settle (names.map (List.map Char.toLower)) (s.map Char.toLower) =
      (settle names s).map (List.map Char.toLower) := by
  have hdot : ∀ c : Char, c.toLower = '.' ↔ c = '.' := toLower_iff (· = '.') (by decide +kernel)
  have hcurrent : s.map Char.toLower = ['.'] ↔ s = ['.'] := by
    simp [List.map_eq_cons_iff, hdot]
  have hparent : s.map Char.toLower = ['.', '.'] ↔ s = ['.', '.'] := by
    simp [List.map_eq_cons_iff, hdot]
  simp only [settle, List.map_eq_nil_iff, hcurrent, hparent]
  split
  · rfl
  · split
    · exact List.map_tail.symm
    · rfl

theorem settleAll_map_toLower (names : List Text) (t : Text) :
    settleAll (names.map (List.map Char.toLower)) (t.map Char.toLower) =
      (settleAll names t).map (List.map Char.toLower) := by
  rw [settleAll, settleAll, Text.splitOn_map_toLower]
  generalize t.splitOn '/' = ss
  induction ss generalizing names with
  | nil => rfl
  | cons s ss ih =>
      rw [List.map_cons, List.foldl_cons, List.foldl_cons, settle_map_toLower, ih]

theorem unifySlashes_map_toLower (p : Text) :
    unifySlashes (p.map Char.toLower) = (unifySlashes p).map Char.toLower := by
  rw [unifySlashes, unifySlashes, List.map_map, List.map_map]
  refine List.map_congr_left fun c _ => ?_
  have hback : c.toLower = '\\' ↔ c = '\\' := toLower_iff (· = '\\') (by decide +kernel) c
  show (if c.toLower = '\\' then '/' else c.toLower) = (if c = '\\' then '/' else c).toLower
  simp only [hback]
  split <;> rfl

theorem absolute_map_toLower {p q : Text} (h : p.map Char.toLower = q.map Char.toLower)
    (dir : Text) :
    (absolute dir p).map Char.toLower = (absolute dir q).map Char.toLower := by
  have hunified : (unifySlashes p).map Char.toLower = (unifySlashes q).map Char.toLower := by
    rw [← unifySlashes_map_toLower, h, unifySlashes_map_toLower]
  have hhead : ∀ t : Text, (t.map Char.toLower).head? = some '/' ↔ t.head? = some '/' := by
    intro t
    cases t with
    | nil => rfl
    | cons c t =>
        rw [List.map_cons, List.head?_cons, List.head?_cons, Option.some_inj, Option.some_inj]
        exact toLower_iff (· = '/') (by decide +kernel) c
  have habs : (unifySlashes p).head? = some '/' ↔ (unifySlashes q).head? = some '/' := by
    rw [← hhead, hunified, hhead]
  simp only [absolute, habs]
  split
  · exact hunified
  · rw [List.map_append, List.map_append, List.map_cons, List.map_cons, hunified]

theorem lower_resolve {p q : Text} (h : Respells p q) (dir : Text) :
    (resolve dir q).map Text.lower = (resolve dir p).map Text.lower := by
  cases h with
  | detour hc hx => rw [resolve_detour hc hx]
  | trailing hp hc => rw [resolve_trailing hp hc]
  | slashes h => rw [resolve_slashes h]
  | letterCase h =>
      have hlower : ∀ p, (resolve dir p).map Text.lower =
          (settleAll [] ((absolute dir p).map Char.toLower)).reverse.map Text.lower := by
        intro p
        have hmap := settleAll_map_toLower [] (absolute dir p)
        rw [List.map_nil] at hmap
        rw [hmap, ← List.map_reverse, List.map_map, resolve]
        exact List.map_congr_left fun s _ => (Text.lower_map_toLower s).symm
      rw [hlower, hlower, absolute_map_toLower h]

/-- For a working directory that is absolute and has no backslash in its name: two paths are taken
for the same file if and only if they lead over the same names, up to case, and the answer stays
the same under every other spelling of either path. -/
theorem isSame_resolves {workingDir : String} (habs : workingDir.toList.head? = some '/')
    (hplain : '\\' ∉ workingDir.toList) (a b : String) :
    (isSame workingDir a b = true ↔
      (resolve workingDir.toList a.toList).map Text.lower =
        (resolve workingDir.toList b.toList).map Text.lower) ∧
    ∀ a' : String, Respells a.toList a'.toList →
      isSame workingDir a' b = isSame workingDir a b ∧
      isSame workingDir b a' = isSame workingDir b a := by
  refine ⟨isSame_iff habs hplain a b, fun a' ha => ?_⟩
  have hlower := lower_resolve ha workingDir.toList
  constructor <;> rw [Bool.eq_iff_iff, isSame_iff habs hplain, isSame_iff habs hplain, hlower]

theorem isSame_resolves_detour :
    isSame "/home/ada" "cfg\\Keys.json" "/home/ada/./cfg/keys.json" = true ∧
    isSame "/home/ada" "cfg\\old/.\\..\\Keys.json" "/home/ada/./cfg/keys.json" = true := by
  have hall := @isSame_resolves "/home/ada" (by decide) (by decide)
    "cfg\\Keys.json" "/home/ada/./cfg/keys.json"
  have hold : IsName ['o', 'l', 'd'] := ⟨by decide, by decide, by decide, by simp [IsSlash]⟩
  have hdetour : IsDetour "old/.\\..\\".toList :=
    .back hold (.inl rfl) (.dot (.inr rfl)) (.inr rfl)
  have hsame := hall.1.mpr (by decide +kernel)
  have hrespelled := hall.2 "cfg\\old/.\\..\\Keys.json"
    (.detour (u := "cfg".toList) (.inr rfl) hdetour)
  exact ⟨hsame, hrespelled.1.trans hsame⟩

end Target

end Keybindings
