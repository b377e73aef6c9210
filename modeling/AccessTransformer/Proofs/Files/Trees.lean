import AccessTransformer.Proofs.Files.Clearing
import AccessTransformer.Proofs.Files.Paths
import Mathlib.Data.List.Nodup

/-!
# Trees

Files lie in directories, each under a name that leads to it, and no two of them at one location.
Clearing keeps it that way.  In a tree, what lies inside a directory is listed by the names that
lead to it from there, each of them once and in order.

* `IsTree`: what all file systems have in common.
* `IsTree.of_clear_eq_ok`: clearing leaves a tree.
* `IsTree.file?_eq_none_of_not_exists`: a path down the tree that names nothing has no files inside.
* `mem_inside_iff`, `nodup_inside`, `pairwise_inside`: what lies inside a directory.
-/

namespace AccessTransformer.FileSystem

variable {files after : FileSystem} {location directory : Location} {node : Node} {path : String}

/-! ## Trees -/

/-- Whether a name leads from a directory to what it holds. -/
structure IsProper (name : String) : Prop where
  not_idle : ¬Path.IsIdle name
  ne_up : name ≠ ".."
  slash_notMem : '/' ∉ name.toList
  isName : IsName name

/-- Whether all files and directories lie in directories, and each at a location of its own. -/
structure IsTree (files : FileSystem) : Prop where
  nodup : (files.nodes.map (·.1)).Nodup
  ne_nil : ∀ entry ∈ files.nodes, entry.1 ≠ []
  above : ∀ entry ∈ files.nodes, entry.1.tail = [] ∨ (entry.1.tail, .directory) ∈ files.nodes
  isProper : ∀ entry ∈ files.nodes, ∀ name ∈ entry.1, IsProper name
  workingDirectory : ∀ entry ∈ files.nodes, entry.1 = files.workingDirectory →
    entry.2 = .directory

instance (name : String) : Decidable (IsProper name) :=
  decidable_of_iff (¬Path.IsIdle name ∧ name ≠ ".." ∧ '/' ∉ name.toList ∧ IsName name)
    ⟨fun ⟨hidle, hup, hslash, hname⟩ => ⟨hidle, hup, hslash, hname⟩,
      fun h => ⟨h.not_idle, h.ne_up, h.slash_notMem, h.isName⟩⟩

instance (files : FileSystem) : Decidable files.IsTree :=
  decidable_of_iff ((files.nodes.map (·.1)).Nodup ∧ ∀ entry ∈ files.nodes, entry.1 ≠ [] ∧
      (entry.1.tail = [] ∨ (entry.1.tail, .directory) ∈ files.nodes) ∧
      (∀ name ∈ entry.1, IsProper name) ∧
      (entry.1 = files.workingDirectory → entry.2 = .directory))
    ⟨fun ⟨hnodup, h⟩ => ⟨hnodup, fun entry hentry => (h entry hentry).1,
        fun entry hentry => (h entry hentry).2.1, fun entry hentry => (h entry hentry).2.2.1,
        fun entry hentry => (h entry hentry).2.2.2⟩,
      fun h => ⟨h.nodup, fun entry hentry => ⟨h.ne_nil entry hentry, h.above entry hentry,
        h.isProper entry hentry, h.workingDirectory entry hentry⟩⟩⟩

theorem lookup_eq_some_iff_mem {nodes : List (Location × Node)}
    (h : (nodes.map (·.1)).Nodup) :
    nodes.lookup location = some node ↔ (location, node) ∈ nodes := by
  induction nodes with
  | nil => simp
  | cons entry nodes ih =>
    rw [List.map_cons, List.nodup_cons] at h
    rw [List.lookup_cons, List.mem_cons]
    by_cases heq : location = entry.1
    · have hnotMem : (location, node) ∉ nodes := fun hmem =>
        h.1 (heq ▸ List.mem_map_of_mem (f := (·.1)) hmem)
      rw [beq_iff_eq.mpr heq, or_iff_left hnotMem, Option.some.injEq, Prod.ext_iff]
      exact ⟨fun hnode => ⟨heq, hnode.symm⟩, fun hentry => hentry.2.symm⟩
    · have hne : (location, node) ≠ entry := fun hentry => heq (congrArg Prod.fst hentry)
      rw [beq_eq_false_iff_ne.mpr heq, or_iff_right hne]
      exact ih h.2

theorem IsTree.node?_eq_of_mem (h : files.IsTree) (hmem : (location, node) ∈ files.nodes) :
    files.node? location = some node := by
  unfold node?
  split_ifs with hfixed
  · obtain hroot | hdirectory := hfixed
    · exact absurd hroot (h.ne_nil _ hmem)
    · exact congrArg some (h.workingDirectory _ hmem hdirectory).symm
  · exact (lookup_eq_some_iff_mem h.nodup).mpr hmem

theorem IsTree.file?_eq_some_iff_mem (h : files.IsTree) {content : Content} :
    files.file? location = some content ↔ (location, .file content) ∈ files.nodes := by
  rw [file?_eq_some_iff]
  refine ⟨fun hnode => ?_, h.node?_eq_of_mem⟩
  unfold node? at hnode
  split_ifs at hnode
  · cases hnode
  · exact (lookup_eq_some_iff_mem h.nodup).mp hnode

/-- What lies above a node is a directory. -/
theorem IsTree.node?_eq_directory (h : files.IsTree) (hmem : (location, node) ∈ files.nodes)
    (hinside : IsInside directory location) : files.node? directory = some .directory := by
  induction location generalizing node with
  | nil => exact absurd rfl (h.ne_nil _ hmem)
  | cons name location ih =>
    obtain ⟨hsuffix, hne⟩ := hinside
    obtain heq | hsuffix := List.suffix_cons_iff.mp hsuffix
    · exact absurd heq hne
    · obtain hroot | habove := h.above _ hmem
      · obtain rfl : location = [] := hroot
        exact if_pos (.inl (List.suffix_nil.mp hsuffix))
      · by_cases heq : directory = location
        · exact heq ▸ h.node?_eq_of_mem habove
        · exact ih habove ⟨hsuffix, heq⟩

/-! ### Clearing -/

/-- A tree stays one when whatever lies in what goes goes too. -/
theorem IsTree.filter (h : files.IsTree) (Gone : Location → Prop) [DecidablePred Gone]
    (hdown : ∀ entry ∈ files.nodes, Gone entry.1.tail → Gone entry.1) :
    IsTree { files with nodes := files.nodes.filter fun entry => ¬Gone entry.1 } where
  nodup := h.nodup.sublist (List.filter_sublist.map _)
  ne_nil entry hentry := h.ne_nil entry (List.mem_of_mem_filter hentry)
  above entry hentry := by
    rw [List.mem_filter, decide_eq_true_iff] at hentry
    refine (h.above entry hentry.1).imp_right fun habove => ?_
    rw [List.mem_filter, decide_eq_true_iff]
    exact ⟨habove, fun hgone => hentry.2 (hdown entry hentry.1 hgone)⟩
  isProper entry hentry := h.isProper entry (List.mem_of_mem_filter hentry)
  workingDirectory entry hentry := h.workingDirectory entry (List.mem_of_mem_filter hentry)

theorem isInside_tail (h : location ≠ []) : IsInside location.tail location := by
  refine ⟨List.tail_suffix location, fun heq => ?_⟩
  cases location with
  | nil => exact h rfl
  | cons name location => exact List.cons_ne_self name location heq.symm

theorem IsInside.of_tail (h : IsInside directory location.tail) : IsInside directory location := by
  refine ⟨h.1.trans (List.tail_suffix location), ?_⟩
  rintro rfl
  exact h.2 (h.1.eq_of_length_le (by simp))

theorem IsTree.emptied (h : files.IsTree) : (files.emptied path).IsTree :=
  h.filter _ fun _ _ hgone => hgone.of_tail

/-- Clearing leaves a tree. -/
theorem IsTree.of_clear_eq_ok (h : files.IsTree) (hclear : files.clear path = (after, .ok ())) :
    after.IsTree := by
  obtain ⟨-, ⟨-, rfl⟩ | ⟨-, rfl⟩⟩ := clear_cases hclear
  · exact h.emptied
  · refine h.emptied.filter (· = files.destination path) fun entry hentry htail => ?_
    -- nothing is left that lies in the directory
    have hgone : IsInside (files.destination path) entry.1 :=
      htail ▸ isInside_tail (h.emptied.ne_nil entry hentry)
    exact absurd hgone (of_decide_eq_true (List.mem_filter.mp hentry).2)

/-! ### Ways down -/

theorem suffix_foldl_of_notMem {segments : List String} (h : ".." ∉ segments) :
    location <:+ segments.foldl stepTo location ∧
      ∀ stop ∈ passed location segments, stop <:+ segments.foldl stepTo location := by
  induction segments generalizing location with
  | nil => exact ⟨List.suffix_refl _, nofun⟩
  | cons segment segments ih =>
    rw [List.mem_cons, not_or] at h
    have hstep : location <:+ stepTo location segment := by
      rw [stepTo, if_neg (Ne.symm h.1)]
      split_ifs
      · exact List.suffix_refl _
      · exact List.suffix_cons _ _
    obtain ⟨hstart, hway⟩ :
        stepTo location segment <:+ segments.foldl stepTo (stepTo location segment) ∧ _ := ih h.2
    have hdown := hstep.trans hstart
    exact ⟨hdown, List.forall_mem_cons.mpr ⟨hdown, hway⟩⟩

/-- A path down the tree that names nothing has no files inside. -/
theorem IsTree.file?_eq_none_of_not_exists (h : files.IsTree) (husable : Path.IsUsable path)
    (hup : ".." ∉ Path.segments path) (hnone : ¬files.Exists path)
    (hinside : IsInside (files.destination path) location) : files.file? location = none := by
  by_contra hfile
  obtain ⟨content, hfile⟩ := Option.ne_none_iff_exists'.mp hfile
  have hmem := h.file?_eq_some_iff_mem.mp hfile
  -- then the way there is open, because all of it lies above the file
  refine hnone (exists_iff.mpr ⟨.directory, at?_eq_some_iff.mpr ⟨husable, ?_, ?_⟩⟩)
  · intro stop hstop
    have hsuffix : stop <:+ files.destination path := (suffix_foldl_of_notMem hup).2 stop hstop
    refine h.node?_eq_directory hmem ⟨hsuffix.trans hinside.1, ?_⟩
    rintro rfl
    exact hinside.2 (hinside.1.eq_of_length_le hsuffix.length_le)
  · exact h.node?_eq_directory hmem hinside

/-! ## Inside a directory -/

variable {names : List String}

/-- Names that lead somewhere from a directory, from the location of that. -/
theorem take_append_of_suffix (h : directory <:+ location) :
    location.take (location.length - directory.length) ++ directory = location := by
  obtain ⟨front, rfl⟩ := h
  simp

theorem mem_inside_iff :
    (names, node) ∈ files.inside directory ↔
      names ≠ [] ∧ (names.reverse ++ directory, node) ∈ files.nodes := by
  simp only [inside, List.mem_mergeSort, List.mem_map, List.mem_filter, decide_eq_true_iff,
    Prod.mk.injEq]
  constructor
  · rintro ⟨⟨location, node⟩, ⟨hmem, hsuffix, hne⟩, rfl, rfl⟩
    have hlocation := take_append_of_suffix hsuffix
    refine ⟨fun hnil => hne ?_, ?_⟩
    · rwa [List.reverse_eq_nil_iff.mp hnil] at hlocation
    · rwa [List.reverse_reverse, hlocation]
  · rintro ⟨hne, hmem⟩
    refine ⟨_, ⟨hmem, List.suffix_append _ _, ?_⟩, by simp, rfl⟩
    simpa using hne

theorem IsTree.nodup_inside (h : files.IsTree) :
    ((files.inside directory).map (·.1)).Nodup := by
  rw [inside, ((List.mergeSort_perm _ _).map _).nodup_iff, List.map_map]
  refine List.Nodup.map_on (fun first hfirst second hsecond heq => ?_) (h.nodup.of_map.filter _)
  rw [List.mem_filter, decide_eq_true_iff] at hfirst hsecond
  have hlocation : first.1 = second.1 := by
    rw [← take_append_of_suffix hfirst.2.1, ← take_append_of_suffix hsecond.2.1]
    exact congrArg (· ++ directory) (List.reverse_injective heq)
  exact List.inj_on_of_nodup_map h.nodup hfirst.1 hsecond.1 hlocation

theorem pairwise_inside :
    (files.inside directory).Pairwise fun first second => Text.namesLe first.1 second.1 = true :=
  Text.pairwise_namesLe_mergeSort _ _

end AccessTransformer.FileSystem
