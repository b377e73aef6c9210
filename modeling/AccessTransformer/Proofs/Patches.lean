import AccessTransformer.Patches
import AccessTransformer.Proofs.Files.Session
import AccessTransformer.Proofs.Files.Trees
import AccessTransformer.Proofs.Outcomes

/-!
# Rejects of a run

Applying patches clears the directory for rejects, runs the tool, and lists what lies in the
directory then.  The list has each of the files there once and in the order of their paths.  None of
them was there when the tool started, if the directory was there to be cleared or the path to it
leads straight down: then the path leads nowhere, and so nothing can lie behind it.

* `Tool.perform_apply_eq_ok_iff`: when an application succeeds.
* `lists_of_rejectsIn`: what is listed.
* `file?_eq_none_of_liesIn`: what is listed is from this run.
-/

namespace AccessTransformer

/-- Whether programs leave trees of files as such, and the working directory where it is. -/
def Launcher.KeepsTrees (launcher : Launcher) : Prop :=
  ∀ program arguments files after code, launcher program arguments files = some (after, code) →
    files.IsTree → after.IsTree ∧ after.workingDirectory = files.workingDirectory

namespace Patches

variable {files atStart after : FileSystem} {rejects path : String} {paths : List String}
  {location : Location} {launcher : Launcher} {tool : Tool} {request : ApplyRequest}

/-! ## Clearing -/

/-- How clearing the rejects can succeed. -/
theorem clearRejects_cases (h : (clearRejects rejects).perform files = (atStart, .ok ())) :
    files.clear rejects = (atStart, .ok ()) ∨ ¬files.Exists rejects ∧ atStart = files := by
  have hchange := Session.perform_during_eq_ok_iff.mp h
  rw [Session.perform_ofChange] at hchange
  split_ifs at hchange with hexists
  · exact .inl hchange
  · exact .inr ⟨hexists, (Prod.mk.inj hchange).1.symm⟩

/-- **Clearing the rejects takes what clearing their directory takes, and nothing else.** -/
theorem loses_of_clearRejects (h : (clearRejects rejects).perform files = (atStart, .ok ())) :
    files.Loses (files.Clears rejects) atStart := by
  obtain hclear | ⟨hnone, rfl⟩ := clearRejects_cases h
  · exact (FileSystem.loses_of_clear_eq_ok hclear).2
  · refine .refl fun _ hclears => hnone ?_
    exact FileSystem.exists_iff.mpr ⟨_, hclears.1⟩

theorem isTree_of_clearRejects (htree : files.IsTree)
    (h : (clearRejects rejects).perform files = (atStart, .ok ())) : atStart.IsTree := by
  obtain hclear | ⟨-, rfl⟩ := clearRejects_cases h
  · exact htree.of_clear_eq_ok hclear
  · exact htree

/-- When the rejects are cleared, there are no files where the path to them leads. -/
theorem file?_eq_none_of_clearRejects (htree : files.IsTree)
    (hrejects : files.Exists rejects ∨ ".." ∉ Path.segments rejects)
    (husable : Path.IsUsable rejects)
    (h : (clearRejects rejects).perform files = (atStart, .ok ()))
    (hinside : FileSystem.IsInside (files.destination rejects) location) :
    atStart.file? location = none := by
  obtain hclear | ⟨hnone, rfl⟩ := clearRejects_cases h
  · obtain ⟨hdirectory, hloses⟩ := FileSystem.loses_of_clear_eq_ok hclear
    by_cases hfixed : files.IsFixed location
    · have hkept : atStart.node? location = files.node? location :=
        hloses.node?_eq fun hclears => hclears.2.1 hfixed
      rw [FileSystem.file?_eq_of_node?_eq hkept, FileSystem.file?_of_isFixed hfixed]
    · exact hloses.file?_eq_none ⟨hdirectory, hfixed, .inl hinside⟩
  · exact htree.file?_eq_none_of_not_exists husable (hrejects.resolve_left hnone) hnone hinside

/-! ## Running -/

theorem checkExit_eq_ok_iff {code : Option Int} {result : Unit} :
    checkExit code = .ok result ↔ ∃ exit, code = some exit ∧ (exit = 0 ∨ exit = 1) := by
  cases code with
  | none => simp [checkExit, Outcome.fail]
  | some exit =>
    rw [checkExit]
    split_ifs with hdone
    · simp [hdone]
    · simp [hdone, Outcome.fail]

/-- What the tool makes of the files when it is started for an application. -/
def Tool.launch (tool : Tool) (launcher : Launcher) (request : ApplyRequest)
    (files : FileSystem) : Option (FileSystem × Option Int) :=
  launcher tool.program (tool.leading ++ request.arguments files) files

/-- What an application comes to when the tool has ended. -/
def outcome (rejects : String) (code : Option Int) (after : FileSystem) :
    Outcome (List String) := do
  checkExit code
  rejectsIn rejects after

/-- An application that has cleared the rejects leaves the files that the tool leaves. -/
theorem Tool.perform_apply_of_clearRejects (request : ApplyRequest)
    (h : (clearRejects request.rejects).perform files = (atStart, .ok ())) :
    (tool.apply launcher request).perform files =
      match tool.launch launcher request atStart with
      | none => (atStart, Outcome.during (.launch tool.program) (Outcome.fail .system))
      | some (after, code) => (after, outcome request.rejects code after) := by
  rw [Tool.apply, Session.perform_bind_of_ok h, Session.perform_get_bind, Session.perform_bind,
    Tool.run, Session.perform_ofChange, Tool.launch]
  cases launcher tool.program (tool.leading ++ request.arguments atStart) atStart with
  | none => rfl
  | some result =>
    obtain ⟨after, code⟩ := result
    dsimp only
    rw [(Session.looks_ofView _).perform_bind, Session.perform_ofView, outcome]
    cases checkExit code <;> rfl

/-- **An application succeeds if the rejects are cleared and the tool does its work.** -/
theorem Tool.perform_apply_eq_ok_iff :
    (tool.apply launcher request).perform files = (after, .ok paths) ↔
      ∃ atStart exit, (clearRejects request.rejects).perform files = (atStart, .ok ()) ∧
        tool.launch launcher request atStart = some (after, some exit) ∧
        (exit = 0 ∨ exit = 1) ∧ rejectsIn request.rejects after = .ok paths := by
  constructor
  · intro h
    obtain ⟨atStart, _, hclear, -⟩ := Session.perform_bind_eq_ok_iff.mp h
    rw [Tool.perform_apply_of_clearRejects request hclear] at h
    split at h
    · cases (Prod.mk.inj h).2
    · rename_i between code hrun
      obtain ⟨rfl, houtcome⟩ := Prod.mk.inj h
      obtain ⟨_, hcheck, hlist⟩ := bind_eq_ok_iff.mp houtcome
      obtain ⟨exit, rfl, hexit⟩ := checkExit_eq_ok_iff.mp hcheck
      exact ⟨atStart, exit, hclear, hrun, hexit, hlist⟩
  · rintro ⟨atStart, exit, hclear, hrun, hexit, hlist⟩
    rw [Tool.perform_apply_of_clearRejects request hclear, hrun]
    refine Prod.ext rfl (bind_eq_ok_iff.mpr ⟨(), ?_, hlist⟩)
    exact checkExit_eq_ok_iff.mpr ⟨exit, rfl, hexit⟩

/-! ## Listing -/

/-- Whether a path is that of a location inside the directory for rejects. -/
def LiesIn (files : FileSystem) (rejects path : String) (location : Location) : Prop :=
  files.IsDirectory rejects ∧ ∃ names, names ≠ [] ∧ path = rejectPath rejects names ∧
    location = names.reverse ++ files.destination rejects

/-- Whether all directories inside that for rejects can be looked into. -/
def IsShallow (files : FileSystem) (rejects : String) : Prop :=
  files.IsDirectory rejects → ∀ names,
    (names, Node.directory) ∈ files.inside (files.destination rejects) →
      Path.IsUsable (rejectPath rejects names)

/-- Whether a list is that of the files in the directory for rejects. -/
structure Lists (files : FileSystem) (rejects : String) (paths : List String) : Prop where
  /-- All files are listed and nothing else, unless a directory cannot be looked into. -/
  mem_iff : (∀ path, path ∈ paths ↔ ∃ location content, LiesIn files rejects path location ∧
    files.file? location = some content) ↔ IsShallow files rejects
  nodup : paths.Nodup
  sorted : paths.Pairwise fun first second =>
    Text.namesLe (Path.segments first) (Path.segments second) = true

theorem rejectsIn_of_isDirectory (h : files.IsDirectory rejects) :
    rejectsIn rejects files = .ok (((files.inside (files.destination rejects)).filter
      fun entry => IsReject rejects entry).map fun entry => rejectPath rejects entry.1) := by
  have hnode := (FileSystem.at?_eq_some_iff.mp h).2.2
  rw [rejectsIn, FileSystem.resolve?_eq_of_at?_eq_some h]
  exact if_pos hnode

theorem eq_nil_of_rejectsIn (hnone : ¬files.IsDirectory rejects)
    (h : rejectsIn rejects files = .ok paths) : paths = [] := by
  unfold rejectsIn at h
  cases hresolve : files.resolve? rejects with
  | none =>
    rw [hresolve] at h
    exact (Except.ok.inj h).symm
  | some location =>
    have hnode : files.node? location ≠ some .directory := fun hnode =>
      hnone (by rwa [FileSystem.IsDirectory, FileSystem.at?, hresolve])
    simp only [hresolve, if_neg hnode] at h
    cases h

/-- What can be listed. -/
theorem rejectsIn_cases (h : rejectsIn rejects files = .ok paths) :
    ¬files.IsDirectory rejects ∧ paths = [] ∨ files.IsDirectory rejects ∧
      paths = ((files.inside (files.destination rejects)).filter
        fun entry => IsReject rejects entry).map fun entry => rejectPath rejects entry.1 := by
  by_cases hdirectory : files.IsDirectory rejects
  · rw [rejectsIn_of_isDirectory hdirectory] at h
    exact .inr ⟨hdirectory, (Except.ok.inj h).symm⟩
  · exact .inl ⟨hdirectory, eq_nil_of_rejectsIn hdirectory h⟩

section Listing

variable {names : List String} {node : Node}

/-- The names inside a directory of a tree can be told apart in paths. -/
theorem slash_notMem_of_mem_inside (htree : files.IsTree) {directory : Location}
    (h : (names, node) ∈ files.inside directory) : ∀ name ∈ names, '/' ∉ name.toList := by
  intro name hname
  have hmem := (FileSystem.mem_inside_iff.mp h).2
  have hlocation : name ∈ names.reverse ++ directory :=
    List.mem_append_left _ (List.mem_reverse.mpr hname)
  exact (htree.isProper _ hmem name hlocation).slash_notMem

/-- The directory that holds what lies inside another one is that one or inside. -/
theorem dropLast_mem_inside (htree : files.IsTree) {directory : Location}
    (h : (names, node) ∈ files.inside directory) (hdrop : names.dropLast ≠ []) :
    (names.dropLast, .directory) ∈ files.inside directory := by
  obtain ⟨hne, hmem⟩ := FileSystem.mem_inside_iff.mp h
  have htail : (names.reverse ++ directory).tail = names.dropLast.reverse ++ directory := by
    rw [List.tail_append_of_ne_nil (by simpa using hne), List.tail_reverse]
  have habove := htree.above _ hmem
  rw [htail] at habove
  exact FileSystem.mem_inside_iff.mpr ⟨hdrop, habove.resolve_left (by simp [hdrop])⟩

/-- In a shallow directory, files are rejects and nothing else. -/
theorem isReject_iff (htree : files.IsTree) (hdirectory : files.IsDirectory rejects)
    (hshallow : IsShallow files rejects)
    (h : (names, node) ∈ files.inside (files.destination rejects)) :
    IsReject rejects (names, node) ↔ node ≠ .directory := by
  have habove : names.dropLast = [] ∨ Path.IsUsable (rejectPath rejects names.dropLast) := by
    by_cases hdrop : names.dropLast = []
    · exact .inl hdrop
    · exact .inr (hshallow hdirectory _ (dropLast_mem_inside htree h hdrop))
  constructor
  · rintro ⟨-, hnode | hself⟩
    · exact hnode
    · rintro rfl
      exact hself (hshallow hdirectory _ h)
  · exact fun hnode => ⟨habove, .inl hnode⟩

theorem mem_rejectsIn_iff (htree : files.IsTree) (hshallow : IsShallow files rejects)
    (h : rejectsIn rejects files = .ok paths) :
    path ∈ paths ↔ ∃ location content, LiesIn files rejects path location ∧
      files.file? location = some content := by
  obtain ⟨hnone, rfl⟩ | ⟨hdirectory, rfl⟩ := rejectsIn_cases h
  · exact ⟨nofun, fun ⟨_, _, hlies, _⟩ => absurd hlies.1 hnone⟩
  · simp only [List.mem_map, List.mem_filter, decide_eq_true_iff]
    constructor
    · rintro ⟨⟨names, node⟩, ⟨hinside, hreject⟩, rfl⟩
      obtain ⟨hne, hmem⟩ := FileSystem.mem_inside_iff.mp hinside
      have hnode := (isReject_iff htree hdirectory hshallow hinside).mp hreject
      cases node with
      | directory => exact absurd rfl hnode
      | file content =>
        exact ⟨_, content, ⟨hdirectory, names, hne, rfl, rfl⟩,
          htree.file?_eq_some_iff_mem.mpr hmem⟩
    · rintro ⟨_, content, ⟨-, names, hne, rfl, rfl⟩, hfile⟩
      have hinside := FileSystem.mem_inside_iff.mpr ⟨hne, htree.file?_eq_some_iff_mem.mp hfile⟩
      exact ⟨_, ⟨hinside, (isReject_iff htree hdirectory hshallow hinside).mpr nofun⟩, rfl⟩

/-- The first directory that cannot be looked into is itself a reject. -/
theorem isShallow_of_forall_mem (htree : files.IsTree) (h : rejectsIn rejects files = .ok paths)
    (hfiles : ∀ path ∈ paths, ∃ location content, LiesIn files rejects path location ∧
      files.file? location = some content) : IsShallow files rejects := by
  intro hdirectory names hinside
  obtain ⟨hnone, -⟩ | ⟨-, rfl⟩ := rejectsIn_cases h
  · exact absurd hdirectory hnone
  · induction names using List.reverseRecOn with
    | nil => exact absurd rfl (FileSystem.mem_inside_iff.mp hinside).1
    | append_singleton front name ih =>
      by_contra hself
      have habove : front = [] ∨ Path.IsUsable (rejectPath rejects front) := by
        refine or_iff_not_imp_left.mpr fun hfront => ih ?_
        have hdrop := dropLast_mem_inside htree hinside (by simpa using hfront)
        rwa [List.dropLast_concat] at hdrop
      have hreject : IsReject rejects (front ++ [name], .directory) :=
        ⟨by rwa [List.dropLast_concat], .inr hself⟩
      obtain ⟨_, content, ⟨-, names, hne, hpath, rfl⟩, hfile⟩ := hfiles _ (List.mem_map.mpr
        ⟨_, List.mem_filter.mpr ⟨hinside, decide_eq_true hreject⟩, rfl⟩)
      have hother := FileSystem.mem_inside_iff.mpr ⟨hne, htree.file?_eq_some_iff_mem.mp hfile⟩
      obtain rfl : front ++ [name] = names :=
        Path.child_join_inj (FileSystem.mem_inside_iff.mp hinside).1
          (slash_notMem_of_mem_inside htree hinside) hne
          (slash_notMem_of_mem_inside htree hother) hpath
      cases (htree.node?_eq_of_mem (FileSystem.mem_inside_iff.mp hinside).2).symm.trans
        (FileSystem.file?_eq_some_iff.mp hfile)

theorem nodup_rejectsIn (htree : files.IsTree) (h : rejectsIn rejects files = .ok paths) :
    paths.Nodup := by
  obtain ⟨-, rfl⟩ | ⟨-, rfl⟩ := rejectsIn_cases h
  · exact List.nodup_nil
  · have hnames : ((files.inside (files.destination rejects)).map (·.1)).Nodup :=
      htree.nodup_inside
    refine List.Nodup.map_on (fun first hfirst second hsecond heq => ?_) (hnames.of_map.filter _)
    have hfirst := List.mem_of_mem_filter hfirst
    have hsecond := List.mem_of_mem_filter hsecond
    refine List.inj_on_of_nodup_map hnames hfirst hsecond ?_
    exact Path.child_join_inj (FileSystem.mem_inside_iff.mp hfirst).1
      (slash_notMem_of_mem_inside htree hfirst) (FileSystem.mem_inside_iff.mp hsecond).1
      (slash_notMem_of_mem_inside htree hsecond) heq

theorem pairwise_rejectsIn (htree : files.IsTree) (h : rejectsIn rejects files = .ok paths) :
    paths.Pairwise fun first second =>
      Text.namesLe (Path.segments first) (Path.segments second) = true := by
  obtain ⟨-, rfl⟩ | ⟨-, rfl⟩ := rejectsIn_cases h
  · exact .nil
  · rw [List.pairwise_map]
    refine (FileSystem.pairwise_inside.filter _).imp_of_mem ?_
    intro first second hfirst hsecond hle
    have hfirst := List.mem_of_mem_filter hfirst
    have hsecond := List.mem_of_mem_filter hsecond
    rwa [rejectPath, rejectPath, Text.namesLe_segments_child_iff
      (FileSystem.mem_inside_iff.mp hfirst).1 (slash_notMem_of_mem_inside htree hfirst)
      (FileSystem.mem_inside_iff.mp hsecond).1 (slash_notMem_of_mem_inside htree hsecond)]

/-- **The rejects are the files in their directory, each once and in order.** -/
theorem lists_of_rejectsIn (htree : files.IsTree) (h : rejectsIn rejects files = .ok paths) :
    Lists files rejects paths where
  mem_iff := ⟨fun hfiles => isShallow_of_forall_mem htree h fun path => (hfiles path).mp,
    fun hshallow _ => mem_rejectsIn_iff htree hshallow h⟩
  nodup := nodup_rejectsIn htree h
  sorted := pairwise_rejectsIn htree h

end Listing

/-- **No file that is there after a run was there when the tool started.** -/
theorem file?_eq_none_of_liesIn (hlauncher : launcher.KeepsTrees) (htree : files.IsTree)
    (hrejects : files.Exists rejects ∨ ".." ∉ Path.segments rejects)
    (hclear : (clearRejects rejects).perform files = (atStart, .ok ()))
    {code : Option Int} (hrun : tool.launch launcher request atStart = some (after, code))
    (hlies : LiesIn after rejects path location) : atStart.file? location = none := by
  have hstart : atStart.workingDirectory = files.workingDirectory :=
    (loses_of_clearRejects hclear).workingDirectory_eq
  have hafter : after.workingDirectory = atStart.workingDirectory :=
    (hlauncher _ _ _ _ _ hrun (isTree_of_clearRejects htree hclear)).2
  obtain ⟨hdirectory, names, hne, -, rfl⟩ := hlies
  rw [FileSystem.destination_eq (hafter.trans hstart)]
  have husable := (FileSystem.at?_eq_some_iff.mp hdirectory).1
  refine file?_eq_none_of_clearRejects htree hrejects husable hclear
    ⟨List.suffix_append _ _, ?_⟩
  simpa using hne

end Patches

end AccessTransformer
