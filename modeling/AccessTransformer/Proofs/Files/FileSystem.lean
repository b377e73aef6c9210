import AccessTransformer.Files.FileSystem
import Mathlib.Data.List.Basic
import Mathlib.Tactic.SplitIfs

/-!
# What changes in a file system and what stays

Files are put under paths and directories are made on the way, but nothing that exists goes away, so
a path that led somewhere still leads there.  A directory is only made where nothing is, so no file
changes either.

* `Extends`: nothing has gone.
* `Extends.resolve?_eq_some`: paths lead where they led.
* `createDirectory_spec`: what making directories does, and when it has nothing to do.
* `resolve?_put_of_target?`: a file that is put under a path is there.
-/

namespace AccessTransformer.FileSystem

variable {files after : FileSystem} {location other : Location} {node : Node} {path : String}

/-! ## Nodes -/

theorem lookup_filter (nodes : List (Location × Node)) (Keep : Location → Prop)
    [DecidablePred Keep] :
    (nodes.filter fun entry => Keep entry.1).lookup location
      = if Keep location then nodes.lookup location else none := by
  induction nodes with
  | nil => simp
  | cons entry nodes ih =>
    by_cases hentry : Keep entry.1
    · rw [List.filter_cons_of_pos (by simpa using hentry), List.lookup_cons, List.lookup_cons, ih]
      split
      · rename_i heq
        rw [eq_of_beq heq, if_pos hentry]
      · rfl
    · rw [List.filter_cons_of_neg (by simpa using hentry), ih]
      split_ifs with hlocation
      · have hne : (location == entry.1) = false :=
          beq_eq_false_iff_ne.mpr fun heq => hentry (heq ▸ hlocation)
        rw [List.lookup_cons, hne]
      · rfl

/-- A location without a directory is neither the root nor the working directory. -/
theorem ne_of_node?_ne_directory (h : files.node? location ≠ some .directory) :
    ¬(location = [] ∨ location = files.workingDirectory) :=
  fun heq => h (if_pos heq)

theorem node?_put (h : files.node? location ≠ some .directory) :
    (files.put location node).node? other
      = if other = location then some node else files.node? other := by
  have hne := ne_of_node?_ne_directory h
  have hlookup : (files.put location node).nodes.lookup other
      = if other = location then some node else files.nodes.lookup other := by
    unfold put
    split_ifs with heq
    · rw [heq, List.lookup_cons_self]
    · rw [List.lookup_cons, beq_eq_false_iff_ne.mpr heq]
      exact (lookup_filter files.nodes (· ≠ location)).trans (if_pos heq)
  unfold node?
  rw [hlookup]
  show (if other = [] ∨ other = files.workingDirectory then _ else _) = _
  split_ifs with hfixed heq
  · exact absurd (heq ▸ hfixed) hne
  · rfl
  · rfl
  · rfl

/-- Wherever something is, it is fixed there or has an entry. -/
theorem mem_of_node?_ne_none (h : files.node? location ≠ none) :
    location = [] ∨ location = files.workingDirectory ∨ location ∈ files.nodes.map (·.1) := by
  unfold node? at h
  split_ifs at h with hfixed
  · exact hfixed.imp_right .inl
  · rw [ne_eq, List.lookup_eq_none_iff, not_forall] at h
    obtain ⟨entry, h⟩ := h
    rw [Classical.not_imp, bne_iff_ne, not_not] at h
    exact .inr (.inr (h.2 ▸ List.mem_map_of_mem h.1))

/-- What is put twice is there as it was put last. -/
theorem put_put (node' : Node) :
    (files.put location node).put location node' = files.put location node' := by
  simp [put, List.filter_filter]

/-- What is put where nothing was and removed leaves nothing behind. -/
theorem remove_put (h : files.node? location = none) :
    (files.put location node).remove location = files := by
  have hlookup : files.nodes.lookup location = none := by
    have hne := ne_of_node?_ne_directory (by rw [h]; exact nofun)
    rwa [node?, if_neg hne] at h
  have hfilter : (files.nodes.filter fun entry => entry.1 ≠ location) = files.nodes := by
    rw [List.filter_eq_self]
    intro entry hentry
    have hne := List.lookup_eq_none_iff.mp hlookup entry hentry
    rw [bne_iff_ne] at hne
    exact decide_eq_true hne.symm
  show { files with nodes := List.filter _ ((location, node) :: List.filter _ files.nodes) } = files
  rw [hfilter, List.filter_cons_of_neg (by simp), hfilter]

/-- The content of the file at a location. -/
def file? (files : FileSystem) (location : Location) : Option Content :=
  match files.node? location with
  | some (.file content) => some content
  | _ => none

theorem file?_eq_some_iff {content : Content} :
    files.file? location = some content ↔ files.node? location = some (.file content) := by
  unfold file?
  split
  · rename_i heq
    simp [heq]
  · rename_i hne
    exact ⟨nofun, fun heq => absurd heq (hne content)⟩

theorem file?_eq_of_node?_eq (h : after.node? location = files.node? location) :
    after.file? location = files.file? location := by
  rw [file?, file?, h]

/-- A new directory changes no file. -/
theorem file?_put_directory (h : files.node? location = none) :
    (files.put location .directory).file? other = files.file? other := by
  have hput : (files.put location .directory).node? other
      = if other = location then some .directory else files.node? other :=
    node?_put (by rw [h]; nofun)
  by_cases heq : other = location
  · rw [file?, file?, hput, if_pos heq, heq, h]
  · exact file?_eq_of_node?_eq (hput.trans (if_neg heq))

theorem file?_put_file {content : Content} (h : files.node? location ≠ some .directory) :
    (files.put location (.file content)).file? other
      = if other = location then some content else files.file? other := by
  have hput : (files.put location (.file content)).node? other
      = if other = location then some (.file content) else files.node? other := node?_put h
  split_ifs at hput ⊢ with heq
  · rw [file?, hput]
  · exact file?_eq_of_node?_eq hput

/-! ## Nothing goes -/

/-- Whether a file system has all directories of another one, and something wherever that has
something. -/
structure Extends (files after : FileSystem) : Prop where
  workingDirectory : after.workingDirectory = files.workingDirectory
  refused : after.refused = files.refused
  directory : ∀ {location}, files.node? location = some .directory →
    after.node? location = some .directory
  present : ∀ {location}, files.node? location ≠ none → after.node? location ≠ none

theorem Extends.refl (files : FileSystem) : files.Extends files := ⟨rfl, rfl, id, id⟩

theorem Extends.trans {later : FileSystem} (h : files.Extends after) (h' : after.Extends later) :
    files.Extends later :=
  ⟨h'.workingDirectory.trans h.workingDirectory, h'.refused.trans h.refused,
    fun hdirectory => h'.directory (h.directory hdirectory),
    fun hpresent => h'.present (h.present hpresent)⟩

/-- Nothing goes where no directory is put upon. -/
theorem extends_put (h : files.node? location ≠ some .directory) :
    files.Extends (files.put location node) where
  workingDirectory := rfl
  refused := rfl
  directory {other} hother := by
    rw [node?_put h, if_neg (by rintro rfl; exact h hother), hother]
  present {other} hother := by
    rw [node?_put h]
    split_ifs
    · nofun
    · exact hother

theorem Extends.refuses_iff (h : files.Extends after) {operation : Operation} :
    after.Refuses operation location ↔ files.Refuses operation location := by
  rw [Refuses, Refuses, h.refused]

section Follow

variable {segment : String} {segments : List String}

theorem follow?_idle (h : files.node? location = some .directory) (hidle : Path.IsIdle segment) :
    files.follow? location (segment :: segments) = files.follow? location segments := by
  rw [follow?, if_neg (not_not_intro h), if_pos hidle]

theorem follow?_up (h : files.node? location = some .directory) :
    files.follow? location (".." :: segments) = files.follow? location.tail segments := by
  rw [follow?, if_neg (not_not_intro h), if_neg (by decide), if_pos rfl]

theorem follow?_name (h : files.node? location = some .directory) (hidle : ¬Path.IsIdle segment)
    (hup : segment ≠ "..") (hpresent : files.node? (segment :: location) ≠ none) :
    files.follow? location (segment :: segments)
      = files.follow? (segment :: location) segments := by
  rw [follow?, if_neg (not_not_intro h), if_neg hidle, if_neg hup, if_neg hpresent]

theorem Extends.follow?_eq_some (h : files.Extends after)
    (hfollow : files.follow? location segments = some other) :
    after.follow? location segments = some other := by
  fun_induction follow? files location segments with
  | case1 => exact hfollow
  | case2 => cases hfollow
  | case3 location segment segments hdirectory hidle ih =>
    rw [follow?_idle (h.directory (not_not.mp hdirectory)) hidle]
    exact ih hfollow
  | case4 location segments hdirectory hidle ih =>
    rw [follow?_up (h.directory (not_not.mp hdirectory))]
    exact ih hfollow
  | case5 => cases hfollow
  | case6 location segment segments hdirectory hidle hup hpresent ih =>
    rw [follow?_name (h.directory (not_not.mp hdirectory)) hidle hup (h.present hpresent)]
    exact ih hfollow

end Follow

theorem Extends.start_eq (h : files.Extends after) : after.start path = files.start path := by
  rw [start, start, h.workingDirectory]

/-- **Where nothing has gone, paths lead where they led.** -/
theorem Extends.resolve?_eq_some (h : files.Extends after)
    (hresolve : files.resolve? path = some location) : after.resolve? path = some location := by
  unfold resolve? at hresolve ⊢
  split_ifs at hresolve ⊢ with husable
  rw [h.start_eq]
  exact h.follow?_eq_some hresolve

theorem read?_eq_bind : files.read? path = (files.resolve? path).bind files.file? := by
  unfold read? at? file?
  cases files.resolve? path <;> rfl

/-- A file that is as it was is read as it was. -/
theorem Extends.read?_eq_some (h : files.Extends after) {content : Content}
    (hread : files.read? path = some content)
    (hfile : ∀ location, files.resolve? path = some location →
      after.file? location = files.file? location) : after.read? path = some content := by
  rw [read?_eq_bind, Option.bind_eq_some_iff] at hread ⊢
  obtain ⟨location, hresolve, hcontent⟩ := hread
  exact ⟨location, h.resolve?_eq_some hresolve, (hfile location hresolve).trans hcontent⟩

/-! ## Directories -/

/-- Making directories adds them and nothing else. -/
theorem createDirectories_spec {segments : List String} {done : Bool}
    (h : files.createDirectories location segments = (after, done)) :
    files.Extends after ∧ ∀ other, after.file? other = files.file? other := by
  fun_induction createDirectories files location segments with
  | case1 => exact (Prod.mk.inj h).1 ▸ ⟨.refl _, fun _ => rfl⟩
  | case2 => exact (Prod.mk.inj h).1 ▸ ⟨.refl _, fun _ => rfl⟩
  | case3 _ _ _ _ _ _ ih => exact ih h
  | case4 _ _ _ _ _ ih => exact ih h
  | case5 _ _ _ _ _ _ _ _ ih => exact ih h
  | case6 => exact (Prod.mk.inj h).1 ▸ ⟨.refl _, fun _ => rfl⟩
  | case7 files location segment segments _ _ _ hnone _ ih =>
    obtain ⟨hextends, hfiles⟩ := ih h
    have hput : files.Extends (files.put (segment :: location) .directory) :=
      extends_put (by rw [hnone]; nofun)
    exact ⟨hput.trans hextends, fun other => (hfiles other).trans (file?_put_directory hnone)⟩
  | case8 => exact (Prod.mk.inj h).1 ▸ ⟨.refl _, fun _ => rfl⟩

/-- If making directories succeeds, there is a directory at the end of the way. -/
theorem exists_of_createDirectories {segments : List String}
    (h : files.createDirectories location segments = (after, true)) :
    ∃ directory, after.follow? location segments = some directory ∧
      after.node? directory = some .directory := by
  have hextends := (createDirectories_spec h).1
  fun_induction createDirectories files location segments with
  | case1 files location =>
    obtain ⟨rfl, hdirectory⟩ := Prod.mk.inj h
    exact ⟨location, rfl, of_decide_eq_true hdirectory⟩
  | case2 => cases (Prod.mk.inj h).2
  | case3 files location segment segments hdirectory hidle ih =>
    rw [follow?_idle (hextends.directory (not_not.mp hdirectory)) hidle]
    exact ih h hextends
  | case4 files location segments hdirectory hidle ih =>
    rw [follow?_up (hextends.directory (not_not.mp hdirectory))]
    exact ih h hextends
  | case5 files location segment segments hdirectory hidle hup hnext ih =>
    have hpresent : after.node? (segment :: location) ≠ none :=
      hextends.present (by rw [hnext]; nofun)
    rw [follow?_name (hextends.directory (not_not.mp hdirectory)) hidle hup hpresent]
    exact ih h hextends
  | case6 => cases (Prod.mk.inj h).2
  | case7 files location segment segments hdirectory hidle hup hnone hname ih =>
    have hlater := (createDirectories_spec h).1
    have hmade : (files.put (segment :: location) .directory).node? (segment :: location)
        = some .directory := (node?_put (by rw [hnone]; nofun)).trans (if_pos rfl)
    have hpresent : after.node? (segment :: location) ≠ none :=
      hlater.present (by rw [hmade]; nofun)
    rw [follow?_name (hextends.directory (not_not.mp hdirectory)) hidle hup hpresent]
    exact ih h hlater
  | case8 => cases (Prod.mk.inj h).2

/-- Where the way leads to a directory already, there is nothing to make. -/
theorem createDirectories_eq_self {segments : List String} {directory : Location}
    (h : files.follow? location segments = some directory)
    (hdirectory : files.node? directory = some .directory) :
    files.createDirectories location segments = (files, true) := by
  fun_induction follow? files location segments with
  | case1 location =>
    obtain rfl := Option.some.inj h
    rw [createDirectories, hdirectory]
    simp
  | case2 => cases h
  | case3 location segment segments hstart hidle ih =>
    rw [createDirectories, if_neg hstart, if_pos hidle]
    exact ih h
  | case4 location segments hstart hidle ih =>
    rw [createDirectories, if_neg hstart, if_neg hidle, if_pos rfl]
    exact ih h
  | case5 => cases h
  | case6 location segment segments hstart hidle hup hpresent ih =>
    rw [createDirectories, if_neg hstart, if_neg hidle, if_neg hup]
    split
    · exact ih h
    · -- behind a file the way is at its end, and that is no directory
      rename_i content hfile
      cases segments with
      | nil =>
        obtain rfl := Option.some.inj h
        cases hfile.symm.trans hdirectory
      | cons next segments =>
        rw [follow?, if_pos (by rw [hfile]; nofun)] at h
        cases h
    · rename_i hnone
      exact absurd hnone hpresent

/-- Making a directory under a path, and what is there when that succeeds. -/
theorem createDirectory_spec {done : Bool} (h : files.createDirectory path = (after, done)) :
    files.Extends after ∧ (∀ other, after.file? other = files.file? other) ∧
      (done = true → ∃ directory, after.resolve? path = some directory ∧
        after.node? directory = some .directory) := by
  unfold createDirectory at h
  split_ifs at h with husable
  · obtain ⟨hextends, hfiles⟩ := createDirectories_spec h
    refine ⟨hextends, hfiles, ?_⟩
    rintro rfl
    obtain ⟨directory, hfollow, hdirectory⟩ := exists_of_createDirectories h
    refine ⟨directory, ?_, hdirectory⟩
    rw [resolve?, if_pos husable, hextends.start_eq]
    exact hfollow
  · obtain ⟨rfl, rfl⟩ := Prod.mk.inj h
    exact ⟨.refl _, fun _ => rfl, nofun⟩

theorem createDirectory_eq_self {directory : Location} (h : files.resolve? path = some directory)
    (hdirectory : files.node? directory = some .directory) :
    files.createDirectory path = (files, true) := by
  unfold resolve? at h
  split_ifs at h with husable
  rw [createDirectory, if_pos husable]
  exact createDirectories_eq_self h hdirectory

/-! ## Targets -/

/-- Whether a file can get under a path, with this name into this directory. -/
structure Leads (files : FileSystem) (path name : String) (directory : Location) : Prop where
  getLast?_eq : (Path.segments path).getLast? = some name
  not_idle : ¬Path.IsIdle name
  ne_up : name ≠ ".."
  isName : IsName name
  usable : Path.IsUsable path
  follow?_eq :
    files.follow? (files.start path) (Path.segments path).dropLast = some directory
  node?_eq : files.node? directory = some .directory
  node?_ne : files.node? (name :: directory) ≠ some .directory
  not_refused : ¬files.Refuses .rename directory

theorem target?_eq_some_iff {target : Location} :
    files.target? path = some target ↔
      ∃ name directory, files.Leads path name directory ∧ target = name :: directory := by
  constructor
  · intro h
    unfold target? at h
    split at h
    · cases h
    · rename_i name hname
      split_ifs at h with hunfit
      simp only [not_or, not_not] at hunfit
      obtain ⟨hidle, hup, hisName, husable⟩ := hunfit
      split at h
      · cases h
      · rename_i directory hfollow
        split_ifs at h with hdirectory htaken hrefused
        exact ⟨name, directory, ⟨hname, hidle, hup, hisName, husable, hfollow,
          not_not.mp hdirectory, htaken, hrefused⟩, (Option.some.inj h).symm⟩
  · rintro ⟨name, directory, h, rfl⟩
    have hfit : ¬(Path.IsIdle name ∨ name = ".." ∨ ¬IsName name ∨ ¬Path.IsUsable path) := by
      simp [h.not_idle, h.ne_up, h.isName, h.usable]
    simp only [target?, h.getLast?_eq, if_neg hfit, h.follow?_eq,
      if_neg (not_not_intro h.node?_eq), if_neg h.node?_ne, if_neg h.not_refused]

/-- A path leads a file where it led it, as long as there is no directory instead. -/
theorem Extends.leads {name : String} {directory : Location} (h : files.Extends after)
    (hleads : files.Leads path name directory)
    (hnode : after.node? (name :: directory) ≠ some .directory) :
    after.Leads path name directory where
  getLast?_eq := hleads.getLast?_eq
  not_idle := hleads.not_idle
  ne_up := hleads.ne_up
  isName := hleads.isName
  usable := hleads.usable
  follow?_eq := by
    rw [h.start_eq]
    exact h.follow?_eq_some hleads.follow?_eq
  node?_eq := h.directory hleads.node?_eq
  node?_ne := hnode
  not_refused := mt h.refuses_iff.mp hleads.not_refused

theorem node?_ne_of_target? {target : Location} (h : files.target? path = some target) :
    files.node? target ≠ some .directory := by
  obtain ⟨name, directory, hleads, rfl⟩ := target?_eq_some_iff.mp h
  exact hleads.node?_ne

/-- A way with one more name at its end. -/
theorem follow?_append_name {segments : List String} {name : String} {directory : Location}
    (h : files.follow? location segments = some directory)
    (hdirectory : files.node? directory = some .directory) (hidle : ¬Path.IsIdle name)
    (hup : name ≠ "..") (hpresent : files.node? (name :: directory) ≠ none) :
    files.follow? location (segments ++ [name]) = some (name :: directory) := by
  fun_induction follow? files location segments with
  | case1 location =>
    obtain rfl := Option.some.inj h
    rw [List.nil_append, follow?_name hdirectory hidle hup hpresent, follow?]
  | case2 => cases h
  | case3 location segment segments hstart hidle' ih =>
    rw [List.cons_append, follow?_idle (not_not.mp hstart) hidle']
    exact ih h
  | case4 location segments hstart hidle' ih =>
    rw [List.cons_append, follow?_up (not_not.mp hstart)]
    exact ih h
  | case5 => cases h
  | case6 location segment segments hstart hidle' hup' hpresent' ih =>
    rw [List.cons_append, follow?_name (not_not.mp hstart) hidle' hup' hpresent']
    exact ih h

/-- **A file that is put under a path is what the path names.** -/
theorem resolve?_put_of_target? {target : Location} {content : Content}
    (h : files.target? path = some target) :
    (files.put target (.file content)).resolve? path = some target := by
  have hextends : files.Extends (files.put target (.file content)) :=
    extends_put (node?_ne_of_target? h)
  have hput : (files.put target (.file content)).node? target = some (.file content) :=
    (node?_put (node?_ne_of_target? h)).trans (if_pos rfl)
  obtain ⟨name, directory, hleads, rfl⟩ := target?_eq_some_iff.mp h
  have hlater := hextends.leads hleads (by rw [hput]; nofun)
  rw [resolve?, if_pos hlater.usable,
    ← List.dropLast_append_getLast? name hlater.getLast?_eq]
  exact follow?_append_name hlater.follow?_eq hlater.node?_eq hlater.not_idle hlater.ne_up
    (by rw [hput]; nofun)

/-- What was put under a path can be put there again. -/
theorem target?_put_of_target? {target : Location} {content : Content}
    (h : files.target? path = some target) :
    (files.put target (.file content)).target? path = some target := by
  have hextends : files.Extends (files.put target (.file content)) :=
    extends_put (node?_ne_of_target? h)
  have hput : (files.put target (.file content)).node? target = some (.file content) :=
    (node?_put (node?_ne_of_target? h)).trans (if_pos rfl)
  obtain ⟨name, directory, hleads, rfl⟩ := target?_eq_some_iff.mp h
  exact target?_eq_some_iff.mpr
    ⟨name, directory, hextends.leads hleads (by rw [hput]; nofun), rfl⟩

end AccessTransformer.FileSystem
