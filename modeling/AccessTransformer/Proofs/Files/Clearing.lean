import AccessTransformer.Proofs.Files.FileSystem

/-!
# Ways of paths, and what clearing takes

Where a path leads is a matter of its segments; the file system only says whether the way is open,
that is whether there is a directory wherever a segment starts.  So what a path names after some of
the files have gone can be told from its way and its destination.

Clearing a path takes what its directory holds.  The directory goes with it unless it is the root or
the working directory, or the way led through what was taken.

* `at?_eq_some_iff`: what a path names, by its way and its destination.
* `Loses.at?_eq_some_iff`: what a path names when some of the files have gone.
* `Loses.keeps_iff`: whether it still holds all of its files then.
* `loses_of_clear_eq_ok`: what clearing takes.
-/

namespace AccessTransformer.FileSystem

variable {files after : FileSystem} {location other : Location} {node : Node} {path : String}
  {segments : List String}

/-! ## Ways -/

/-- Where a segment leads from a location. -/
def stepTo (location : Location) (segment : String) : Location :=
  if Path.IsIdle segment then location
  else if segment = ".." then location.tail
  else segment :: location

/-- The locations where segments start, from the first one on. -/
def passed (location : Location) : List String → List Location
  | [] => []
  | segment :: segments => location :: passed (stepTo location segment) segments

/-- Where a path leads, if its way is open. -/
def destination (files : FileSystem) (path : String) : Location :=
  (Path.segments path).foldl stepTo (files.start path)

/-- The locations on the way of a path. -/
def way (files : FileSystem) (path : String) : List Location :=
  passed (files.start path) (Path.segments path)

theorem eq_foldl_of_follow? (h : files.follow? location segments = some other) :
    other = segments.foldl stepTo location := by
  fun_induction follow? files location segments with
  | case1 => exact (Option.some.inj h).symm
  | case2 => cases h
  | case3 location segment segments _ hidle ih =>
    rw [List.foldl_cons, stepTo, if_pos hidle]
    exact ih h
  | case4 location segments _ hidle ih =>
    rw [List.foldl_cons, stepTo, if_neg hidle, if_pos rfl]
    exact ih h
  | case5 => cases h
  | case6 location segment segments _ hidle hup _ ih =>
    rw [List.foldl_cons, stepTo, if_neg hidle, if_neg hup]
    exact ih h

theorem eq_destination_of_resolve? (h : files.resolve? path = some location) :
    location = files.destination path := by
  unfold resolve? at h
  split_ifs at h
  exact eq_foldl_of_follow? h

/-- An open way that leads to something starts at something. -/
theorem node?_ne_none_of_passed
    (hway : ∀ stop ∈ passed location segments, files.node? stop = some .directory)
    (hnode : files.node? (segments.foldl stepTo location) = some node) :
    files.node? location ≠ none := by
  cases segments with
  | nil => exact Option.ne_none_iff_exists'.mpr ⟨node, hnode⟩
  | cons segment segments =>
    exact Option.ne_none_iff_exists'.mpr ⟨.directory, hway _ List.mem_cons_self⟩

theorem follow?_bind_node?_eq_some_iff :
    (files.follow? location segments).bind files.node? = some node ↔
      (∀ stop ∈ passed location segments, files.node? stop = some .directory) ∧
        files.node? (segments.foldl stepTo location) = some node := by
  fun_induction follow? files location segments with
  | case1 => simp [passed]
  | case2 location segment segments hclosed => simp [passed, hclosed]
  | case3 location segment segments hopen hidle ih =>
    simp [passed, stepTo, hidle, not_not.mp hopen, ih]
  | case4 location segments hopen hidle ih =>
    simp [passed, stepTo, hidle, not_not.mp hopen, ih]
  | case5 location segment segments hopen hidle hup hnone =>
    have hstep : stepTo location segment = segment :: location := by
      rw [stepTo, if_neg hidle, if_neg hup]
    constructor
    · intro h
      cases h
    · rintro ⟨hway, hnode⟩
      rw [passed, List.forall_mem_cons] at hway
      rw [List.foldl_cons] at hnode
      exact absurd hnone (hstep ▸ node?_ne_none_of_passed hway.2 hnode)
  | case6 location segment segments hopen hidle hup _ ih =>
    simp [passed, stepTo, hidle, hup, not_not.mp hopen, ih]

/-- **A path names what is at its destination, if there are directories all the way.** -/
theorem at?_eq_some_iff :
    files.at? path = some node ↔
      Path.IsUsable path ∧ (∀ stop ∈ files.way path, files.node? stop = some .directory) ∧
        files.node? (files.destination path) = some node := by
  rw [at?, resolve?]
  split_ifs with husable
  · rw [and_iff_right husable]
    exact follow?_bind_node?_eq_some_iff
  · simp [husable]

theorem resolve?_eq_of_at?_eq_some (h : files.at? path = some node) :
    files.resolve? path = some (files.destination path) := by
  obtain ⟨location, hresolve, -⟩ := Option.bind_eq_some_iff.mp h
  rw [hresolve, eq_destination_of_resolve? hresolve]

theorem exists_iff : files.Exists path ↔ ∃ node, files.at? path = some node :=
  Option.ne_none_iff_exists'

/-- Where a path leads depends on the working directory, but on nothing else. -/
theorem destination_eq (h : after.workingDirectory = files.workingDirectory) :
    after.destination path = files.destination path := by
  rw [destination, destination, start, start, h]

theorem way_eq (h : after.workingDirectory = files.workingDirectory) :
    after.way path = files.way path := by
  rw [way, way, start, start, h]

/-! ## Losses -/

/-- Whether files are left of others when what is at some locations goes. -/
structure Loses (files : FileSystem) (Gone : Location → Prop) (after : FileSystem) : Prop where
  workingDirectory_eq : after.workingDirectory = files.workingDirectory
  node?_eq_none : ∀ {location}, Gone location → after.node? location = none
  node?_eq : ∀ {location}, ¬Gone location → after.node? location = files.node? location

section Loses

variable {Gone Gone' : Location → Prop} {between : FileSystem}

theorem Loses.refl (h : ∀ location, ¬Gone location) : files.Loses Gone files :=
  ⟨rfl, fun hgone => absurd hgone (h _), fun _ => rfl⟩

theorem Loses.trans (h : files.Loses Gone between) (h' : between.Loses Gone' after) :
    files.Loses (fun location => Gone location ∨ Gone' location) after where
  workingDirectory_eq := h'.workingDirectory_eq.trans h.workingDirectory_eq
  node?_eq_none {location} hgone := by
    by_cases hgone' : Gone' location
    · exact h'.node?_eq_none hgone'
    · exact (h'.node?_eq hgone').trans (h.node?_eq_none (hgone.resolve_right hgone'))
  node?_eq hkept := by
    rw [not_or] at hkept
    exact (h'.node?_eq hkept.2).trans (h.node?_eq hkept.1)

theorem Loses.congr (h : files.Loses Gone after)
    (hiff : ∀ location, Gone location ↔ Gone' location) : files.Loses Gone' after :=
  ⟨h.workingDirectory_eq, fun hgone => h.node?_eq_none ((hiff _).mpr hgone),
    fun hkept => h.node?_eq (mt (hiff _).mp hkept)⟩

theorem Loses.node?_eq_some_iff (h : files.Loses Gone after) :
    after.node? location = some node ↔ files.node? location = some node ∧ ¬Gone location := by
  by_cases hgone : Gone location
  · simp [h.node?_eq_none hgone, hgone]
  · simp [h.node?_eq hgone, hgone]

theorem Loses.file?_eq_none (h : files.Loses Gone after) (hgone : Gone location) :
    after.file? location = none := by
  rw [file?, h.node?_eq_none hgone]

/-- **A path names what it named if neither its way nor its destination is lost.** -/
theorem Loses.at?_eq_some_iff (h : files.Loses Gone after) :
    after.at? path = some node ↔ files.at? path = some node ∧
      (∀ stop ∈ files.way path, ¬Gone stop) ∧ ¬Gone (files.destination path) := by
  rw [FileSystem.at?_eq_some_iff, FileSystem.at?_eq_some_iff, way_eq h.workingDirectory_eq,
    destination_eq h.workingDirectory_eq]
  simp only [h.node?_eq_some_iff]
  constructor
  · rintro ⟨husable, hway, hnode, hdestination⟩
    exact ⟨⟨husable, fun stop hstop => (hway stop hstop).1, hnode⟩,
      fun stop hstop => (hway stop hstop).2, hdestination⟩
  · rintro ⟨⟨husable, hway, hnode⟩, hkept, hdestination⟩
    exact ⟨husable, fun stop hstop => ⟨hway stop hstop, hkept stop hstop⟩, hnode, hdestination⟩

/-- Whether what a path leads to is still there, with the files that it holds. -/
def Keeps (files after : FileSystem) (path : String) : Prop :=
  after.Exists path ∧ ∀ location, files.destination path <:+ location →
    after.file? location = files.file? location

/-- Whether nothing goes that a path needs to keep what it leads to. -/
structure Spares (files : FileSystem) (Gone : Location → Prop) (path : String) : Prop where
  way : ∀ stop ∈ files.way path, ¬Gone stop
  destination : ¬Gone (files.destination path)
  file : ∀ location, files.destination path <:+ location → Gone location →
    files.file? location = none

/-- **What a path leads to is kept if nothing goes that it needs.** -/
theorem Loses.keeps_iff (h : files.Loses Gone after) (hexists : files.Exists path) :
    files.Keeps after path ↔ files.Spares Gone path := by
  have hstill : after.Exists path ↔
      (∀ stop ∈ files.way path, ¬Gone stop) ∧ ¬Gone (files.destination path) := by
    obtain ⟨node, hnode⟩ := exists_iff.mp hexists
    rw [exists_iff]
    exact ⟨fun ⟨_, hafter⟩ => (h.at?_eq_some_iff.mp hafter).2,
      fun hkept => ⟨node, h.at?_eq_some_iff.mpr ⟨hnode, hkept⟩⟩⟩
  constructor
  · rintro ⟨hafter, hfiles⟩
    obtain ⟨hway, hdestination⟩ := hstill.mp hafter
    refine ⟨hway, hdestination, fun location hunder hgone => ?_⟩
    rw [← hfiles location hunder, h.file?_eq_none hgone]
  · rintro ⟨hway, hdestination, hfiles⟩
    refine ⟨hstill.mpr ⟨hway, hdestination⟩, fun location hunder => ?_⟩
    by_cases hgone : Gone location
    · rw [h.file?_eq_none hgone, hfiles location hunder hgone]
    · exact file?_eq_of_node?_eq (h.node?_eq hgone)

end Loses

/-! ## Clearing -/

/-- Whether what is at a location stays, whatever becomes of its name. -/
def IsFixed (files : FileSystem) (location : Location) : Prop :=
  location = [] ∨ location = files.workingDirectory

/-- Whether clearing a path takes what is at a location: what its directory holds, and the directory
itself if nothing is taken from the way to it. -/
def Clears (files : FileSystem) (path : String) (location : Location) : Prop :=
  files.IsDirectory path ∧ ¬files.IsFixed location ∧
    (IsInside (files.destination path) location ∨ location = files.destination path ∧
      ∀ stop ∈ files.way path, IsInside (files.destination path) stop → files.IsFixed stop)

instance (files : FileSystem) : DecidablePred files.IsFixed :=
  fun _ => inferInstanceAs (Decidable (_ ∨ _))

instance (files : FileSystem) (path : String) : DecidablePred (files.Clears path) :=
  fun _ => inferInstanceAs (Decidable (_ ∧ _ ∧ (_ ∨ _ ∧ _)))

theorem file?_of_isFixed (h : files.IsFixed location) : files.file? location = none := by
  have hnode : files.node? location = some .directory := if_pos h
  rw [file?, hnode]

/-- What is taken is at the destination or inside. -/
theorem Clears.suffix (h : files.Clears path location) : files.destination path <:+ location := by
  obtain ⟨-, -, hinside | ⟨rfl, -⟩⟩ := h
  · exact hinside.1
  · exact List.suffix_refl _

/-- Clearing a path spares what lies elsewhere, if the way there does not lead through. -/
theorem spares_of_apart {other : String}
    (hway : ∀ stop ∈ files.way other, ¬files.destination path <:+ stop)
    (hdestination : ¬files.destination path <:+ files.destination other)
    (hother : ¬files.destination other <:+ files.destination path) :
    files.Spares (files.Clears path) other where
  way stop hstop hclears := hway stop hstop hclears.suffix
  destination hclears := hdestination hclears.suffix
  file _ hunder hclears :=
    ((List.suffix_or_suffix_of_suffix hclears.suffix hunder).elim hdestination hother).elim

/-- Files lose the entries that are left out, as far as these are not fixed. -/
theorem loses_filter (Gone : Location → Prop) [DecidablePred Gone] :
    files.Loses (fun location => Gone location ∧ ¬files.IsFixed location)
      { files with nodes := files.nodes.filter fun entry => ¬Gone entry.1 } where
  workingDirectory_eq := rfl
  node?_eq_none {location} hgone :=
    (if_neg hgone.2).trans ((lookup_filter files.nodes (¬Gone ·)).trans
      (if_neg (not_not_intro hgone.1)))
  node?_eq {location} hkept := by
    show (if files.IsFixed location then _ else _) = if files.IsFixed location then _ else _
    split_ifs with hfixed
    · rfl
    · exact (lookup_filter files.nodes (¬Gone ·)).trans
        (if_pos fun hgone => hkept ⟨hgone, hfixed⟩)

theorem loses_removeInside (directory : Location) :
    files.Loses (fun location => IsInside directory location ∧ ¬files.IsFixed location)
      (files.removeInside directory) := loses_filter _

theorem loses_remove (gone : Location) :
    files.Loses (fun location => location = gone ∧ ¬files.IsFixed location) (files.remove gone) :=
  loses_filter _

/-- The files after the directory that a path leads to has been emptied. -/
def emptied (files : FileSystem) (path : String) : FileSystem :=
  files.removeInside (files.destination path)

theorem loses_emptied (files : FileSystem) (path : String) :
    files.Loses (fun location => IsInside (files.destination path) location ∧
      ¬files.IsFixed location) (files.emptied path) := loses_removeInside _

/-- The way to an emptied directory is open if nothing was taken from it. -/
theorem isDirectory_emptied_iff (h : files.IsDirectory path) :
    (files.emptied path).IsDirectory path ↔
      ∀ stop ∈ files.way path, IsInside (files.destination path) stop → files.IsFixed stop := by
  rw [IsDirectory, (loses_emptied files path).at?_eq_some_iff]
  constructor
  · rintro ⟨-, hopen, -⟩ stop hstop hinside
    by_contra hfixed
    exact hopen stop hstop ⟨hinside, hfixed⟩
  · exact fun hopen =>
      ⟨h, fun stop hstop hgone => hgone.2 (hopen stop hstop hgone.1), fun hself => hself.1.2 rfl⟩

theorem destination_emptied : (files.emptied path).destination path = files.destination path := rfl

/-- An emptied directory is still there, so the path leads to it or nowhere. -/
theorem isDirectory_emptied_of_resolve? (h : files.IsDirectory path)
    (hresolve : (files.emptied path).resolve? path = some location) :
    (files.emptied path).IsDirectory path := by
  have hkept : (files.emptied path).node? (files.destination path) = some .directory :=
    ((loses_emptied files path).node?_eq fun hself => hself.1.2 rfl).trans
      (at?_eq_some_iff.mp h).2.2
  obtain rfl := (eq_destination_of_resolve? hresolve).trans destination_emptied
  rwa [IsDirectory, at?, hresolve]

/-- How clearing can succeed. -/
theorem clear_cases (h : files.clear path = (after, .ok ())) :
    files.IsDirectory path ∧
      (¬(files.emptied path).IsDirectory path ∧ after = files.emptied path ∨
        (files.emptied path).IsDirectory path ∧
          after = (files.emptied path).remove (files.destination path)) := by
  unfold clear at h
  cases hresolve : files.resolve? path with
  | none =>
    rw [hresolve] at h
    cases (Prod.mk.inj h).2
  | some location =>
    obtain rfl := eq_destination_of_resolve? hresolve
    rw [hresolve] at h
    dsimp only at h
    by_cases hnode : files.node? (files.destination path) = some .directory
    · have hdirectory : files.IsDirectory path := by rwa [IsDirectory, at?, hresolve]
      rw [if_neg (not_not_intro hnode)] at h
      refine ⟨hdirectory, ?_⟩
      cases hagain : (files.emptied path).resolve? path with
      | none =>
        rw [← emptied, hagain] at h
        refine .inl ⟨fun hstill => ?_, (Prod.mk.inj h).1.symm⟩
        cases (resolve?_eq_of_at?_eq_some hstill).symm.trans hagain
      | some location =>
        obtain rfl := (eq_destination_of_resolve? hagain).trans destination_emptied
        rw [← emptied, hagain] at h
        dsimp only at h
        by_cases hname : EndsInName path
        · rw [if_pos hname] at h
          exact .inr ⟨isDirectory_emptied_of_resolve? hdirectory hagain, (Prod.mk.inj h).1.symm⟩
        · rw [if_neg hname] at h
          cases (Prod.mk.inj h).2
    · rw [if_pos hnode] at h
      cases (Prod.mk.inj h).2

/-- **Clearing succeeds for directories only, and takes what it should and nothing else.** -/
theorem loses_of_clear_eq_ok (h : files.clear path = (after, .ok ())) :
    files.IsDirectory path ∧ files.Loses (files.Clears path) after := by
  obtain ⟨hdirectory, hcases⟩ := clear_cases h
  rw [isDirectory_emptied_iff hdirectory] at hcases
  refine ⟨hdirectory, ?_⟩
  obtain ⟨hclosed, rfl⟩ | ⟨hopen, rfl⟩ := hcases
  · refine (loses_emptied files path).congr fun location => ?_
    constructor
    · exact fun ⟨hinside, hfixed⟩ => ⟨hdirectory, hfixed, .inl hinside⟩
    · rintro ⟨-, hfixed, hinside | ⟨-, hopen⟩⟩
      · exact ⟨hinside, hfixed⟩
      · exact absurd hopen hclosed
  · refine ((loses_emptied files path).trans (loses_remove _)).congr fun location => ?_
    constructor
    · rintro (⟨hinside, hfixed⟩ | ⟨heq, hfixed⟩)
      · exact ⟨hdirectory, hfixed, .inl hinside⟩
      · exact ⟨hdirectory, hfixed, .inr ⟨heq, hopen⟩⟩
    · rintro ⟨-, hfixed, hinside | ⟨heq, -⟩⟩
      · exact .inl ⟨hinside, hfixed⟩
      · exact .inr ⟨heq, hfixed⟩

end AccessTransformer.FileSystem
