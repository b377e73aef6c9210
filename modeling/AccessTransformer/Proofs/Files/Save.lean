import AccessTransformer.Proofs.Files.FileSystem
import Mathlib.Data.List.Nodup
import Mathlib.Data.List.Perm.Subperm
import Mathlib.Data.List.Range

/-!
# Saving is all or nothing

A text is written to a temporary file that then takes the place of what was under the path.  Until
that last step no file has changed but the temporary one, and that one is removed when anything goes
wrong.  So the files are what they were, or one of them has the whole text.

What makes saving succeed is still there afterwards, so saving the same text once more succeeds too,
and then it changes nothing at all.

* `save_eq_ok_iff`: when saving succeeds, and what it leaves.
* `file?_of_save_eq_error`, `exists_of_save_eq_ok`: the files after saving.
* `save_again`: saving once more.
-/

namespace AccessTransformer.FileSystem

variable {files after made : FileSystem} {location place free target : Location}
  {path text : String} {failure : Failure}

/-! ## Temporary files -/

theorem temporaryName_injective : Function.Injective temporaryName := by
  intro m n h
  have hdigits : Nat.toDigits 10 m = Nat.toDigits 10 n := by
    have hchars := congrArg String.toList h
    rw [temporaryName, temporaryName, String.toList_append, String.toList_append,
      String.toList_ofList, String.toList_ofList] at hchars
    exact List.append_cancel_left hchars
  rw [← @Nat.ofDigitChars_ten_toDigits m, hdigits, Nat.ofDigitChars_ten_toDigits]

theorem free?_spec (h : files.free? place = some free) :
    files.node? free = none ∧ free.tail = place := by
  rw [free?] at h
  obtain ⟨n, -, rfl⟩ := List.mem_map.mp (List.mem_of_find?_eq_some h)
  exact ⟨of_decide_eq_true (List.find?_some (p := fun location => files.node? location = none) h),
    rfl⟩

/-- There are more names than nodes, so one of them is free. -/
theorem exists_free?_eq_some (files : FileSystem) (place : Location) :
    ∃ free, files.free? place = some free := by
  rw [← Option.isSome_iff_exists, free?, List.find?_isSome]
  by_contra hnone
  simp only [not_exists, not_and, decide_eq_true_eq] at hnone
  -- otherwise each of them is the working directory or has an entry of its own
  have hsubset : (List.range (files.nodes.length + 2)).map (fun n => temporaryName n :: place)
      ⊆ files.workingDirectory :: files.nodes.map (·.1) := by
    intro location hlocation
    rcases mem_of_node?_ne_none (hnone location hlocation) with heq | heq | hmem
    · obtain ⟨n, -, rfl⟩ := List.mem_map.mp hlocation
      cases heq
    · exact heq ▸ List.mem_cons_self
    · exact List.mem_cons_of_mem _ hmem
  have hnodup : ((List.range (files.nodes.length + 2)).map
      fun n => temporaryName n :: place).Nodup :=
    List.Nodup.map (fun m n heq => temporaryName_injective (List.cons.inj heq).1)
      List.nodup_range
  have hlength := (List.subperm_of_subset hnodup hsubset).length_le
  simp only [List.length_map, List.length_range, List.length_cons] at hlength
  omega

theorem createTemporary?_eq_some_iff {directory : String} :
    files.createTemporary? directory = some (after, free) ↔
      Path.IsUsable (files.temporaryPath directory) ∧ ∃ place,
        files.resolve? directory = some place ∧ ¬files.Refuses .createFile place ∧
        files.free? place = some free ∧ after = files.put free (.file (.bytes [])) := by
  constructor
  · intro h
    unfold createTemporary? at h
    split_ifs at h with husable
    split at h
    · cases h
    · rename_i place hplace
      split_ifs at h with hrefused
      obtain ⟨free', hfree, heq⟩ := Option.map_eq_some_iff.mp h
      obtain ⟨rfl, rfl⟩ := Prod.mk.inj heq
      exact ⟨husable, place, hplace, hrefused, hfree, rfl⟩
  · rintro ⟨husable, place, hplace, hrefused, hfree, rfl⟩
    simp only [createTemporary?, if_neg (not_not_intro husable), hplace, if_neg hrefused, hfree,
      Option.map_some]

/-! ## Saving -/

/-- Whether nothing stops a text from getting under a path into this target, once the directory is
there. -/
structure Admits (files : FileSystem) (path : String) (target : Location) : Prop where
  usable : Path.IsUsable (files.temporaryPath (Path.directory path))
  place : ∃ place, files.resolve? (Path.directory path) = some place ∧
    ¬files.Refuses .createFile place ∧ ¬files.Refuses .write place ∧ ¬files.Refuses .flush place
  target?_eq : files.target? path = some target

/-- In the end all is as if there had been no temporary file. -/
theorem save_of_createTemporary?
    (hmade : files.createDirectory (Path.directory path) = (made, true))
    (htemporary : made.createTemporary? (Path.directory path) = some (after, free)) :
    files.save path text
      = if made.Refuses .write free.tail then made.failed (.write path)
        else if made.Refuses .flush free.tail then made.failed (.flush path)
        else
          match made.target? path with
          | none => made.failed (.replace path)
          | some target => (made.put target (.file (.ofText text)), .ok ()) := by
  obtain ⟨-, place, -, -, hfree, rfl⟩ := createTemporary?_eq_some_iff.mp htemporary
  have hnone := (free?_spec hfree).1
  have hrename : (made.put free (.file (.ofText text))).rename? free path
      = made.replace? path (.ofText text) := by
    have hput : (made.put free (.file (.ofText text))).node? free
        = some (.file (.ofText text)) := (node?_put (by rw [hnone]; nofun)).trans (if_pos rfl)
    rw [rename?, hput]
    exact congrArg (replace? · path (.ofText text)) (remove_put hnone)
  unfold save
  simp only [hmade, htemporary, put_put, remove_put hnone, hrename]
  show (if made.Refuses .write free.tail then _
    else if made.Refuses .flush free.tail then _ else _) = _
  unfold replace?
  cases made.target? path <;> rfl

/-- **When saving succeeds, and what it leaves.** -/
theorem save_eq_ok_iff :
    files.save path text = (after, .ok ()) ↔ ∃ made target,
      files.createDirectory (Path.directory path) = (made, true) ∧ made.Admits path target ∧
      after = made.put target (.file (.ofText text)) := by
  constructor
  · intro h
    rcases hmade : files.createDirectory (Path.directory path) with ⟨made, _ | _⟩
    · rw [save, hmade] at h
      cases (Prod.mk.inj h).2
    · rcases htemporary : made.createTemporary? (Path.directory path) with _ | ⟨later, free⟩
      · simp only [save, hmade, htemporary] at h
        cases (Prod.mk.inj h).2
      · rw [save_of_createTemporary? hmade htemporary] at h
        obtain ⟨husable, place, hplace, hcreate, hfree, rfl⟩ :=
          createTemporary?_eq_some_iff.mp htemporary
        obtain rfl := (free?_spec hfree).2
        split_ifs at h with hwrite hflush
        · cases (Prod.mk.inj h).2
        · cases (Prod.mk.inj h).2
        · split at h
          · cases (Prod.mk.inj h).2
          · rename_i target htarget
            exact ⟨made, target, rfl, ⟨husable, ⟨_, hplace, hcreate, hwrite, hflush⟩, htarget⟩,
              (Prod.mk.inj h).1.symm⟩
  · rintro ⟨made, target, hmade, ⟨husable, ⟨place, hplace, hcreate, hwrite, hflush⟩, htarget⟩, rfl⟩
    obtain ⟨free, hfree⟩ := exists_free?_eq_some made place
    obtain rfl := (free?_spec hfree).2
    have htemporary := createTemporary?_eq_some_iff.mpr
      ⟨husable, _, hplace, hcreate, hfree, rfl⟩
    rw [save_of_createTemporary? hmade htemporary, if_neg hwrite, if_neg hflush, htarget]

/-- A failure leaves the directories that were made, and nothing else. -/
theorem eq_of_save_eq_error (h : files.save path text = (after, .error failure)) :
    after = (files.createDirectory (Path.directory path)).1 := by
  rcases hmade : files.createDirectory (Path.directory path) with ⟨made, _ | _⟩
  · rw [save, hmade] at h
    exact (Prod.mk.inj h).1.symm
  · rcases htemporary : made.createTemporary? (Path.directory path) with _ | ⟨later, free⟩
    · simp only [save, hmade, htemporary] at h
      exact (Prod.mk.inj h).1.symm
    · rw [save_of_createTemporary? hmade htemporary] at h
      split_ifs at h
      · exact (Prod.mk.inj h).1.symm
      · exact (Prod.mk.inj h).1.symm
      · split at h
        · exact (Prod.mk.inj h).1.symm
        · cases (Prod.mk.inj h).2

/-- **Saving that fails leaves every file as it was.** -/
theorem file?_of_save_eq_error (h : files.save path text = (after, .error failure)) :
    after.file? location = files.file? location := by
  rw [eq_of_save_eq_error h]
  exact (createDirectory_spec rfl).2.1 location

/-- **Saving that succeeds leaves the text under the path, and every other file as it was.** -/
theorem exists_of_save_eq_ok (h : files.save path text = (after, .ok ())) :
    files.Extends after ∧ ∃ target, after.resolve? path = some target ∧
      after.file? target = some (.ofText text) ∧
      ∀ location, location ≠ target → after.file? location = files.file? location := by
  obtain ⟨made, target, hmade, hadmits, rfl⟩ := save_eq_ok_iff.mp h
  obtain ⟨hextends, hfiles, -⟩ := createDirectory_spec hmade
  have hnode := node?_ne_of_target? hadmits.target?_eq
  refine ⟨hextends.trans (extends_put hnode), target,
    resolve?_put_of_target? hadmits.target?_eq, ?_, fun location hne => ?_⟩
  · rw [file?_put_file hnode, if_pos rfl]
  · rw [file?_put_file hnode, if_neg hne, hfiles]

/-- What did not stop a text does not stop it when it is there already. -/
theorem Admits.put {content : Content} (h : files.Admits path target) :
    (files.put target (.file content)).Admits path target := by
  have hextends : files.Extends (files.put target (.file content)) :=
    extends_put (node?_ne_of_target? h.target?_eq)
  obtain ⟨place, hplace, hrefused⟩ := h.place
  exact ⟨h.usable, ⟨place, hextends.resolve?_eq_some hplace, hrefused⟩,
    target?_put_of_target? h.target?_eq⟩

/-- **Saving once more succeeds once more, and changes nothing.** -/
theorem save_again (h : files.save path text = (after, .ok ())) :
    after.save path text = (after, .ok ()) := by
  obtain ⟨made, target, hmade, hadmits, rfl⟩ := save_eq_ok_iff.mp h
  have hextends : made.Extends (made.put target (.file (.ofText text))) :=
    extends_put (node?_ne_of_target? hadmits.target?_eq)
  obtain ⟨-, -, hdirectory⟩ := createDirectory_spec hmade
  obtain ⟨directory, hresolve, hnode⟩ := hdirectory rfl
  have hnothing : (made.put target (.file (.ofText text))).createDirectory (Path.directory path)
      = (made.put target (.file (.ofText text)), true) :=
    createDirectory_eq_self (hextends.resolve?_eq_some hresolve) (hextends.directory hnode)
  exact save_eq_ok_iff.mpr ⟨_, target, hnothing, hadmits.put, (put_put _).symm⟩

end AccessTransformer.FileSystem
