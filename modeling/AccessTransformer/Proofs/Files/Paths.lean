import AccessTransformer.Files.Path
import AccessTransformer.Proofs.Text.Order
import Mathlib.Data.List.Basic

/-!
# Segments of paths

The path of what lies inside a directory has the segments of the directory in front, and then the
names that lead on from there.  So paths inside one directory are distinct where the names are, and
in the order of the names.

* `segments_append`, `segments_join`: the segments of a path that is put together.
* `segments_child`: the segments of a path inside a directory.
* `namesLe_segments_child_iff`: paths inside one directory are in the order of the names.
-/

namespace AccessTransformer.Path

variable {path name : String} {names names' : List String} {text rest : List Char}

/-! ## Splitting and joining -/

theorem split_append (text rest : List Char) :
    split (text ++ '/' :: rest) = split text ++ split rest := by
  induction text with
  | nil =>
    obtain ⟨first, parts, hrest⟩ := List.exists_cons_of_ne_nil (split_ne_nil rest)
    simp [split, hrest]
  | cons c text ih =>
    obtain ⟨first, parts, htext⟩ := List.exists_cons_of_ne_nil (split_ne_nil text)
    rw [htext, List.cons_append] at ih
    rw [List.cons_append, split, ih, split, htext]
    split_ifs <;> rfl

theorem split_of_notMem (h : '/' ∉ text) : split text = [text] := by
  induction text with
  | nil => rfl
  | cons c text ih =>
    rw [List.mem_cons, not_or] at h
    rw [split, ih h.2]
    exact if_neg (Ne.symm h.1)

/-- The segments of two paths with a slash between them. -/
theorem segments_append (front back : String) :
    segments (front ++ "/" ++ back) = segments front ++ segments back := by
  have htext : (front ++ "/" ++ back).toList = front.toList ++ '/' :: back.toList := by simp
  rw [segments, htext, split_append, List.map_append, segments, segments]

/-- A name is its only segment. -/
theorem segments_of_notMem (h : '/' ∉ name.toList) : segments name = [name] := by
  rw [segments, split_of_notMem h, List.map_singleton, String.ofList_toList]

/-- The segments of a path are those that it is made of. -/
theorem segments_join (hne : names ≠ []) (h : ∀ name ∈ names, '/' ∉ name.toList) :
    segments (join names) = names := by
  induction names with
  | nil => exact absurd rfl hne
  | cons name names ih =>
    rw [List.forall_mem_cons] at h
    cases names with
    | nil => exact segments_of_notMem h.1
    | cons next names =>
      rw [join, String.intercalate_cons_cons, segments_append, segments_of_notMem h.1]
      exact congrArg (name :: ·) (ih (List.cons_ne_nil _ _) h.2)

/-! ## Paths inside a directory -/

/-- The segments of a path that names follow. -/
def stem (path : String) : List String :=
  if path = "" ∨ path.toList.getLast? = some '/' then (segments path).dropLast else segments path

/-- The segments of a path with another one behind it. -/
theorem segments_child (path name : String) :
    segments (child path name) = stem path ++ segments name := by
  rw [child, stem]
  split_ifs with h
  · rcases h with rfl | hslash
    · simp [segments, split]
    · obtain ⟨front, rfl⟩ : ∃ front, path = front ++ "/" := by
        refine ⟨String.ofList path.toList.dropLast, ?_⟩
        rw [← String.toList_inj, String.toList_append, String.toList_ofList]
        exact (List.dropLast_append_getLast? '/' hslash).symm
      have hfront : segments (front ++ "/") = segments front ++ [""] := by
        rw [← String.append_empty (s := front ++ "/"), segments_append]
        rfl
      rw [segments_append, hfront, List.dropLast_concat]
  · exact segments_append path name

/-- Different names lead to different paths. -/
theorem child_join_inj (hne : names ≠ []) (h : ∀ name ∈ names, '/' ∉ name.toList)
    (hne' : names' ≠ []) (h' : ∀ name ∈ names', '/' ∉ name.toList)
    (heq : child path (join names) = child path (join names')) : names = names' := by
  have hsegments := congrArg segments heq
  rw [segments_child, segments_child, segments_join hne h, segments_join hne' h'] at hsegments
  exact List.append_cancel_left hsegments

end AccessTransformer.Path

namespace AccessTransformer.Text

variable {α : Type} [DecidableEq α]

theorem listLe_append_left (le : α → α → Bool) (front as bs : List α) :
    listLe le (front ++ as) (front ++ bs) = listLe le as bs := by
  induction front with
  | nil => rfl
  | cons a front ih =>
    rw [List.cons_append, List.cons_append, listLe, if_pos rfl, ih]

theorem namesLe_total (as bs : List String) : namesLe as bs = true ∨ namesLe bs as = true :=
  listLe_total le_total as bs

theorem namesLe_trans {as bs cs : List String} (hab : namesLe as bs = true)
    (hbc : namesLe bs cs = true) : namesLe as cs = true :=
  listLe_trans (fun _ _ => le_antisymm) (fun _ _ _ => le_trans) hab hbc

/-- What is sorted by the names that each entry has is in the order of these names. -/
theorem pairwise_namesLe_mergeSort {β : Type} (names : β → List String) (list : List β) :
    (list.mergeSort fun a b => namesLe (names a) (names b)).Pairwise
      fun a b => namesLe (names a) (names b) = true := by
  refine List.pairwise_mergeSort (fun a b c => ?_) (fun a b => ?_) list
  · exact namesLe_trans
  · rw [Bool.or_eq_true]
    exact namesLe_total (names a) (names b)

/-- Paths inside one directory are in the order of the names. -/
theorem namesLe_segments_child_iff {path : String} {names names' : List String} (hne : names ≠ [])
    (h : ∀ name ∈ names, '/' ∉ name.toList) (hne' : names' ≠ [])
    (h' : ∀ name ∈ names', '/' ∉ name.toList) :
    namesLe (Path.segments (Path.child path (Path.join names)))
      (Path.segments (Path.child path (Path.join names'))) = namesLe names names' := by
  rw [Path.segments_child, Path.segments_child, Path.segments_join hne h,
    Path.segments_join hne' h']
  exact listLe_append_left le _ names names'

end AccessTransformer.Text
