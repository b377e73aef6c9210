import AccessTransformer.Bytes
import AccessTransformer.Text.Order
import Mathlib.Tactic.SplitIfs

/-!
# Texts in order

Texts are compared by their characters, and that is the order of their bytes.  UTF-8 writes a
character that comes before another one with bytes that come before those of the other one: the
first byte tells how long the sequence is, longer sequences have greater first bytes, and in
sequences of one length the bits of the characters stand in the order of their weight.

There is one way to put texts in order, so the outcome does not tell how they stood before.  Equal
texts stand next to each other then, so that each text is left once when repetitions are erased.

* `le_iff_bytes_le`: texts are in the order of their bytes.
* `sort_eq_of_perm`: the same texts, put in order, are the same list.
* `mem_eraseReps_iff`, `nodup_eraseReps_of_pairwise`: what is left without repetitions.
* `eq_eraseReps_sort`: texts in order and without repetitions tell which texts there are, and nothing
  else.
-/

namespace AccessTransformer.Text

variable {a b : String} {texts texts' : List String}

/-! ## Bytes -/

/-- The bytes of a text in UTF-8. -/
def bytes (text : String) : Bytes := text.toUTF8.data.toList

theorem bytes_inj : bytes a = bytes b ↔ a = b := by
  rw [bytes, bytes, Array.toList_inj, ← ByteArray.ext_iff]
  exact String.toByteArray_inj

theorem bytes_eq_flatMap (text : String) :
    bytes text = text.toList.flatMap String.utf8EncodeChar := by
  have htext : text.toByteArray = text.toList.utf8Encode := by
    rw [← String.toByteArray_ofList, String.ofList_toList]
  rw [bytes, String.toUTF8_eq_toByteArray, htext, List.utf8Encode, List.toList_data_toByteArray]

/-- A character that comes before another one does so in its bytes, whatever follows. -/
theorem utf8EncodeChar_append_lt {c d : Char} (h : c.toNat < d.toNat) (front back : Bytes) :
    String.utf8EncodeChar c ++ front < String.utf8EncodeChar d ++ back := by
  have hd : d.toNat < 0x110000 := by
    have hvalid : d.toNat < 0xD800 ∨ 0xDFFF < d.toNat ∧ d.toNat < 0x110000 := d.valid
    omega
  have hmiddle : ∀ n, n / 4096 = n / 64 / 64 := fun n => by omega
  have hlead : ∀ n, n / 262144 = n / 64 / 64 / 64 := fun n => by omega
  change c.val.toNat < d.val.toNat at h
  change d.val.toNat < 0x110000 at hd
  simp only [String.utf8EncodeChar, hmiddle, hlead]
  generalize c.val.toNat = v at h ⊢
  generalize d.val.toNat = w at h hd ⊢
  -- one case for each pair of lengths; those in which the first sequence is longer are impossible
  split_ifs <;>
    simp only [List.cons_append, List.nil_append, List.cons_lt_cons_iff, UInt8.lt_iff_toNat_lt,
      ← UInt8.toNat_inj, UInt8.toNat_ofNat'] <;>
    omega

theorem flatMap_utf8EncodeChar_le {as bs : List Char} (h : listLe charLe as bs = true) :
    as.flatMap String.utf8EncodeChar ≤ bs.flatMap String.utf8EncodeChar := by
  induction as generalizing bs with
  | nil => exact List.nil_le _
  | cons c as ih =>
    cases bs with
    | nil => cases h
    | cons d bs =>
      rw [List.flatMap_cons, List.flatMap_cons]
      by_cases heq : c = d
      · subst heq
        rw [listLe, if_pos rfl] at h
        exact List.append_left_le (ih h)
      · rw [listLe, if_neg heq, charLe, Nat.ble_eq] at h
        have hlt := Nat.lt_of_le_of_ne h (mt Char.toNat_inj.mp heq)
        exact List.le_of_lt (utf8EncodeChar_append_lt hlt _ _)

/-- **Texts are in the order of their bytes.** -/
theorem le_iff_bytes_le : le a b = true ↔ bytes a ≤ bytes b := by
  have hle : ∀ a b, le a b = true → bytes a ≤ bytes b := by
    intro a b h
    rw [bytes_eq_flatMap, bytes_eq_flatMap]
    exact flatMap_utf8EncodeChar_le h
  refine ⟨hle a b, fun h => ?_⟩
  rcases le_total a b with hab | hba
  · exact hab
  · obtain rfl := bytes_inj.mp (List.le_antisymm h (hle b a hba))
    exact hba

/-! ## Sorting -/

theorem sort_perm (texts : List String) : (sort texts).Perm texts :=
  List.mergeSort_perm texts le

@[simp] theorem mem_sort_iff : a ∈ sort texts ↔ a ∈ texts :=
  (sort_perm texts).mem_iff

/-- What is sorted by a text that each entry has is in the order of these texts. -/
theorem pairwise_mergeSort {α : Type} (text : α → String) (list : List α) :
    (list.mergeSort fun a b => le (text a) (text b)).Pairwise
      fun a b => le (text a) (text b) = true := by
  refine List.pairwise_mergeSort (fun a b c => ?_) (fun a b => ?_) list
  · exact le_trans
  · rw [Bool.or_eq_true]
    exact le_total (text a) (text b)

theorem pairwise_sort (texts : List String) : (sort texts).Pairwise (le · · = true) :=
  pairwise_mergeSort id texts

/-- The same texts, in order, are the same list. -/
theorem eq_of_perm_of_pairwise (hperm : texts.Perm texts') (h : texts.Pairwise (le · · = true))
    (h' : texts'.Pairwise (le · · = true)) : texts = texts' :=
  List.Perm.eq_of_pairwise (fun _ _ _ _ => le_antisymm) h h' hperm

/-- **Texts in order do not tell in which order they were before.** -/
theorem sort_eq_of_perm (hperm : texts.Perm texts') : sort texts = sort texts' :=
  eq_of_perm_of_pairwise ((sort_perm texts).trans (hperm.trans (sort_perm texts').symm))
    (pairwise_sort texts) (pairwise_sort texts')

/-- Sorted texts are in the order of their bytes. -/
theorem pairwise_bytes_sort (texts : List String) : (sort texts).Pairwise (bytes · ≤ bytes ·) :=
  (pairwise_sort texts).imp le_iff_bytes_le.mp

/-! ## Repetitions -/

section Repetitions

variable {α : Type} [DecidableEq α]

theorem eraseRepsBy_loop_eq (x : α) (rest kept : List α) :
    List.eraseRepsBy.loop (· == ·) x rest kept = kept.reverse ++ (x :: rest).eraseReps := by
  rw [List.eraseReps, List.eraseRepsBy]
  induction rest generalizing x kept with
  | nil => simp [List.eraseRepsBy.loop]
  | cons y rest ih =>
    rw [List.eraseRepsBy.loop, List.eraseRepsBy.loop]
    split
    · exact ih x kept
    · rw [ih y (x :: kept), ih y [x]]
      simp

/-- Of two equal neighbours the first is left out. -/
theorem eraseReps_cons_cons (x y : α) (rest : List α) :
    (x :: y :: rest).eraseReps
      = if x = y then (y :: rest).eraseReps else x :: (y :: rest).eraseReps := by
  rw [List.eraseReps, List.eraseRepsBy, List.eraseRepsBy.loop]
  split
  · rename_i heq
    rw [if_pos (beq_iff_eq.mp heq), eraseRepsBy_loop_eq, beq_iff_eq.mp heq]
    rfl
  · rename_i hne
    rw [if_neg (beq_eq_false_iff_ne.mp hne), eraseRepsBy_loop_eq]
    rfl

theorem mem_eraseReps_iff {x : α} {list : List α} : x ∈ list.eraseReps ↔ x ∈ list := by
  induction list with
  | nil => exact Iff.rfl
  | cons y rest ih =>
    cases rest with
    | nil => exact Iff.rfl
    | cons z rest =>
      rw [eraseReps_cons_cons]
      split
      · rename_i heq
        rw [ih, heq]
        simp
      · rw [List.mem_cons, ih]
        exact List.mem_cons.symm

theorem eraseReps_sublist (list : List α) : list.eraseReps.Sublist list := by
  induction list with
  | nil => exact List.Sublist.refl []
  | cons y rest ih =>
    cases rest with
    | nil => exact List.Sublist.refl [y]
    | cons z rest =>
      rw [eraseReps_cons_cons]
      split
      · exact ih.cons y
      · exact ih.cons_cons y

/-- Where equal entries stand next to each other, each is left once. -/
theorem nodup_eraseReps_of_pairwise {R : α → α → Prop} (hanti : ∀ x y, R x y → R y x → x = y)
    {list : List α} (h : list.Pairwise R) : list.eraseReps.Nodup := by
  induction list with
  | nil => exact List.nodup_nil
  | cons y rest ih =>
    cases rest with
    | nil => exact List.pairwise_singleton _ y
    | cons z rest =>
      obtain ⟨hy, hrest⟩ := List.pairwise_cons.mp h
      rw [eraseReps_cons_cons]
      split
      · exact ih hrest
      · rename_i hne
        refine List.nodup_cons.mpr ⟨fun hmem => ?_, ih hrest⟩
        rcases List.mem_cons.mp (mem_eraseReps_iff.mp hmem) with heq | hlater
        · exact hne heq
        · exact hne (hanti y z (hy z List.mem_cons_self) ((List.pairwise_cons.mp hrest).1 y hlater))

end Repetitions

/-! ## Texts in order, each once -/

theorem mem_eraseReps_sort_iff : a ∈ (sort texts).eraseReps ↔ a ∈ texts := by
  rw [mem_eraseReps_iff, mem_sort_iff]

theorem nodup_eraseReps_sort (texts : List String) : (sort texts).eraseReps.Nodup :=
  nodup_eraseReps_of_pairwise (fun _ _ => le_antisymm) (pairwise_sort texts)

theorem pairwise_eraseReps_sort (texts : List String) :
    (sort texts).eraseReps.Pairwise (le · · = true) :=
  (pairwise_sort texts).sublist (eraseReps_sublist _)

/-- **Nothing but which texts there are shows in texts in order, each once.** -/
theorem eq_eraseReps_sort (hnodup : texts.Nodup) (hpairwise : texts.Pairwise (le · · = true))
    (hmem : ∀ text, text ∈ texts ↔ text ∈ texts') : texts = (sort texts').eraseReps := by
  refine eq_of_perm_of_pairwise ?_ hpairwise (pairwise_eraseReps_sort texts')
  rw [List.perm_ext_iff_of_nodup hnodup (nodup_eraseReps_sort texts')]
  intro text
  rw [hmem, mem_eraseReps_sort_iff]

end AccessTransformer.Text
