import AccessTransformer.Text.Order

/-!
# Lines

The lines of a text are what stands between its line breaks; a text without one is a single line.
A text may have line breaks at its ends, and then its first or last line is empty.

* `Text.lines_append`: the lines of two texts with a line break between them.
* `Text.lines_intercalate`: the lines of texts that are joined by line breaks.
-/

namespace AccessTransformer.Text

/-- The lines of a text. -/
def lines (text : String) : List String := (text.toList.splitOn '\n').map String.ofList

/-- Whether there is no line break in a text. -/
def IsLine (text : String) : Prop := '\n' ∉ text.toList

instance (text : String) : Decidable (IsLine text) := inferInstanceAs (Decidable (_ ∉ _))

variable {text line : String}

theorem IsLine.lines_eq (h : IsLine text) : lines text = [text] := by
  rw [lines, List.splitOn_eq_singleton h, List.map_singleton, String.ofList_toList]

@[simp] theorem lines_empty : lines "" = [""] := rfl

/-- A line break ends a line. -/
theorem lines_append (front back : String) :
    lines (front ++ "\n" ++ back) = lines front ++ lines back := by
  have htext : (front ++ "\n" ++ back).toList = front.toList ++ '\n' :: back.toList := by
    simp [String.toList_append]
  rw [lines, htext, List.splitOn_append_cons_self, List.map_append]
  rfl

/-- Joined texts have all their lines in order. -/
theorem lines_intercalate {texts : List String} (h : texts ≠ []) :
    lines ("\n".intercalate texts) = texts.flatMap lines := by
  induction texts with
  | nil => exact absurd rfl h
  | cons first texts ih =>
    cases texts with
    | nil => simp
    | cons second texts =>
      rw [String.intercalate_cons_cons, lines_append, ih (List.cons_ne_nil second texts)]
      rfl

/-- No part of a split text has the character that it was split at. -/
theorem notMem_of_mem_splitOn {c : Char} {part text : List Char} (h : part ∈ text.splitOn c) :
    c ∉ part := by
  induction text generalizing part with
  | nil =>
    rw [List.splitOn_nil, List.mem_singleton] at h
    rw [h]
    exact List.not_mem_nil
  | cons d text ih =>
    rw [List.splitOn_cons_eq_if_modifyHead] at h
    split at h
    · rcases List.mem_cons.mp h with rfl | hrest
      · exact List.not_mem_nil
      · exact ih hrest
    · rename_i hne
      obtain ⟨first, parts, hsplit⟩ := List.exists_cons_of_ne_nil (List.splitOn_ne_nil c text)
      rw [hsplit, List.modifyHead_cons] at h
      rcases List.mem_cons.mp h with rfl | hrest
      · have hfirst : c ∉ first := ih (hsplit ▸ List.mem_cons_self)
        have hd : c ≠ d := fun heq => hne (beq_iff_eq.mpr heq.symm)
        rw [List.mem_cons, not_or]
        exact ⟨hd, hfirst⟩
      · exact ih (hsplit ▸ List.mem_cons_of_mem _ hrest)

/-- No line break is in a line. -/
theorem isLine_of_mem_lines (h : line ∈ lines text) : IsLine line := by
  obtain ⟨part, hpart, rfl⟩ := List.mem_map.mp h
  rw [IsLine, String.toList_ofList]
  exact notMem_of_mem_splitOn hpart

theorem isLine_append_iff {front back : String} :
    IsLine (front ++ back) ↔ IsLine front ∧ IsLine back := by
  rw [IsLine, String.toList_append, List.mem_append, not_or]
  rfl

end AccessTransformer.Text
