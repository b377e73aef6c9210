import AccessTransformer.Proofs.Text.Lines
import AccessTransformer.Proofs.Text.Order
import AccessTransformer.Rules.Listing
import Mathlib.Data.List.Basic

/-!
# The lines of a listing

Whoever reads a listing line by line takes what starts with `# ` for a comment and everything else
for a rule, except for empty lines.  The comments should be just the names of the sections, and the
rules lines of the sections.  Names and lines are put into the listing as they are, so this depends
on what they are.

* `lines_body`: the lines behind the header.
* `legible_body_iff`: when comments and rules are what they should be.
-/

namespace AccessTransformer.Rules

open Text (lines IsLine)

/-- Whether a line is a comment. -/
def IsComment (line : String) : Prop := ['#', ' '] <+: line.toList

instance (line : String) : Decidable (IsComment line) :=
  inferInstanceAs (Decidable (_ <+: _))

/-- The comment above the lines of a section. -/
def Section.comment (s : Section) : String := "# " ++ s.name

/-- What stands behind the header of a listing. -/
def body (sections : List Section) : String := "\n".intercalate (sections.map Section.text)

theorem listing_eq (sections : List Section) : listing sections = header ++ body sections := rfl

/-- Whether the comments of a text are those of the sections in order, and its other lines are empty
or stand in a section. -/
structure Legible (text : String) (sections : List Section) : Prop where
  comments_eq : (lines text).filter (IsComment ·) = sections.map Section.comment
  mem_lines : ∀ line ∈ lines text, line ≠ "" → ¬IsComment line → ∃ s ∈ sections, line ∈ s.lines

variable {s : Section} {sections : List Section} {line : String}

theorem isComment_comment (s : Section) : IsComment s.comment := by
  rw [IsComment, Section.comment, String.toList_append]
  exact List.prefix_append _ _

theorem not_isComment_empty : ¬IsComment "" := by decide

theorem isLine_comment_iff : IsLine s.comment ↔ IsLine s.name := by
  rw [Section.comment, Text.isLine_append_iff]
  exact and_iff_right (by decide)

/-! ## The lines behind the header -/

theorem Section.mem_sortedLines_iff : line ∈ s.sortedLines ↔ line ∈ s.lines :=
  Text.mem_sort_iff

/-- A section has its name, its lines, and the end of the last of them. -/
theorem Section.lines_text (h : s.lines ≠ []) :
    Text.lines s.text
      = Text.lines s.comment ++ (s.sortedLines.flatMap Text.lines ++ [""]) := by
  have hsorted : s.sortedLines ≠ [] := by
    obtain ⟨line, hline⟩ := List.exists_mem_of_ne_nil _ h
    exact List.ne_nil_of_mem (Section.mem_sortedLines_iff.mpr hline)
  have htext : s.text
      = s.comment ++ "\n" ++ ("\n".intercalate s.sortedLines ++ "\n" ++ "") := by
    rw [String.append_empty, ← String.append_assoc]
    rfl
  rw [htext, Text.lines_append, Text.lines_append, Text.lines_intercalate hsorted,
    Text.lines_empty]

/-- The lines of all sections in order.  An empty body has an empty line. -/
theorem lines_body (h : ∀ s ∈ sections, s.lines ≠ []) (hne : sections ≠ []) :
    lines (body sections)
      = sections.flatMap fun s => lines s.comment ++ (s.sortedLines.flatMap lines ++ [""]) := by
  rw [body, Text.lines_intercalate (by simpa using hne), List.flatMap_map]
  exact List.flatMap_congr fun s hs => Section.lines_text (h s hs)

/-- A line of the body is in the name or a line of a section, or empty. -/
theorem mem_lines_body_iff (h : ∀ s ∈ sections, s.lines ≠ []) :
    line ∈ lines (body sections) ↔ line = "" ∨
      ∃ s ∈ sections, line ∈ lines s.comment ∨ ∃ rule ∈ s.lines, line ∈ lines rule := by
  by_cases hne : sections = []
  · subst hne
    simp [body]
  · obtain ⟨first, hfirst⟩ := List.exists_mem_of_ne_nil _ hne
    simp only [lines_body h hne, List.mem_flatMap, List.mem_append, List.mem_singleton,
      Section.mem_sortedLines_iff]
    constructor
    · rintro ⟨s, hs, hcomment | hrule | rfl⟩
      · exact Or.inr ⟨s, hs, Or.inl hcomment⟩
      · exact Or.inr ⟨s, hs, Or.inr hrule⟩
      · exact Or.inl rfl
    · rintro (rfl | ⟨s, hs, hcomment | hrule⟩)
      · exact ⟨first, hfirst, Or.inr (Or.inr rfl)⟩
      · exact ⟨s, hs, Or.inl hcomment⟩
      · exact ⟨s, hs, Or.inr (Or.inl hrule)⟩

/-! ## Comments and rules -/

/-- Parts that start with an element each, and have no other element in all, are these elements. -/
theorem flatMap_cons_eq_map_iff {α β : Type} {first : α → β} {rest : α → List β} {as : List α} :
    (as.flatMap fun a => first a :: rest a) = as.map first ↔ ∀ a ∈ as, rest a = [] := by
  have hlength : (as.flatMap fun a => first a :: rest a).length
      = as.length + (as.flatMap rest).length := by
    induction as with
    | nil => rfl
    | cons a as ih =>
      simp only [List.flatMap_cons, List.length_append, List.length_cons, ih]
      omega
  constructor
  · intro heq
    rw [heq, List.length_map] at hlength
    have hnil : as.flatMap rest = [] := List.eq_nil_of_length_eq_zero (by omega)
    exact List.flatMap_eq_nil_iff.mp hnil
  · intro hrest
    rw [List.flatMap_congr fun a ha => by rw [hrest a ha]]
    exact List.map_eq_flatMap.symm

/-- **A listing can be told into comments and rules exactly if no name of a section has a line
break, and no line of a section is broken into something else**, be it a comment or a line that is
in no section. -/
theorem legible_body_iff (h : ∀ s ∈ sections, s.lines ≠ []) :
    Legible (body sections) sections ↔
      ∀ s ∈ sections, IsLine s.name ∧ ∀ rule ∈ s.lines, ∀ line ∈ lines rule,
        ¬IsComment line ∧ (line ≠ "" → ∃ other ∈ sections, line ∈ other.lines) := by
  -- where all names are lines, the comments are those names and what rules are broken into
  have hcomments : (∀ s ∈ sections, IsLine s.name) →
      (lines (body sections)).filter (IsComment ·) = sections.flatMap fun s =>
        s.comment :: (s.sortedLines.flatMap lines).filter (IsComment ·) := by
    intro hnames
    by_cases hne : sections = []
    · subst hne
      rfl
    · rw [lines_body h hne, List.filter_flatMap]
      refine List.flatMap_congr fun s hs => ?_
      rw [(isLine_comment_iff.mpr (hnames s hs)).lines_eq, List.singleton_append,
        List.filter_cons_of_pos (by simpa using isComment_comment s), List.filter_append,
        List.filter_singleton]
      simp [not_isComment_empty]
  have hrest : ∀ s : Section, (s.sortedLines.flatMap lines).filter (IsComment ·) = [] ↔
      ∀ rule ∈ s.lines, ∀ line ∈ lines rule, ¬IsComment line := by
    intro s
    simp only [List.filter_eq_nil_iff, List.mem_flatMap, Section.mem_sortedLines_iff,
      decide_eq_true_eq]
    exact ⟨fun hall rule hrule line hline => hall line ⟨rule, hrule, hline⟩,
      fun hall line ⟨rule, hrule, hline⟩ => hall rule hrule line hline⟩
  constructor
  · intro hlegible
    have hnames : ∀ s ∈ sections, IsLine s.name := by
      intro s hs
      have hmem := hlegible.comments_eq ▸ List.mem_map_of_mem hs
      exact isLine_comment_iff.mp (Text.isLine_of_mem_lines (List.mem_filter.mp hmem).1)
    have hnone := flatMap_cons_eq_map_iff.mp ((hcomments hnames).symm.trans hlegible.comments_eq)
    refine fun s hs => ⟨hnames s hs, fun rule hrule line hline => ?_⟩
    have hline' : ¬IsComment line := (hrest s).mp (hnone s hs) rule hrule line hline
    refine ⟨hline', fun hempty => hlegible.mem_lines line ?_ hempty hline'⟩
    exact (mem_lines_body_iff h).mpr (Or.inr ⟨s, hs, Or.inr ⟨rule, hrule, hline⟩⟩)
  · intro hall
    constructor
    · rw [hcomments fun s hs => (hall s hs).1, flatMap_cons_eq_map_iff]
      exact fun s hs => (hrest s).mpr fun rule hrule line hline =>
        ((hall s hs).2 rule hrule line hline).1
    · intro line hline hempty hcomment
      rcases (mem_lines_body_iff h).mp hline with hnil | ⟨s, hs, hname | ⟨rule, hrule, hin⟩⟩
      · exact absurd hnil hempty
      · rw [(isLine_comment_iff.mpr (hall s hs).1).lines_eq, List.mem_singleton] at hname
        exact absurd (hname ▸ isComment_comment s) hcomment
      · exact ((hall s hs).2 rule hrule line hin).2 hempty

end AccessTransformer.Rules
