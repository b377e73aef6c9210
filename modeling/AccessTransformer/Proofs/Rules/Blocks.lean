import AccessTransformer.Proofs.Rules.Listing
import Mathlib.Data.List.Forall2

/-!
# The blocks of a listing

A listing can be taken apart again without knowing what is in it.  Behind the header each line has
its end, and the empty lines are where one block stops and the next one starts.  The first line of a
block is the comment and all others are rules, even those that look like a comment themselves.  This
needs that names and rules are single lines and that no rule is empty: an empty rule would be taken
for the end of its block.

* `blocks?_body`: the blocks that a listing is taken apart into.
* `listing_reads_back`: they are the sections, and listings tell sections apart except for the order
  of the lines in a section.
-/

namespace AccessTransformer.Rules

open Text (lines IsLine)

/-! ## Taking a text apart -/

/-- The lines of a text if each of them has its end. -/
def endedLines? (text : String) : Option (List String) :=
  if (lines text).getLast? = some "" then some (lines text).dropLast else none

/-- What stands between the empty lines of a text, in which each line has its end. -/
def blocks? (text : String) : Option (List (List String)) :=
  (endedLines? text).map fun ended => if ended = [] then [] else ended.splitOn ""

/-- Lists that each have the same end are joined by it, and it stands behind the last one too. -/
theorem flatMap_append_singleton_eq {α : Type} {parts : List (List α)} (x : α) (h : parts ≠ []) :
    parts.flatMap (· ++ [x]) = [x].intercalate parts ++ [x] := by
  induction parts with
  | nil => exact absurd rfl h
  | cons first parts ih =>
    cases parts with
    | nil => simp
    | cons second parts =>
      rw [List.flatMap_cons, ih (List.cons_ne_nil second parts), List.intercalate_cons_cons]
      simp only [List.append_assoc]

/-- **Blocks without empty lines are found again** where each has an empty line behind it. -/
theorem blocks?_eq_some {text : String} {blocks : List (List String)}
    (htext : lines text = blocks.flatMap (· ++ [""])) (hne : blocks ≠ [])
    (h : ∀ block ∈ blocks, block ≠ [] ∧ "" ∉ block) : blocks? text = some blocks := by
  have hlines : lines text = [""].intercalate blocks ++ [""] := by
    rw [htext, flatMap_append_singleton_eq "" hne]
  have hsplit : ([""].intercalate blocks).splitOn "" = blocks :=
    List.splitOn_intercalate "" (fun block hblock => (h block hblock).2) hne
  have hnil : [""].intercalate blocks ≠ [] := by
    intro hnil
    rw [hnil, List.splitOn_nil] at hsplit
    exact (h [] (hsplit ▸ List.mem_singleton_self [])).1 rfl
  have hended : endedLines? text = some ([""].intercalate blocks) := by
    rw [endedLines?, hlines, if_pos List.getLast?_concat, List.dropLast_concat]
  rw [blocks?, hended, Option.map_some, if_neg hnil, hsplit]

/-! ## Blocks and sections -/

namespace Section

/-- Whether a section has a single line as its name, and at least one rule, where each rule is a
single line and not empty. -/
structure IsPlain (s : Section) : Prop where
  isLine_name : IsLine s.name
  lines_ne_nil : s.lines ≠ []
  isLine_of_mem : ∀ rule ∈ s.lines, IsLine rule
  ne_empty_of_mem : ∀ rule ∈ s.lines, rule ≠ ""

instance (s : Section) : Decidable s.IsPlain :=
  decidable_of_iff
    (IsLine s.name ∧ s.lines ≠ [] ∧ (∀ rule ∈ s.lines, IsLine rule) ∧ ∀ rule ∈ s.lines, rule ≠ "")
    ⟨fun ⟨hname, hne, hrules, hempty⟩ => ⟨hname, hne, hrules, hempty⟩,
      fun h => ⟨h.isLine_name, h.lines_ne_nil, h.isLine_of_mem, h.ne_empty_of_mem⟩⟩

/-- The lines of the block of a section. -/
def block (s : Section) : List String := s.comment :: s.sortedLines

variable {s s' : Section}

theorem comment_eq_comment_iff : s.comment = s'.comment ↔ s.name = s'.name := by
  rw [comment, comment, ← String.toList_inj, String.toList_append, String.toList_append,
    List.append_cancel_left_eq, String.toList_inj]

/-- A block tells the name, and which lines there are how often. -/
theorem block_eq_block_iff : s.block = s'.block ↔ s.name = s'.name ∧ s.lines.Perm s'.lines := by
  rw [block, block, List.cons.injEq, comment_eq_comment_iff]
  refine and_congr_right' ⟨fun h => ?_, Text.sort_eq_of_perm⟩
  have hperm : s.sortedLines.Perm s'.sortedLines := List.Perm.of_eq h
  exact (Text.sort_perm s.lines).symm.trans (hperm.trans (Text.sort_perm s'.lines))

theorem text_eq_of_block_eq (h : s.block = s'.block) : s.text = s'.text := by
  obtain ⟨hcomment, hsorted⟩ := List.cons_eq_cons.mp h
  rw [text, text, comment_eq_comment_iff.mp hcomment, hsorted]

namespace IsPlain

theorem notMem_block (h : s.IsPlain) : "" ∉ s.block := by
  rw [block, List.mem_cons, not_or, Section.mem_sortedLines_iff]
  refine ⟨fun hcomment => ?_, fun hrule => h.ne_empty_of_mem "" hrule rfl⟩
  exact not_isComment_empty (hcomment ▸ isComment_comment s)

/-- The lines of a plain section are those of its block. -/
theorem lines_eq (h : s.IsPlain) :
    Text.lines s.comment ++ (s.sortedLines.flatMap Text.lines ++ [""]) = s.block ++ [""] := by
  have hrules : s.sortedLines.flatMap Text.lines = s.sortedLines := by
    have hline : ∀ rule ∈ s.sortedLines, Text.lines rule = [rule] := fun rule hrule =>
      (h.isLine_of_mem rule (Section.mem_sortedLines_iff.mp hrule)).lines_eq
    rw [List.flatMap_congr hline, List.flatMap_singleton']
  rw [(isLine_comment_iff.mpr h.isLine_name).lines_eq, hrules]
  rfl

end IsPlain

end Section

variable {sections sections' : List Section}

/-- **What stands behind the header is taken apart into the blocks of the sections.** -/
theorem blocks?_body (h : ∀ s ∈ sections, s.IsPlain) :
    blocks? (body sections) = some (sections.map Section.block) := by
  by_cases hne : sections = []
  · subst hne
    decide
  · refine blocks?_eq_some ?_ (by simpa using hne) ?_
    · rw [lines_body (fun s hs => (h s hs).lines_ne_nil) hne, List.flatMap_map]
      exact List.flatMap_congr fun s hs => (h s hs).lines_eq
    · rw [List.forall_mem_map]
      exact fun s hs => ⟨List.cons_ne_nil _ _, (h s hs).notMem_block⟩

/-- Listings of plain sections are equal exactly if their blocks are. -/
theorem listing_eq_listing_iff (h : ∀ s ∈ sections, s.IsPlain)
    (h' : ∀ s ∈ sections', s.IsPlain) :
    listing sections = listing sections'
      ↔ List.Forall₂ (fun s s' => s.block = s'.block) sections sections' := by
  constructor
  · intro heq
    rw [listing_eq, listing_eq, ← String.toList_inj, String.toList_append, String.toList_append,
      List.append_cancel_left_eq, String.toList_inj] at heq
    have hblocks : sections.map Section.block = sections'.map Section.block :=
      Option.some.inj (by rw [← blocks?_body h, ← blocks?_body h', heq])
    rwa [← List.forall₂_eq_eq_eq, List.forall₂_map_left_iff, List.forall₂_map_right_iff] at hblocks
  · intro hblocks
    have htexts : sections.map Section.text = sections'.map Section.text := by
      rw [← List.forall₂_eq_eq_eq, List.forall₂_map_left_iff, List.forall₂_map_right_iff]
      exact hblocks.imp fun _ _ => Section.text_eq_of_block_eq
    rw [listing, listing, htexts]

/-- **A listing of plain sections reads back as these sections**: behind the header there is one
block for each of them in order, with a comment that has its name and then its lines in the order of
their bytes, and nothing behind the last line.  So two listings are equal exactly if the sections
have the same names in the same order and, name by name, the same lines as often. -/
theorem listing_reads_back (sections : List Section) (h : ∀ s ∈ sections, s.IsPlain) :
    (∃ rest blocks, listing sections = header ++ rest ∧ blocks? rest = some blocks ∧
      List.Forall₂ (fun s block => ∃ rules, block = ("# " ++ s.name) :: rules ∧
        rules.Perm s.lines ∧ rules.Pairwise (Text.bytes · ≤ Text.bytes ·)) sections blocks) ∧
    ∀ sections' : List Section, (∀ s ∈ sections', s.IsPlain) →
      (listing sections = listing sections' ↔ List.Forall₂
        (fun s s' => s.name = s'.name ∧ s.lines.Perm s'.lines) sections sections') := by
  refine ⟨⟨body sections, _, listing_eq sections, blocks?_body h, ?_⟩, fun sections' h' => ?_⟩
  · rw [List.forall₂_map_right_iff, List.forall₂_same]
    exact fun s _ => ⟨s.sortedLines, rfl, Text.sort_perm s.lines, Text.pairwise_bytes_sort s.lines⟩
  · rw [listing_eq_listing_iff h h']
    simp only [Section.block_eq_block_iff]

/-- Two sections, the second of which has one rule. -/
def firstAndSecond (rules : List String) : List Section :=
  [⟨"first", rules⟩, ⟨"second", ["public b"]⟩]

/-- A rule that looks like the comment of the second section does not start another block.  In which
order the rules were does not show, how often they were does. -/
theorem listing_reads_back_two :
    (∃ rest blocks, listing (firstAndSecond ["public a", "# second", "public a"]) = header ++ rest ∧
      blocks? rest = some blocks ∧ blocks.length = 2) ∧
    listing (firstAndSecond ["public a", "# second", "public a"])
      = listing (firstAndSecond ["# second", "public a", "public a"]) ∧
    listing (firstAndSecond ["public a", "# second", "public a"])
      ≠ listing (firstAndSecond ["public a", "# second"]) := by
  obtain ⟨⟨rest, blocks, hlisting, hblocks, hforall⟩, heq⟩ :=
    listing_reads_back (firstAndSecond ["public a", "# second", "public a"]) (by decide)
  refine ⟨⟨rest, blocks, hlisting, hblocks, hforall.length_eq.symm⟩, ?_, fun h => ?_⟩
  · exact (heq _ (by decide)).mpr (.cons ⟨rfl, by decide⟩ (.cons ⟨rfl, .rfl⟩ .nil))
  · cases (heq _ (by decide)).mp h with
    | cons hfirst _ => exact absurd hfirst.2 (by decide)

end AccessTransformer.Rules
