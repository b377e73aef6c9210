import AccessTransformer.Rules.Selection
import AccessTransformer.Text.Order

/-!
# Listings

The file that comes out: a header that says where it comes from, and a block for each group with
the group's name and its lines in order.  Blocks stand apart by an empty line.

Lines are in the order of their characters, which is that of their bytes too.
-/

namespace AccessTransformer.Rules

/-- What stands above all blocks. -/
def header : String :=
  "# This file is generated based on the rules defined in the buildscript. "
    ++ "DO NOT modify it manually.\n"
    ++ "# Add more rules in the buildscript and then run the generateAccessTransformers task "
    ++ "to update this file.\n\n"

namespace Section

/-- The lines in the order in which they are listed. -/
def sortedLines (s : Section) : List String := Text.sort s.lines

/-- The block of a group. -/
def text (s : Section) : String := "# " ++ s.name ++ "\n" ++ "\n".intercalate s.sortedLines ++ "\n"

end Section

/-- The whole listing. -/
def listing (sections : List Section) : String :=
  header ++ "\n".intercalate (sections.map Section.text)

end AccessTransformer.Rules
