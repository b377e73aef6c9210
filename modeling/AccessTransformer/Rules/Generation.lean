import AccessTransformer.Archive
import AccessTransformer.Rules.Listing

/-!
# Generation

From an archive and rule groups to the listing: the graph of the archive's classes, what the groups
select in it, and the text.
-/

namespace AccessTransformer.Rules

/-- What a generation gives. -/
structure Generation where
  text : String
  /-- The number of classes that the archive declares or mentions. -/
  classCount : Nat
  deriving DecidableEq, Repr

/-- The listing for the archive with the given path. -/
def generate (groups : List Group) (archive : Archive) (path : String) : Outcome Generation := do
  let graph ← archive.classGraph path
  let sections ← Outcome.lift .rules (sections graph groups)
  return { text := listing sections, classCount := graph.size }

end AccessTransformer.Rules
