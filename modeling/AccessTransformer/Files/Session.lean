import AccessTransformer.Files.FileSystem

/-!
# Sessions

Work that reads and changes files and can fail.  A failure ends the work, and the files are then as
they were when it arose.
-/

namespace AccessTransformer

/-- Work on a file system. -/
abbrev Session := ExceptT Failure (StateM FileSystem)

namespace Session

variable {α : Type}

/-- The work that a function on file systems does. -/
def ofChange (change : FileSystem → FileSystem × Outcome α) : Session α :=
  fun files => ((change files).2, (change files).1)

/-- The work that looks at the files and leaves them as they are. -/
def ofView (view : FileSystem → Outcome α) : Session α :=
  fun files => (view files, files)

/-- The same work, as part of a step. -/
def during (step : Step) (work : Session α) : Session α :=
  fun files => ((Outcome.during step (work files).1), (work files).2)

/-- What is left of the files, and the outcome. -/
def perform (work : Session α) (files : FileSystem) : FileSystem × Outcome α :=
  ((work files).2, (work files).1)

end Session

end AccessTransformer
