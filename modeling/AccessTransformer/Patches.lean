import AccessTransformer.Files.Session

/-!
# Patches

Comparing sources and applying patches to them is the work of an external tool.  This module says
which arguments the tool gets, what its exit code means, and which files it leaves behind for the
patches that it could not apply.

What a program does to the files, and how it ends, is nothing that this library decides: a launcher
stands for it.
-/

namespace AccessTransformer

/-- How programs run: from a program, its arguments and the files to the files that it leaves and
its exit code.  A program that a signal ended has none; one that cannot be started gives nothing. -/
abbrev Launcher := String → List String → FileSystem → Option (FileSystem × Option Int)

namespace Patches

/-! ## The tool -/

/-- The command that starts the tool. -/
structure Tool where
  program : String
  /-- The arguments in front of all others. -/
  leading : List String
  deriving DecidableEq, Repr

/-- The tool that a command starts. -/
def Tool.ofCommand : List String → Outcome Tool
  | [] => Outcome.fail .emptyToolCommand
  | program :: leading => .ok { program, leading }

/-- The exit code of the tool with the given arguments, if it has one. -/
def Tool.run (tool : Tool) (launcher : Launcher) (arguments : List String) :
    Session (Option Int) :=
  Session.ofChange fun files =>
    match launcher tool.program (tool.leading ++ arguments) files with
    | none => (files, Outcome.during (.launch tool.program) (Outcome.fail .system))
    | some (files, code) => (files, .ok code)

/-- The arguments that say how the base is packed.  A base that is a directory is not packed. -/
def baseArguments (files : FileSystem) (base : String) : List String :=
  if files.IsDirectory base then [] else ["--archive-base", Path.archiveFormat base]

/-! ## Comparing -/

/-- Where the patches go. -/
inductive Output where
  /-- An archive, packed as its name says. -/
  | archive (path : String)
  /-- A directory, with a patch for each source. -/
  | directory (path : String)
  deriving DecidableEq, Repr

/-- What to compare. -/
structure DiffRequest where
  base : String
  modified : String
  output : Output
  deriving DecidableEq, Repr

/-- What a comparison finds. -/
inductive DiffStatus where
  | clean
  | differences
  deriving DecidableEq, Repr

/-- What the exit code of a comparison means. -/
def DiffStatus.ofExit : Option Int → Outcome DiffStatus
  | none => Outcome.fail (.diffTool .signal)
  | some code =>
    if code = 0 then .ok .clean
    else if code = 1 then .ok .differences
    else Outcome.fail (.diffTool (.exitCode code))

/-- The arguments that say where the patches go. -/
def Output.arguments : Output → List String
  | .archive path => ["--output", path, "--archive", Path.archiveFormat path]
  | .directory path => ["--output", path]

/-- The arguments for a comparison. -/
def DiffRequest.arguments (request : DiffRequest) (files : FileSystem) : List String :=
  ["--diff"] ++ baseArguments files request.base ++ [request.base, request.modified]
    ++ request.output.arguments
    ++ ["--auto-header", "--log-level", "WARN", "--a-prefix", "a/", "--b-prefix", "b/",
      "--line-endings", "\n"]

/-- Compares sources. -/
def Tool.diff (tool : Tool) (launcher : Launcher) (request : DiffRequest) :
    Session DiffStatus := do
  let code ← tool.run launcher (request.arguments (← get))
  Session.ofView fun _ => DiffStatus.ofExit code

/-! ## Applying -/

/-- What to apply. -/
structure ApplyRequest where
  base : String
  patches : String
  output : String
  /-- The directory for the patches that cannot be applied. -/
  rejects : String
  deriving DecidableEq, Repr

/-- The arguments for an application. -/
def ApplyRequest.arguments (request : ApplyRequest) (files : FileSystem) : List String :=
  ["--patch"] ++ baseArguments files request.base ++ [request.base, request.patches]
    ++ ["--output", request.output, "--archive", Path.archiveFormat request.output]
    ++ ["--reject", request.rejects, "--log-level", "WARN"]

/-- Whether the exit code of an application means that the tool did its work. -/
def checkExit : Option Int → Outcome Unit
  | none => Outcome.fail (.patchTool .signal)
  | some code =>
    if code = 0 ∨ code = 1 then .ok () else Outcome.fail (.patchTool (.exitCode code))

/-- The file system without the rejects that are there from before. -/
def clearRejects (rejects : String) : Session Unit :=
  Session.during (.clearRejects rejects) <| Session.ofChange fun files =>
    if files.Exists rejects then files.clear rejects else (files, .ok ())

/-- The path of what names lead to from the directory for rejects. -/
def rejectPath (rejects : String) (names : List String) : String :=
  Path.child rejects (Path.join names)

/-- Whether what lies inside the directory for rejects counts as a reject.  Files do, and so does a
directory that cannot be looked into because its path is too long. -/
def IsReject (rejects : String) (entry : List String × Node) : Prop :=
  (entry.1.dropLast = [] ∨ Path.IsUsable (rejectPath rejects entry.1.dropLast))
    ∧ (entry.2 ≠ .directory ∨ ¬Path.IsUsable (rejectPath rejects entry.1))

instance (rejects : String) (entry : List String × Node) : Decidable (IsReject rejects entry) :=
  inferInstanceAs (Decidable (_ ∧ _))

/-- The paths of all rejects, in order. -/
def rejectsIn (rejects : String) (files : FileSystem) : Outcome (List String) :=
  match files.resolve? rejects with
  | none => .ok []
  | some location =>
    if files.node? location = some .directory then
      .ok (((files.inside location).filter fun entry => IsReject rejects entry).map fun entry =>
        rejectPath rejects entry.1)
    else Outcome.during (.readDirectory rejects) (Outcome.fail .system)

/-- Applies patches.  The rejects that it leaves are all from this application. -/
def Tool.apply (tool : Tool) (launcher : Launcher) (request : ApplyRequest) :
    Session (List String) := do
  clearRejects request.rejects
  let code ← tool.run launcher (request.arguments (← get))
  Session.ofView fun _ => checkExit code
  Session.ofView (rejectsIn request.rejects)

end Patches

end AccessTransformer
