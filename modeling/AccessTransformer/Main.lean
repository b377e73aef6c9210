import AccessTransformer.CommandLine.Run
import AccessTransformer.Zip.Directory

/-!
# The program

The command line on real files.  What a command can look at is read from the disk first, then the
command runs on that, and what it wrote is put back.  A file comes into its place by being renamed,
so that it is never there in part.

Programs are not started from here: the patch tool counts as one that is not there, and nothing is
removed from the disk.
-/

namespace AccessTransformer.Program

open FileSystem (pathOf)

/-- What is at a location on the disk. -/
def look (location : Location) : IO (Option Node) := do
  let path := (← IO.currentDir) / pathOf location
  if ← path.isDir then return some .directory
  else if ← path.pathExists then
    let file ← IO.FS.readBinFile path
    match Zip.unpack? file with
    | some archive => return some (.file (.archive archive))
    | none => return some (.file (.bytes file.toList))
  else return none

/-- The files with all that the segments lead to from a location. -/
def load (files : FileSystem) (location : Location) : List String → IO FileSystem
  | [] => return files
  | segment :: segments => do
    if Path.IsIdle segment then load files location segments
    else if segment = ".." then load files location.tail segments
    else
      match ← look (segment :: location) with
      | some node => load (files.put (segment :: location) node) (segment :: location) segments
      | none => return files

/-- The files with all that the paths lead to. -/
def loadAll (files : FileSystem) (paths : List String) : IO FileSystem :=
  paths.foldlM (fun files path => load files (files.start path) (Path.segments path)) files

/-- The paths that a command looks at. -/
def pathsOf : CommandLine.Command → List String
  | .generate options => [options.input, options.rules, options.output]
  | .callTargets options => [options.input, options.output]
  | .diff options => [options.base, options.modified]
  | .apply options => [options.base, options.patches]

/-- Puts a node on the disk. -/
def store (location : Location) : Node → IO Unit
  | .directory => IO.FS.createDirAll (pathOf location)
  | .file (.bytes bytes) => do
    let path := pathOf location
    IO.FS.writeBinFile (path ++ ".part") ⟨bytes.toArray⟩
    IO.FS.rename (path ++ ".part") path
  | .file (.archive _) => return ()

/-- Puts all that is new on the disk, directories before what they hold. -/
def storeNew (before after : FileSystem) : IO Unit :=
  for (location, node) in after.nodes.reverse do
    unless before.node? location = some node do
      store location node

/-- Does what the command line asks for, and says how it went.  This never starts a tool: the
launcher finds none, so that `diff` and `apply` always fail, with inputs that are there as for a tool
that cannot be launched. -/
def run (line : CommandLine) : IO UInt32 := do
  let started ← IO.monoMsNow
  let here := (← IO.currentDir).toString
  let root : FileSystem := {}
  let files ← load root [] (Path.segments here)
  let files := { files with workingDirectory := ((Path.segments here).filter (· ≠ "")).reverse }
  let before ← loadAll files (pathsOf line.command)
  let (after, result) := (line.command.run fun _ _ _ => none).perform before
  storeNew before after
  match result with
  | .error failure =>
    IO.eprintln s!"Error: {failure.message}"
    return 1
  | .ok summary =>
    match line.command, summary with
    | .generate options, some summary =>
      if options.timing ∧ ¬line.quiet then
        let elapsed := (← IO.monoMsNow) - started
        IO.eprintln
          s!"timing: total_ms={elapsed} classes={summary.classes} groups={summary.groups}"
      return 0
    | _, _ => return 0

end AccessTransformer.Program

/-- The program. -/
def main (arguments : List String) : IO UInt32 := do
  match AccessTransformer.CommandLine.parse [] arguments with
  | .ok line => AccessTransformer.Program.run line
  | .error fault =>
    IO.eprintln s!"{fault.name}"
    return if fault = .displayHelp ∨ fault = .displayVersion then 0 else 2
