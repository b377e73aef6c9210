import AccessTransformer.CallTargets
import AccessTransformer.CommandLine.Command
import AccessTransformer.Patches
import AccessTransformer.Rules.Generation
import AccessTransformer.Rules.Spelling

/-!
# Running commands

What the commands do to the files.  Inputs have to exist before anything else is looked at, and a
result is written only when all of it is there, so that a command that fails leaves the files as
they were; only the patch tool can change files on its own.
-/

namespace AccessTransformer.CommandLine

/-! ## Inputs -/

/-- The input is there. -/
def requireInput (path : String) : Session Unit :=
  Session.ofView fun files =>
    if files.Exists path then .ok () else Outcome.fail (.inputNotFound path)

/-- The text of a file. -/
def readText (path : String) : Session String :=
  Session.during (.read path) <| Session.ofView fun files =>
    match (files.read? path).bind Content.text? with
    | some text => .ok text
    | none => Outcome.fail .system

/-- The archive in a file. -/
def readArchive (path : String) : Session Archive :=
  Session.during (.read path) <| Session.ofView fun files =>
    match files.read? path with
    | some (.archive archive) => .ok archive
    | _ => Outcome.fail .notArchive

/-- The rule groups of a rules file. -/
def loadRules (path : String) : Session (List Rules.Group) := do
  let text ← readText path
  let file ← Session.ofView fun _ =>
    Outcome.during (.parseRules path) (Outcome.lift .json (Rules.RulesFile.ofText text))
  Session.ofView fun _ => Outcome.during (.checkRules path) (Outcome.lift .rules file.resolve)

/-- Puts a text under a path. -/
def save (path text : String) : Session Unit :=
  Session.ofChange fun files => files.save path text

/-! ## Commands -/

/-- What a generation went through. -/
structure Summary where
  classes : Nat
  groups : Nat
  deriving DecidableEq, Repr

/-- Generates a listing from an archive and a rules file. -/
def Generate.run (options : Generate) : Session Summary := do
  requireInput options.input
  let groups ← loadRules options.rules
  let archive ← readArchive options.input
  let generation ← Session.ofView fun _ => Rules.generate groups archive options.input
  save options.output generation.text
  return { classes := generation.classCount, groups := groups.length }

/-- Lists the classes of an archive that call a method. -/
def ListCallers.run (options : ListCallers) : Session Unit := do
  requireInput options.input
  let archive ← readArchive options.input
  let target : CallTarget := { name := options.method, descriptor := options.descriptor }
  let callers ← Session.ofView fun _ => target.callers archive options.input options.exclude
  save options.output (Json.Value.lines callers)

/-- Where the patches of a comparison go. -/
def Diff.patchOutput (options : Diff) : Outcome Patches.Output :=
  match options.patchesArchive, options.patchesDir with
  | some path, _ => .ok (.archive path)
  | none, some path => .ok (.directory path)
  | none, none => Outcome.fail .noPatchOutput

/-- Compares sources. -/
def Diff.run (options : Diff) (launcher : Launcher) : Session Unit := do
  requireInput options.base
  requireInput options.modified
  let output ← Session.ofView fun _ => options.patchOutput
  let tool ← Session.ofView fun _ => Patches.Tool.ofCommand options.tool
  let _ ← tool.diff launcher { base := options.base, modified := options.modified, output }

/-- Applies patches, and fails if any of them is rejected. -/
def Apply.run (options : Apply) (launcher : Launcher) : Session Unit := do
  requireInput options.base
  requireInput options.patches
  let tool ← Session.ofView fun _ => Patches.Tool.ofCommand options.tool
  let rejects ← tool.apply launcher {
    base := options.base
    patches := options.patches
    output := options.output
    rejects := options.rejects }
  Session.ofView fun _ =>
    if rejects = [] then .ok () else Outcome.fail (.rejected options.rejects rejects)

/-- Does what a command asks for. -/
def Command.run (command : Command) (launcher : Launcher) : Session (Option Summary) :=
  match command with
  | .generate options => do return some (← options.run)
  | .callTargets options => do
    options.run
    return none
  | .diff options => do
    options.run launcher
    return none
  | .apply options => do
    options.run launcher
    return none

end AccessTransformer.CommandLine
