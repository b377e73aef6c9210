import AccessTransformer.CommandLine.Option

/-!
# Commands

What a command line asks for.  In front of the subcommand there may be flags; they may also stand
behind it, since they are about all subcommands.  Which options a subcommand has is one table for
each, and a command is what the values in it amount to.

* `CommandLine.ofArguments`: the command line that arguments give.
-/

namespace AccessTransformer

namespace CommandLine

/-- Generates a listing. -/
structure Generate where
  input : String
  rules : String
  output : String
  timing : Bool
  deriving DecidableEq, Repr

/-- Lists the classes that call a method. -/
structure ListCallers where
  input : String
  method : String
  descriptor : String
  exclude : List String
  output : String
  deriving DecidableEq, Repr

/-- Compares sources. -/
structure Diff where
  tool : List String
  base : String
  modified : String
  patchesDir : Option String
  patchesArchive : Option String
  deriving DecidableEq, Repr

/-- Applies patches. -/
structure Apply where
  tool : List String
  base : String
  patches : String
  output : String
  rejects : String
  deriving DecidableEq, Repr

/-- What can be asked for. -/
inductive Command where
  | generate (options : Generate)
  | callTargets (options : ListCallers)
  | diff (options : Diff)
  | apply (options : Apply)
  deriving DecidableEq, Repr

end CommandLine

/-- What a command line asks for, and how much it wants to hear about it. -/
structure CommandLine where
  quiet : Bool
  verbose : Bool
  command : CommandLine.Command
  deriving DecidableEq, Repr

namespace CommandLine

/-! ## Subcommands -/

/-- The flags that all subcommands have. -/
def commonFlags : List String := ["quiet", "verbose"]

/-- What follows the subcommand for generating. -/
def Generate.form : Form where
  options := [("input", .path), ("rules", .path), ("output", .path)]
  flags := "timing" :: commonFlags

/-- The command that settings amount to. -/
def Generate.ofSettings (settings : Settings) : Except Fault Generate := do
  return {
    input := ← settings.required "input"
    rules := ← settings.required "rules"
    output := ← settings.required "output"
    timing := decide ("timing" ∈ settings.flags) }

/-- What follows the subcommand for finding callers. -/
def ListCallers.form : Form where
  options := [("input", .path), ("method", .text), ("descriptor", .text), ("exclude", .texts),
    ("output", .path)]
  flags := commonFlags

/-- The command that settings amount to. -/
def ListCallers.ofSettings (settings : Settings) : Except Fault ListCallers := do
  return {
    input := ← settings.required "input"
    method := ← settings.required "method"
    descriptor := ← settings.required "descriptor"
    exclude := settings.all "exclude"
    output := ← settings.required "output" }

/-- What follows the subcommand for comparing. -/
def Diff.form : Form where
  options := [("tool", .arguments), ("base", .path), ("modified", .path), ("patches-dir", .path),
    ("patches-archive", .path)]
  flags := commonFlags

/-- The command that settings amount to.  The patches go to one place. -/
def Diff.ofSettings (settings : Settings) : Except Fault Diff := do
  let patchesDir := settings.first? "patches-dir"
  let patchesArchive := settings.first? "patches-archive"
  if patchesDir ≠ none ∧ patchesArchive ≠ none then .error .argumentConflict
  else if patchesDir = none ∧ patchesArchive = none then .error .missingRequiredArgument
  else
    let _ ← settings.required "tool"
    return {
      tool := settings.all "tool"
      base := ← settings.required "base"
      modified := ← settings.required "modified"
      patchesDir
      patchesArchive }

/-- What follows the subcommand for applying. -/
def Apply.form : Form where
  options := [("tool", .arguments), ("base", .path), ("patches", .path), ("output", .path),
    ("rejects", .path)]
  flags := commonFlags

/-- The command that settings amount to. -/
def Apply.ofSettings (settings : Settings) : Except Fault Apply := do
  let _ ← settings.required "tool"
  return {
    tool := settings.all "tool"
    base := ← settings.required "base"
    patches := ← settings.required "patches"
    output := ← settings.required "output"
    rejects := ← settings.required "rejects" }

/-- A subcommand: what follows it, and the command that this amounts to. -/
structure Subcommand where
  form : Form
  command : Settings → Except Fault Command

/-- The subcommand of the given name. -/
def Subcommand.ofName? (name : String) : Option Subcommand :=
  if name = "generate" then
    some ⟨Generate.form, fun settings => (Generate.ofSettings settings).map .generate⟩
  else if name = "call-targets" then
    some ⟨ListCallers.form, fun settings => (ListCallers.ofSettings settings).map .callTargets⟩
  else if name = "diff" then some ⟨Diff.form, fun settings => (Diff.ofSettings settings).map .diff⟩
  else if name = "apply" then
    some ⟨Apply.form, fun settings => (Apply.ofSettings settings).map .apply⟩
  else none

/-- The command line with a subcommand behind some flags. -/
def Subcommand.parse (subcommand : Subcommand) (flags arguments : List String) :
    Except Fault CommandLine := do
  let settings ← Settings.ofArguments subcommand.form arguments
  return {
    command := ← subcommand.command settings
    quiet := decide ("quiet" ∈ flags ∨ "quiet" ∈ settings.flags)
    verbose := decide ("verbose" ∈ flags ∨ "verbose" ∈ settings.flags) }

/-! ## The whole line -/

/-- The subcommand that asks for help. -/
def helpName : String := "help"

/-- The answer to a request for help on what the words name. -/
def helpOn : List String → Fault
  | [] => .displayHelp
  | [word] =>
    if word = helpName ∨ (Subcommand.ofName? word).isSome then .displayHelp else .invalidSubcommand
  | _ :: _ :: _ => .invalidSubcommand

/-- What is wrong with arguments that end without a subcommand. -/
def endFault (flags : List String) : Fault :=
  if flags = [] then .displayHelpOnMissing else .missingSubcommand

/-- What is wrong with a word that is not taken as a subcommand since it stands behind two
dashes. -/
def escapedFault (word : String) : Fault :=
  if word = helpName ∨ (Subcommand.ofName? word).isSome then .unknownArgument
  else .invalidSubcommand

/-- The command line that arguments give, behind some flags. -/
def parse (flags : List String) : List String → Except Fault CommandLine
  | [] => .error (endFault flags)
  | argument :: arguments =>
    match Settings.look argument with
    | .escape => .error ((arguments.head?.map escapedFault).getD (endFault flags))
    | .long name value =>
      if name = "help" ∨ name = "version" ∨ name ∈ commonFlags then
        if value ≠ none then .error .tooManyValues
        else if name = "help" then .error .displayHelp
        else if name = "version" then .error .displayVersion
        else if name ∈ flags then .error .argumentConflict
        else parse (name :: flags) arguments
      else .error .unknownArgument
    | .short letter =>
      if letter = 'h' then .error .displayHelp
      else if letter = 'V' then .error .displayVersion
      else .error .unknownArgument
    | .word =>
      if argument = helpName then .error (helpOn arguments)
      else
        match Subcommand.ofName? argument with
        | some subcommand => subcommand.parse flags arguments
        | none => .error .invalidSubcommand

/-- The command line that arguments give, the first of which is the name of the program. -/
def ofArguments (arguments : List String) : Except Fault CommandLine := parse [] arguments.tail

end CommandLine

end AccessTransformer
