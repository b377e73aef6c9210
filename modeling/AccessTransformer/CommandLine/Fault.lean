/-!
# Faults of command lines

Why a command line is not taken, with the two requests that are answered at once instead of being
run.
-/

namespace AccessTransformer.CommandLine

/-- Why a command line does not give a command. -/
inductive Fault where
  /-- Help is asked for. -/
  | displayHelp
  /-- There is nothing on the command line, so help is what is needed. -/
  | displayHelpOnMissing
  /-- The version is asked for. -/
  | displayVersion
  /-- There are flags and no subcommand. -/
  | missingSubcommand
  /-- A word is no subcommand. -/
  | invalidSubcommand
  /-- Nothing of this name is expected here. -/
  | unknownArgument
  /-- An option or flag is given twice, or with another that excludes it. -/
  | argumentConflict
  /-- A flag has a value. -/
  | tooManyValues
  /-- An option lacks its value, or has one that is no path. -/
  | invalidValue
  /-- An option is left out that may not be. -/
  | missingRequiredArgument
  deriving DecidableEq, Repr

/-- The name of a fault. -/
def Fault.name : Fault → String
  | .displayHelp => "DisplayHelp"
  | .displayHelpOnMissing => "DisplayHelpOnMissingArgumentOrSubcommand"
  | .displayVersion => "DisplayVersion"
  | .missingSubcommand => "MissingSubcommand"
  | .invalidSubcommand => "InvalidSubcommand"
  | .unknownArgument => "UnknownArgument"
  | .argumentConflict => "ArgumentConflict"
  | .tooManyValues => "TooManyValues"
  | .invalidValue => "InvalidValue"
  | .missingRequiredArgument => "MissingRequiredArgument"

end AccessTransformer.CommandLine
