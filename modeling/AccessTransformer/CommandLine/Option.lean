import AccessTransformer.CommandLine.Fault

/-!
# Options

The arguments behind a subcommand are read from left to right.  An option waits for its value, and
is settled when the next option or flag comes, or at the end: only then does it count whether it
has a value, whether that is a path, and whether the option was there before.  An argument that
nothing is known about decides at once, even before an option that is still to be settled.

A value may not look like an option, except for options that pass on whatever they get.

* `Settings.ofArguments`: the flags and values that arguments give.
-/

namespace AccessTransformer.CommandLine

/-- What an option takes. -/
inductive Taking where
  /-- A path, which is not empty. -/
  | path
  /-- Any text. -/
  | text
  /-- Any text, any number of times. -/
  | texts
  /-- Any argument at all, any number of times. -/
  | arguments
  deriving DecidableEq, Repr

/-- Whether an option may be given more than once. -/
def Taking.Repeats : Taking → Prop
  | .path | .text => False
  | .texts | .arguments => True

instance (taking : Taking) : Decidable taking.Repeats := by
  cases taking <;> simp only [Taking.Repeats] <;> infer_instance

/-- The options and flags that a subcommand knows. -/
structure Form where
  options : List (String × Taking)
  flags : List String

/-- What arguments give. -/
structure Settings where
  flags : List String := []
  /-- The values of the options, in order. -/
  values : List (String × String) := []
  deriving DecidableEq, Repr

namespace Settings

/-- The values of an option. -/
def all (settings : Settings) (name : String) : List String :=
  (settings.values.filter fun value => value.1 = name).map (·.2)

/-- The first value of an option. -/
def first? (settings : Settings) (name : String) : Option String := (settings.all name).head?

/-- The value of an option that may not be left out. -/
def required (settings : Settings) (name : String) : Except Fault String :=
  match settings.first? name with
  | some value => .ok value
  | none => .error .missingRequiredArgument

/-! ## Settling -/

/-- An option that is still to be settled, with the value that it has got. -/
structure Pending where
  name : String
  taking : Taking
  value : Option String

/-- The settings with one more value. -/
def put (settings : Settings) (name : String) (taking : Taking) (value : String) :
    Except Fault Settings :=
  if ¬taking.Repeats ∧ settings.all name ≠ [] then .error .argumentConflict
  else if taking = .path ∧ value = "" then .error .invalidValue
  else .ok { settings with values := settings.values ++ [(name, value)] }

/-- The settings with a pending option settled. -/
def settle (settings : Settings) : Option Pending → Except Fault Settings
  | none => .ok settings
  | some ⟨_, _, none⟩ => .error .invalidValue
  | some ⟨name, taking, some value⟩ => settings.put name taking value

/-- The settings with one more flag. -/
def raise (settings : Settings) (flag : String) : Except Fault Settings :=
  if flag ∈ settings.flags then .error .argumentConflict
  else .ok { settings with flags := settings.flags ++ [flag] }

/-! ## Reading -/

/-- What an argument looks like. -/
inductive Look where
  /-- Two dashes and nothing else. -/
  | escape
  /-- Two dashes and a name, with a value behind an equals sign or without. -/
  | long (name : String) (value : Option String)
  /-- A dash and a letter, whatever follows. -/
  | short (letter : Char)
  /-- Anything else. -/
  | word
  deriving DecidableEq, Repr

/-- A name, and what stands behind an equals sign. -/
def splitValue (text : List Char) : String × Option String :=
  (String.ofList (text.takeWhile (· ≠ '=')),
    match text.dropWhile (· ≠ '=') with
    | [] => none
    | _ :: value => some (String.ofList value))

/-- What an argument looks like. -/
def look (argument : String) : Look :=
  match argument.toList with
  | ['-', '-'] => .escape
  | '-' :: '-' :: text => .long (splitValue text).1 (splitValue text).2
  | '-' :: letter :: _ => .short letter
  | _ => .word

/-- What is read so far. -/
structure Reading where
  settings : Settings := {}
  pending : Option Pending := none

/-- Whether the next argument is a value, if it does not look like an option. -/
def Reading.awaits (reading : Reading) : Option Pending :=
  match reading.pending with
  | some ⟨name, taking, none⟩ => some ⟨name, taking, none⟩
  | _ => none

/-- The reading behind a flag or option of the given name. -/
def Reading.long (reading : Reading) (form : Form) (name : String) (value : Option String) :
    Except Fault Reading :=
  match form.options.lookup name, value with
  | some taking, none => do
    return { settings := ← reading.settings.settle reading.pending
             pending := some ⟨name, taking, none⟩ }
  | some taking, some value => do
    let settings ← reading.settings.settle reading.pending
    return { settings := ← settings.put name taking value }
  | none, value =>
    if name ∉ form.flags ∧ name ≠ "help" then .error .unknownArgument
    else if value ≠ none then .error .tooManyValues
    else do
      let settings ← reading.settings.settle reading.pending
      if name = "help" then .error .displayHelp
      else return { settings := ← settings.raise name }

/-- The reading behind an option of a single letter. -/
def Reading.short (reading : Reading) (letter : Char) : Except Fault Reading :=
  if letter = 'h' then do
    let _ ← reading.settings.settle reading.pending
    .error .displayHelp
  else .error .unknownArgument

/-- The settings that arguments give, behind what is read of them. -/
def read (form : Form) (reading : Reading) : List String → Except Fault Settings
  | [] => reading.settings.settle reading.pending
  | argument :: arguments =>
    match reading.awaits with
    | some ⟨name, .arguments, _⟩ =>
      read form { reading with pending := some ⟨name, .arguments, some argument⟩ } arguments
    | awaited =>
      match look argument, awaited with
      | .escape, _ =>
        if arguments = [] then reading.settings.settle reading.pending
        else .error .unknownArgument
      | .long name value, _ => do
        let reading ← reading.long form name value
        read form reading arguments
      | .short letter, _ => do
        let reading ← reading.short letter
        read form reading arguments
      | .word, some ⟨name, taking, _⟩ =>
        read form { reading with pending := some ⟨name, taking, some argument⟩ } arguments
      | .word, none => .error .unknownArgument

/-- The settings that the arguments behind a subcommand give. -/
def ofArguments (form : Form) (arguments : List String) : Except Fault Settings :=
  read form {} arguments

end Settings

end AccessTransformer.CommandLine
