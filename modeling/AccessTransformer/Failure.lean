import AccessTransformer.ClassFile.Fault
import AccessTransformer.ClassFile.Instruction
import AccessTransformer.ClassFile.ModifiedUtf8
import AccessTransformer.Descriptor
import AccessTransformer.Json.Fault
import AccessTransformer.Rules.Fault

/-!
# Failures

A failure is a cause and what was being done when it arose, outermost first.  Each part of the
library has faults of its own; here they are brought together, so that a caller can say in which
step the part failed without looking into the fault.

`Outcome.during` adds a step.  It changes no value and no cause, which is why the readers can be
compared by their causes alone.
-/

namespace AccessTransformer

/-- A step that can fail. -/
inductive Step where
  | readPool
  | textConstant (index : Nat)
  | className
  | superClassName
  | interfaceName
  | fields
  | methods
  | memberName
  | memberDescriptor
  | attributeName
  | innerClasses
  | methodName
  | methodDescriptor
  | body (name descriptor : String)
  | methodRef
  | owner
  | classFile
  | fieldDescriptor (field : String)
  | entry (archive name : String)
  | read (path : String)
  | parseRules (path : String)
  | checkRules (path : String)
  | create (path : String)
  | createTemporary (directory : String)
  | write (path : String)
  | flush (path : String)
  | replace (path : String)
  | launch (program : String)
  | clearRejects (path : String)
  | readDirectory (path : String)
  deriving DecidableEq, Repr

/-- The wording of a step. -/
def Step.message : Step → String
  | .readPool => "read constant pool"
  | .textConstant index => s!"invalid utf8 entry #{index}"
  | .className => "resolve class name"
  | .superClassName => "resolve super class name"
  | .interfaceName => "resolve interface name"
  | .fields => "read fields"
  | .methods => "read methods"
  | .memberName => "resolve member name"
  | .memberDescriptor => "resolve member descriptor"
  | .attributeName => "resolve attribute name"
  | .innerClasses => "read InnerClasses"
  | .methodName => "resolve method name"
  | .methodDescriptor => "resolve method descriptor"
  | .body name descriptor => s!"parse bytecode of {name}{descriptor}"
  | .methodRef => "resolve method ref"
  | .owner => "resolve owner"
  | .classFile => "failed to parse class file bytes"
  | .fieldDescriptor field => s!"invalid descriptor of field {field}"
  | .entry archive name => s!"failed to parse {archive}:{name}"
  | .read path => s!"failed to read {path}"
  | .parseRules path => s!"failed to parse rules {path}"
  | .checkRules path => s!"invalid rules {path}"
  | .create path => s!"failed to create {path}"
  | .createTemporary directory => s!"failed to create temporary file in {directory}"
  | .write path => s!"failed to write {path}"
  | .flush path => s!"failed to flush {path}"
  | .replace path => s!"failed to replace {path}"
  | .launch program => s!"failed to run {program}"
  | .clearRejects path => s!"failed to clear rejects {path}"
  | .readDirectory path => s!"failed to read directory {path}"

/-- How the external patch tool ended when it did not do its work. -/
inductive Breakdown where
  /-- The tool gave up with an exit code. -/
  | exitCode (code : Int)
  /-- A signal ended the tool. -/
  | signal
  deriving DecidableEq, Repr

/-- The wording of a breakdown of the tool that goes by `name`. -/
def Breakdown.message (name : String) : Breakdown → String
  | .exitCode code => s!"{name} failed with exit code: {code}"
  | .signal => s!"{name} terminated by signal"

/-- What a failure comes from. -/
inductive Cause where
  | classFile (fault : ClassFile.Fault)
  | text (fault : ModifiedUtf8.Fault)
  | instruction (fault : Instruction.Fault)
  | form (fault : ClassFile.FormFault)
  | descriptor (fault : Descriptor.Fault)
  /-- A class is declared a second time. -/
  | declaredTwice (name : String)
  | rules (fault : Rules.Fault)
  | json (fault : Json.Fault)
  /-- A file is no archive. -/
  | notArchive
  /-- The file system or the launch of a program failed. -/
  | system
  /-- An input does not exist. -/
  | inputNotFound (path : String)
  /-- The command of the patch tool has no program. -/
  | emptyToolCommand
  /-- Neither a directory nor an archive is given for the patches. -/
  | noPatchOutput
  /-- The patch tool broke down while it compared. -/
  | diffTool (breakdown : Breakdown)
  /-- The patch tool broke down while it patched. -/
  | patchTool (breakdown : Breakdown)
  /-- Patches did not apply, and left these files behind. -/
  | rejected (rejects : String) (files : List String)
  deriving DecidableEq, Repr

/-- The wording of a cause. -/
def Cause.message : Cause → String
  | .classFile fault => fault.message
  | .text fault => fault.message
  | .instruction fault => fault.message
  | .form fault => fault.message
  | .descriptor fault => fault.message
  | .declaredTwice name => s!"class {name} is declared more than once"
  | .rules fault => fault.message
  | .json fault => fault.message
  | .notArchive => "<zip>"
  | .system => "<io>"
  | .inputNotFound path => s!"input not found: {path}"
  | .emptyToolCommand => "patch tool command must not be empty"
  | .noPatchOutput => "either --patches-dir or --patches-archive is required"
  | .diffTool breakdown => breakdown.message "DiffPatch"
  | .patchTool breakdown => breakdown.message "patch tool"
  | .rejected rejects files =>
    s!"{files.length} patch(es) failed to apply, rejects in {rejects}:\n"
      ++ "\n".intercalate files

/-- A cause, and the steps in which it arose, outermost first. -/
structure Failure where
  steps : List Step := []
  cause : Cause
  deriving DecidableEq, Repr

/-- The wording of a failure: its steps and its cause, each behind the one that it is part of. -/
def Failure.message (failure : Failure) : String :=
  ": ".intercalate (failure.steps.map Step.message ++ [failure.cause.message])

/-! ## Outcomes -/

/-- A value, or the failure to get it. -/
abbrev Outcome (α : Type) := Except Failure α

namespace Outcome

variable {α : Type}

/-- The outcome of a step that failed outright. -/
def fail (cause : Cause) : Outcome α :=
  .error ⟨[], cause⟩

/-- The outcome of a part, with its fault as the cause. -/
def lift {ε : Type} (cause : ε → Cause) : Except ε α → Outcome α
  | .ok a => .ok a
  | .error fault => fail (cause fault)

/-- The same outcome, as part of a step. -/
def during (step : Step) : Outcome α → Outcome α
  | .ok a => .ok a
  | .error failure => .error { failure with steps := step :: failure.steps }

@[simp] theorem during_ok (step : Step) (a : α) : during step (.ok a) = .ok a := rfl

@[simp] theorem during_eq_ok_iff {step : Step} {x : Outcome α} {a : α} :
    during step x = .ok a ↔ x = .ok a := by
  cases x with
  | ok b => simp
  | error failure => simp [during]

@[simp] theorem lift_ok {ε : Type} (cause : ε → Cause) (a : α) :
    lift cause (.ok a : Except ε α) = .ok a := rfl

@[simp] theorem lift_eq_ok_iff {ε : Type} {cause : ε → Cause} {x : Except ε α} {a : α} :
    lift cause x = .ok a ↔ x = .ok a := by
  cases x with
  | ok b => simp
  | error fault => simp [lift, fail]

end Outcome

end AccessTransformer
