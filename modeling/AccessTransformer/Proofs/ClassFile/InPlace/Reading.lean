import AccessTransformer.ClassFile.Calls
import AccessTransformer.Proofs.ClassFile.InPlace.Instruction
import AccessTransformer.Proofs.ClassFile.InPlace.Pool
import AccessTransformer.Proofs.ClassFile.Layout

/-!
# Class files in place

A class file can be read with a cursor that goes over it, with its constants in tables and each body
walked with an offset.  None of the places that such reading must never get to is within reach,
whatever the bytes are: the class and the calls, or the failure, are those that skimming gives.

* `readClass`, `readCallSites`: the two readers of class files.
* `tracks_declaration`, `tracks_classCalls`: they do as skimming does from every place.
* `reads_and_walks_safely`: no bytes, and no body of less than 2³² bytes, lead to a breach.
-/

namespace AccessTransformer.InPlace

open ClassFile Checked

/-! ## Readers -/

/-- What stands in a class file before the members, with the constants in tables. -/
structure Header where
  pool : Tables
  access : UInt16
  name : String
  superclass : Option String
  interfaces : List String
  deriving DecidableEq, Repr

section Readers

variable (pool : Tables)

/-- The name of the class that the next word refers to. -/
def classReference (step : Step) : Reader String := do
  let index ← Reader.u16
  Reader.ofOutcome ((pool.className index).during step)

/-- The text that the next word refers to. -/
def textReference (step : Step) : Reader String := do
  let index ← Reader.u16
  Reader.ofOutcome ((pool.text index).during step)

/-- The name of the superclass.  Index zero says that there is none. -/
def superclassName (index : UInt16) : Outcome (Option String) :=
  if index = 0 then .ok none
  else ((pool.className index).during .superClassName).map some

/-- The header of the class file. -/
def header : Reader Header := do
  if (← Reader.u32) ≠ magic then Reader.ofOutcome (Outcome.fail (.classFile .badMagic))
  let _minor ← Reader.u16
  let _major ← Reader.u16
  let pool ← Reader.during .readPool readPool
  let access ← Reader.u16
  let this ← Reader.u16
  let super ← Reader.u16
  let name ← Reader.ofOutcome ((pool.className this).during .className)
  let superclass ← Reader.ofOutcome (superclassName pool super)
  let interfaces ← Reader.counted (classReference pool .interfaceName)
  return { pool, access, name, superclass, interfaces }

/-- Passes over an attribute, whatever its name. -/
def skipAttribute : Reader Unit := do
  Reader.skip 2
  let length ← Reader.u32
  Reader.skip length

/-- A field or method.  Its attributes are passed over. -/
def member : Reader Member := do
  let access ← Reader.u16
  let name ← textReference pool .memberName
  let descriptor ← textReference pool .memberDescriptor
  let _ ← Reader.counted skipAttribute
  return { access, name, descriptor }

/-- The fields or the methods. -/
def members (step : Step) : Reader (List Member) :=
  Reader.during step (Reader.counted (member pool))

/-- The name and the body of an attribute. -/
def namedBody : Reader (String × Bytes) := do
  let name ← textReference pool .attributeName
  let length ← Reader.u32
  return (name, ← Reader.take length)

/-- An entry for a nested class: its name and the flags that its source gave it. -/
def innerClass : Reader (String × UInt16) := do
  let inner ← Reader.u16
  let _outer ← Reader.u16
  let _name ← Reader.u16
  let access ← Reader.u16
  return (← Reader.ofOutcome (pool.className inner), access)

/-- The flags of the class after so many entries for nested classes.  Those that were found before
stay if no entry is its own. -/
def innerClassAccess (name : String) (found : Option UInt16) : Nat → Reader (Option UInt16)
  | 0 => pure found
  | count + 1 => do
    let entry ← innerClass pool
    innerClassAccess name (if entry.1 = name then some entry.2 else found) count

/-- The flags that an attribute gives to the class. -/
def flagsInAttribute (name : String) (body : String × Bytes) : Checked Failure (Option UInt16) :=
  if body.1 = "InnerClasses" then
    (Reader.within (do innerClassAccess pool name none (← Reader.u16).toNat) body.2).mapOutcome
      (Outcome.during .innerClasses)
  else pure none

/-- The flags of a class after so many attributes. -/
def effectiveAccess (name : String) (access : UInt16) : Nat → Reader UInt16
  | 0 => pure access
  | count + 1 => do
    let flags ← flagsInAttribute pool name (← namedBody pool)
    effectiveAccess name (flags.getD access) count

/-- A class declaration, up to its last attribute. -/
def declaration : Reader ClassDeclaration := do
  let header ← header
  let fields ← members header.pool .fields
  let methods ← members header.pool .methods
  let count ← Reader.u16
  let access ← effectiveAccess header.pool header.name header.access count.toNat
  return {
    name := header.name
    access
    superclass := header.superclass
    interfaces := header.interfaces
    fields
    methods }

/-- The call site of a call that a walk found. -/
def callSite (raw : RawInvocation) : Checked Failure CallSite := do
  let (owner, name, descriptor) ← safely ((pool.method raw.method).during .methodRef)
  match CallKind.ofOpcode raw.opcode with
  | .ok kind => return { offset := raw.offset, kind, owner, name, descriptor }
  | .error _ => breach (.noCall raw.opcode)

/-- The instructions in the body of a `Code` attribute. -/
def instructions : Reader Bytes := do
  let _maxStack ← Reader.u16
  let _maxLocals ← Reader.u16
  let length ← Reader.u32
  Reader.take length

/-- The call sites in the body of a `Code` attribute. -/
def codeCallSites (body : Bytes) : Checked Failure (List CallSite) := do
  let code ← instructions.within body
  let found ← (walk code code.length 0).mapOutcome (Outcome.lift .instruction)
  found.mapM (callSite pool)

/-- The call sites in an attribute, if it is a `Code` attribute. -/
def callsInAttribute (step : Step) (body : String × Bytes) :
    Checked Failure (Option (List CallSite)) :=
  if body.1 = "Code" then some <$> (codeCallSites pool body.2).mapOutcome (Outcome.during step)
  else pure none

/-- The call sites of a method after so many attributes. -/
def callsInAttributes (step : Step) (calls : List CallSite) : Nat → Reader (List CallSite)
  | 0 => pure calls
  | count + 1 => do
    let found ← callsInAttribute pool step (← namedBody pool)
    callsInAttributes step (found.getD calls) count

/-- A method with its calls. -/
def methodCalls : Reader MethodCalls := do
  let _access ← Reader.u16
  let name ← textReference pool .methodName
  let descriptor ← textReference pool .methodDescriptor
  let count ← Reader.u16
  let calls ← callsInAttributes pool (.body name descriptor) [] count.toNat
  return { name, descriptor, calls }

/-- A class with its calls, up to its last method. -/
def classCalls : Reader ClassCalls := do
  let header ← header
  let _ ← members header.pool .fields
  let methods ← Reader.counted (methodCalls header.pool)
  return { name := header.name, methods }

end Readers

/-- The declaration in a class file, read in place. -/
def readClass (bytes : Bytes) : Checked Failure ClassDeclaration := declaration.within bytes

/-- The calls in a class file, read in place. -/
def readCallSites (bytes : Bytes) : Checked Failure ClassCalls := classCalls.within bytes

/-! ## References and members -/

variable (pool : ConstantPool) (step : Step)

theorem tracks_classReference :
    Tracks id (classReference (.ofPool pool) step) (ClassFile.classReference pool step) :=
  Tracks.u16.bind fun index => by
    rw [Tables.className_ofPool]
    exact Tracks.lift rfl

theorem tracks_textReference :
    Tracks id (textReference (.ofPool pool) step) (ClassFile.textReference pool step) :=
  Tracks.u16.bind fun index => by
    rw [Tables.text_ofPool]
    exact Tracks.lift rfl

theorem superclassName_ofPool (index : UInt16) :
    superclassName (.ofPool pool) index = ClassFile.superclassName pool index := by
  rw [superclassName, ClassFile.superclassName, Tables.className_ofPool]

/-- The header, with its constants in tables. -/
def Header.ofHeader (header : ClassFile.Header) : Header where
  pool := .ofPool header.pool
  access := header.access
  name := header.name
  superclass := header.superclass
  interfaces := header.interfaces

/-- A word that nothing is made of takes two bytes. -/
theorem tracks_skip_two {α γ : Type} {f : α → γ} {next : Reader γ} {next' : Skim α}
    (h : Tracks f next next') :
    Tracks f (do let _ ← Reader.u16; next) (do Skim.skip 2; next') := by
  have hskim : (do Skim.skip 2; next') = (do let _ ← Skim.u16; next') := by
    funext bytes
    rcases bytes with _ | ⟨a, _ | ⟨b, bytes⟩⟩ <;> rfl
  rw [hskim]
  exact Tracks.u16.bind fun _ => h

/-- Two such words take four. -/
theorem tracks_skip_four {α γ : Type} {f : α → γ} {next : Reader γ} {next' : Skim α}
    (h : Tracks f next next') :
    Tracks f (do let _ ← Reader.u16; let _ ← Reader.u16; next) (do Skim.skip 4; next') := by
  have hskim : (do Skim.skip 4; next') = (do Skim.skip 2; Skim.skip 2; next') := by
    funext bytes
    rcases bytes with _ | ⟨a, _ | ⟨b, _ | ⟨c, _ | ⟨d, bytes⟩⟩⟩⟩ <;> rfl
  rw [hskim]
  exact tracks_skip_two (tracks_skip_two h)

/-- The header is read in place, and its constants come into tables. -/
theorem tracks_header : Tracks Header.ofHeader header ClassFile.header := by
  unfold header ClassFile.header
  refine Tracks.u32.bind fun number => ?_
  dsimp only [id]
  split_ifs with hmagic
  · exact fun _ _ => .inr ⟨_, rfl, rfl⟩
  · refine tracks_skip_four ((tracks_readPool.during _).bind fun pool => ?_)
    refine Tracks.u16.bind fun access => Tracks.u16.bind fun this => Tracks.u16.bind fun super => ?_
    rw [Tables.className_ofPool, superclassName_ofPool]
    refine (Tracks.lift rfl).bind fun name => (Tracks.lift rfl).bind fun superclass => ?_
    refine (tracks_classReference pool _).counted.bind fun interfaces => ?_
    exact Tracks.pure Header.ofHeader ⟨pool, access, name, superclass, interfaces⟩

theorem tracks_skipAttribute : Tracks id skipAttribute ClassFile.skipAttribute :=
  (Tracks.skip 2).bind fun _ => Tracks.u32.bind fun length => Tracks.skip length

theorem tracks_member : Tracks id (member (.ofPool pool)) (ClassFile.member pool) := by
  refine Tracks.u16.bind fun access => (tracks_textReference pool _).bind fun name => ?_
  refine (tracks_textReference pool _).bind fun descriptor => ?_
  exact tracks_skipAttribute.counted.bind fun _ => Tracks.pure id (Member.mk access name descriptor)

theorem tracks_members :
    Tracks id (members (.ofPool pool) step) (ClassFile.members pool step) :=
  (tracks_member pool).counted.during step

theorem tracks_namedBody : Tracks id (namedBody (.ofPool pool)) (ClassFile.namedBody pool) := by
  refine (tracks_textReference pool _).bind fun name => Tracks.u32.bind fun length => ?_
  exact (Tracks.take length).bind fun body => Tracks.pure id (name, body)

/-! ## Flags -/

theorem tracks_innerClass : Tracks id (innerClass (.ofPool pool)) (ClassFile.innerClass pool) := by
  refine Tracks.u16.bind fun inner => tracks_skip_four (Tracks.u16.bind fun access => ?_)
  rw [Tables.className_ofPool]
  exact (Tracks.lift rfl).bind fun name => Tracks.pure id (name, access)

/-- **Entries that are gone over one by one give the flags that they give together.** -/
theorem tracks_innerClassAccess (name : String) (found : Option UInt16) (count : Nat) :
    Tracks (fun entries => (flagsOf name entries).or found)
      (innerClassAccess (.ofPool pool) name found count)
      (times (ClassFile.innerClass pool) count) := by
  induction count generalizing found with
  | zero => exact Tracks.pure _ []
  | succ count ih =>
    refine (tracks_innerClass pool).bind fun entry => ?_
    refine Tracks.bind_pure (f := fun entries => (flagsOf name entries).or found)
      (g := fun entries => entry :: entries) ?_
    -- entries that come later count for more than what is found so far
    have hflags : (fun entries => (flagsOf name (entry :: entries)).or found) = fun entries =>
        (flagsOf name entries).or (if entry.1 = name then some entry.2 else found) := by
      funext entries
      rw [flagsOf_cons, Option.or_assoc]
      split_ifs <;> rfl
    rw [hflags]
    exact ih _

theorem flagsInAttribute_eq (name : String) (body : String × Bytes) :
    flagsInAttribute (.ofPool pool) name body
      = safely (ClassFile.flagsInAttribute pool name body) := by
  unfold flagsInAttribute ClassFile.flagsInAttribute
  split_ifs with hname
  · have hentries : Tracks (flagsOf name)
        (do innerClassAccess (.ofPool pool) name none (← Reader.u16).toNat)
        (Skim.counted (ClassFile.innerClass pool)) := by
      refine Tracks.u16.bind fun count => ?_
      have hnone := tracks_innerClassAccess pool name none count.toNat
      simp only [Option.or_none] at hnone
      exact hnone
    rw [hentries.within_map_eq, mapOutcome_safely]
    cases (Skim.counted (ClassFile.innerClass pool)).within body.2 <;> rfl
  · rfl

theorem tracks_effectiveAccess (name : String) (access : UInt16) (count : Nat) :
    Tracks id (effectiveAccess (.ofPool pool) name access count)
      (ClassFile.effectiveAccess pool name access count) := by
  induction count generalizing access with
  | zero => exact Tracks.pure id access
  | succ count ih =>
    refine (tracks_namedBody pool).bind fun body => ?_
    exact (Tracks.lift (flagsInAttribute_eq pool name body)).bind fun flags => ih _

theorem tracks_declaration : Tracks id declaration ClassFile.declaration := by
  refine tracks_header.bind fun header => (tracks_members header.pool _).bind fun fields => ?_
  refine (tracks_members header.pool _).bind fun methods => Tracks.u16.bind fun count => ?_
  refine (tracks_effectiveAccess header.pool _ _ _).bind fun access => ?_
  exact Tracks.pure id _

/-! ## Calls -/

/-- The kind of a call is found again by its opcode. -/
theorem callSite_eq (invocation : Invocation) :
    callSite (.ofPool pool) (.ofInvocation invocation) = safely (do
      let (owner, name, descriptor) ← (pool.method invocation.method).during .methodRef
      let { kind, offset, .. } := invocation
      return { offset, kind, owner, name, descriptor }) := by
  unfold callSite
  dsimp only [RawInvocation.ofInvocation]
  rw [Tables.method_ofPool]
  cases (pool.method invocation.method).during .methodRef with
  | error failure => rfl
  | ok found =>
    rw [safely_ok_bind, CallKind.ofOpcode, CallKind.ofOpcode?_opcode]
    rfl

/-- The length of a body is written in four bytes. -/
theorem length_lt_of_instructions {body code : Bytes}
    (h : ClassFile.instructions.within body = .ok code) : code.length < 0x100000000 := by
  obtain ⟨⟨code', rest⟩, hread, rfl⟩ := map_eq_ok_iff.mp h
  obtain ⟨_, bytes, -, hread⟩ := Skim.exists_of_bind hread
  obtain ⟨length, bytes', hlength, htake⟩ := Skim.exists_of_bind hread
  rw [(Skim.eq_append_of_take htake).2]
  exact (Skim.eq_append_of_u32 hlength).1

theorem tracks_instructions : Tracks id instructions ClassFile.instructions :=
  tracks_skip_four (Tracks.u32.bind fun length => Tracks.take length)

/-- **A body of less than 2³² bytes is walked, and each call that is found has its kind.** -/
theorem codeCallSites_eq (body : Bytes) :
    codeCallSites (.ofPool pool) body = safely (do
      callSites pool.method (← ClassFile.instructions.within body)) := by
  unfold codeCallSites callSites
  rw [tracks_instructions.within_eq]
  cases hcode : ClassFile.instructions.within body with
  | error failure => rfl
  | ok code =>
    have hlength := length_lt_of_instructions hcode
    rw [safely_ok_bind, walk_eq hlength (by omega), List.drop_zero, mapOutcome_safely]
    show _ = safely (Outcome.lift .instruction (Instruction.invocations code) >>= _)
    unfold Instruction.invocations
    cases Instruction.invocationsFrom 0 code with
    | error fault => rfl
    | ok found =>
      show List.mapM _ (found.map RawInvocation.ofInvocation) = _
      rw [List.mapM_map]
      exact mapM_eq (callSite_eq pool) found

theorem callsInAttribute_eq (body : String × Bytes) :
    callsInAttribute (.ofPool pool) step body
      = safely (ClassFile.callsInAttribute pool step body) := by
  unfold callsInAttribute ClassFile.callsInAttribute
  split_ifs with hname
  · rw [codeCallSites_eq, mapOutcome_safely]
    cases ClassFile.instructions.within body.2 with
    | error failure => rfl
    | ok code =>
      show some <$> safely ((callSites pool.method code).during step)
        = safely ((callSites pool.method code >>= fun sites => .ok (some sites)).during step)
      cases callSites pool.method code <;> rfl
  · rfl

theorem tracks_callsInAttributes (calls : List CallSite) (count : Nat) :
    Tracks id (callsInAttributes (.ofPool pool) step calls count)
      (ClassFile.callsInAttributes pool step calls count) := by
  induction count generalizing calls with
  | zero => exact Tracks.pure id calls
  | succ count ih =>
    refine (tracks_namedBody pool).bind fun body => ?_
    exact (Tracks.lift (callsInAttribute_eq pool step body)).bind fun found => ih _

theorem tracks_methodCalls :
    Tracks id (methodCalls (.ofPool pool)) (ClassFile.methodCalls pool) := by
  refine tracks_skip_two ((tracks_textReference pool _).bind fun name => ?_)
  refine (tracks_textReference pool _).bind fun descriptor => Tracks.u16.bind fun count => ?_
  refine (tracks_callsInAttributes pool _ [] _).bind fun calls => ?_
  exact Tracks.pure id (MethodCalls.mk name descriptor calls)

theorem tracks_classCalls : Tracks id classCalls ClassFile.classCalls := by
  refine tracks_header.bind fun header => (tracks_members header.pool _).bind fun _ => ?_
  refine (tracks_methodCalls header.pool).counted.bind fun methods => ?_
  exact Tracks.pure id (ClassCalls.mk header.name methods)

/-! ## Class files and bodies -/

/-- **Nothing that is read in place gets to a breach.**  Class files are read as they are skimmed,
whatever their bytes are: no constant is put outside its table, no byte is looked for outside the
bytes that are there, and the cursor stays among them.  Bodies of less than 2³² bytes are walked in
as many rounds as they have bytes: no length takes more than 64 bits, every call has its operand,
and its kind is found by its opcode. -/
theorem reads_and_walks_safely :
    (∀ bytes, readClass bytes = safely (ClassDeclaration.read bytes) ∧
      readCallSites bytes = safely (ClassCalls.skim bytes)) ∧
    ∀ (code : Bytes) (rounds : Nat), code.length < 0x100000000 → code.length ≤ rounds →
      walk code rounds 0
        = safely ((Instruction.invocations code).map (·.map RawInvocation.ofInvocation)) ∧
      (∀ found, walk code rounds 0 = safely (.ok found) →
        ∀ raw ∈ found, ∃ kind, CallKind.ofOpcode raw.opcode = .ok kind) ∧
      Instruction.invocations code ≠ .error .noInstruction ∧
      ∀ opcode, Instruction.invocations code ≠ .error (.noCall opcode) := by
  refine ⟨fun bytes => ⟨tracks_declaration.within_eq bytes, tracks_classCalls.within_eq bytes⟩, ?_⟩
  intro code rounds hlength hrounds
  refine ⟨walk_eq hlength (by omega), fun found hfound raw hraw => ?_, fun hfault => ?_,
    fun opcode hfault => ?_⟩
  · exact exists_kind_of_walk hlength hrounds hfound hraw
  · exact isBodyFault_of_invocationsFrom hfault
  · exact isBodyFault_of_invocationsFrom hfault

/-- A class whose method calls itself, with a constant of two indices at its last one. -/
def wideAtEnd : Bytes :=
  [0xca, 0xfe, 0xba, 0xbe, 0x00, 0x00, 0x00, 0x34, 0x00, 0x09,
    0x01, 0x00, 0x01, 0x41, 0x07, 0x00, 0x01, 0x01, 0x00, 0x01, 0x66,
    0x01, 0x00, 0x03, 0x28, 0x29, 0x56, 0x0c, 0x00, 0x03, 0x00, 0x04, 0x0a, 0x00, 0x02, 0x00, 0x05,
    0x01, 0x00, 0x04, 0x43, 0x6f, 0x64, 0x65, 0x05, 0x00, 0x00, 0x00, 0x00, 0x00, 0x00, 0x00, 0x00,
    0x00, 0x21, 0x00, 0x02, 0x00, 0x00, 0x00, 0x00, 0x00, 0x00, 0x00, 0x01,
    0x00, 0x08, 0x00, 0x03, 0x00, 0x04, 0x00, 0x01, 0x00, 0x07, 0x00, 0x00, 0x00, 0x10,
    0x00, 0x00, 0x00, 0x00, 0x00, 0x00, 0x00, 0x04, 0xb8, 0x00, 0x06, 0xb1, 0x00, 0x00, 0x00, 0x00,
    0x00, 0x00]

/-- Its constants are within the tables, and the call in its body has an operand and a kind. -/
theorem reads_and_walks_safely_wideAtEnd :
    readClass wideAtEnd = safely (.ok ⟨"A", 0x0021, none, [], [], [⟨0x0008, "f", "()V"⟩]⟩) ∧
      readCallSites wideAtEnd
        = safely (.ok ⟨"A", [⟨"f", "()V", [⟨0, .static, "A", "f", "()V"⟩]⟩]⟩) ∧
      walk [0xb8, 0x00, 0x06, 0xb1] 4 0 = safely (.ok [⟨0xb8, 0, 6⟩]) := by
  have hread : ClassDeclaration.read wideAtEnd
      = .ok ⟨"A", 0x0021, none, [], [], [⟨0x0008, "f", "()V"⟩]⟩ := by
    decide +kernel
  have hskim : ClassCalls.skim wideAtEnd
      = .ok ⟨"A", [⟨"f", "()V", [⟨0, .static, "A", "f", "()V"⟩]⟩]⟩ := by
    decide +kernel
  have hfound : Instruction.invocations [0xb8, 0x00, 0x06, 0xb1] = .ok [⟨.static, 0, 6⟩] := by
    decide +kernel
  obtain ⟨hclass, hsites⟩ := reads_and_walks_safely.1 wideAtEnd
  obtain ⟨hwalk, -⟩ :=
    reads_and_walks_safely.2 [0xb8, 0x00, 0x06, 0xb1] 4 (by decide) (by decide)
  rw [hread] at hclass
  rw [hskim] at hsites
  rw [hfound] at hwalk
  exact ⟨hclass, hsites, hwalk⟩

end AccessTransformer.InPlace
