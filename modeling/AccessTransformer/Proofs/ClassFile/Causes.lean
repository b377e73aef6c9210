import AccessTransformer.ClassFile.DocumentCalls
import AccessTransformer.Proofs.Causes

/-!
# Causes in class files

Class files are read without looking at anything else, so what a reader has to say against one comes
from its bytes.

* `Skim.Blames`: readers that only fail for causes of a kind, and how they are put together.
* `ClassDeclaration.blames_read`, `ClassCalls.blames_read`: why class files cannot be read.
-/

namespace AccessTransformer

/-- Whether a cause is one that lies in a class file. -/
def Cause.IsOfClassFile : Cause → Prop
  | .classFile _ | .text _ | .instruction _ | .form _ => True
  | _ => False

namespace ClassFile

/-! ## Readers that are put together -/

namespace Skim

variable {α β : Type} {kind : Cause → Prop} {reader : Skim α}

/-- Whether a reader only fails for causes of a kind. -/
def Blames (kind : Cause → Prop) (reader : Skim α) : Prop :=
  ∀ bytes, Outcome.Blames kind (reader bytes)

theorem blames_pure (a : α) : Blames kind (pure a) := fun _ => Outcome.blames_ok _

theorem blames_outOfBounds : Outcome.Blames Cause.IsOfClassFile (outOfBounds : Outcome α) :=
  Outcome.blames_fail trivial

theorem blames_take (count : Nat) : (take count).Blames Cause.IsOfClassFile := by
  intro bytes
  unfold take
  split
  · exact Outcome.blames_ok _
  · exact blames_outOfBounds

theorem blames_u8 : u8.Blames Cause.IsOfClassFile := by
  rintro (_ | ⟨_, _⟩)
  · exact blames_outOfBounds
  · exact Outcome.blames_ok _

theorem blames_u16 : u16.Blames Cause.IsOfClassFile := by
  rintro (_ | ⟨_, _ | ⟨_, _⟩⟩)
  · exact blames_outOfBounds
  · exact blames_outOfBounds
  · exact Outcome.blames_ok _

theorem blames_u32 : u32.Blames Cause.IsOfClassFile := by
  rintro (_ | ⟨_, _ | ⟨_, _ | ⟨_, _ | ⟨_, _⟩⟩⟩⟩)
  · exact blames_outOfBounds
  · exact blames_outOfBounds
  · exact blames_outOfBounds
  · exact blames_outOfBounds
  · exact Outcome.blames_ok _

namespace Blames

theorem lift {outcome : Outcome α} (h : outcome.Blames kind) : Blames kind (liftM outcome) := by
  intro bytes
  cases outcome with
  | ok a => exact Outcome.blames_ok _
  | error failure => exact h.error

theorem bind {next : α → Skim β} (h : reader.Blames kind) (hnext : ∀ a, (next a).Blames kind) :
    (reader >>= next).Blames kind :=
  fun bytes => (h bytes).bind fun parts => hnext parts.1 parts.2

theorem during (h : reader.Blames kind) (step : Step) : (Skim.during step reader).Blames kind :=
  fun bytes => (h bytes).during step

theorem within (h : reader.Blames kind) (bytes : Bytes) : (reader.within bytes).Blames kind :=
  (h bytes).map _

theorem times (h : reader.Blames kind) (count : Nat) :
    (ClassFile.times reader count).Blames kind := by
  induction count with
  | zero => exact blames_pure []
  | succ count ih => exact h.bind fun first => ih.bind fun rest => blames_pure (first :: rest)

theorem counted (h : reader.Blames Cause.IsOfClassFile) :
    (Skim.counted reader).Blames Cause.IsOfClassFile :=
  blames_u16.bind fun count => h.times count.toNat

end Blames

theorem blames_skip (count : Nat) : (skip count).Blames Cause.IsOfClassFile :=
  (blames_take count).bind fun _ => blames_pure ()

end Skim

open Skim

/-! ## Declarations -/

namespace ConstantPool

theorem blames_constant (index : Nat) (tag : UInt8) :
    (constant index tag).Blames Cause.IsOfClassFile := by
  unfold constant
  split
  -- what is not kept is passed over
  any_goals exact (blames_skip _).bind fun _ => blames_pure _
  · refine blames_u16.bind fun length => (blames_take _).bind fun bytes => ?_
    have htext : (Outcome.lift .text (ModifiedUtf8.decode bytes)).Blames Cause.IsOfClassFile :=
      Outcome.blames_lift (fun _ => trivial) _
    exact (Blames.lift (htext.during _)).bind fun value => blames_pure _
  · exact blames_u16.bind fun _ => blames_pure _
  iterate 3 exact blames_u16.bind fun _ => blames_u16.bind fun _ => blames_pure _
  · exact Blames.lift (Outcome.blames_fail trivial)

theorem blames_slotsFrom (index count : Nat) :
    (slotsFrom index count).Blames Cause.IsOfClassFile := by
  fun_induction slotsFrom index count with
  | case1 => exact blames_pure []
  | case2 index =>
    exact blames_u8.bind fun tag => (blames_constant index tag).bind fun _ => blames_pure _
  | case3 index count ihWide ih =>
    refine blames_u8.bind fun tag => (blames_constant index tag).bind fun found => ?_
    dsimp only
    split_ifs
    · exact ihWide.bind fun _ => blames_pure _
    · exact ih.bind fun _ => blames_pure _

theorem blames_read : ConstantPool.read.Blames Cause.IsOfClassFile :=
  blames_u16.bind fun _ => (blames_slotsFrom 1 _).bind fun _ => blames_pure _

variable (pool : ConstantPool) (index : UInt16)

theorem blames_text : (pool.text index).Blames Cause.IsOfClassFile := by
  unfold text
  split
  · exact Outcome.blames_ok _
  · exact Outcome.blames_fail trivial

theorem blames_className : (pool.className index).Blames Cause.IsOfClassFile := by
  unfold className
  split
  · exact pool.blames_text _
  · exact Outcome.blames_fail trivial

theorem blames_nameAndType : (pool.nameAndType index).Blames Cause.IsOfClassFile := by
  unfold nameAndType
  split
  · exact Outcome.blames_ok _
  · exact Outcome.blames_fail trivial

theorem blames_method : (pool.method index).Blames Cause.IsOfClassFile := by
  unfold method
  split
  · refine (pool.blames_nameAndType _).bind fun typed => (pool.blames_className _).bind fun _ => ?_
    exact (pool.blames_text _).bind fun _ => (pool.blames_text _).bind fun _ => Outcome.blames_ok _
  · exact Outcome.blames_fail trivial

end ConstantPool

variable (pool : ConstantPool) (step : Step)

theorem blames_classReference : (classReference pool step).Blames Cause.IsOfClassFile :=
  blames_u16.bind fun _ => .lift ((pool.blames_className _).during step)

theorem blames_textReference : (textReference pool step).Blames Cause.IsOfClassFile :=
  blames_u16.bind fun _ => .lift ((pool.blames_text _).during step)

theorem blames_superclassName (index : UInt16) :
    (superclassName pool index).Blames Cause.IsOfClassFile := by
  unfold superclassName
  split_ifs
  · exact Outcome.blames_ok _
  · exact ((pool.blames_className index).during _).map _

theorem blames_header : header.Blames Cause.IsOfClassFile := by
  refine blames_u32.bind fun number => ?_
  dsimp only
  split_ifs
  · rintro bytes _ ⟨⟩
    trivial
  · refine (blames_skip 4).bind fun _ => (ConstantPool.blames_read.during _).bind fun pool => ?_
    refine blames_u16.bind fun _ => blames_u16.bind fun _ => blames_u16.bind fun _ => ?_
    refine (Blames.lift ((pool.blames_className _).during _)).bind fun _ => ?_
    refine (Blames.lift (blames_superclassName pool _)).bind fun _ => ?_
    exact (blames_classReference pool _).counted.bind fun _ => blames_pure _

theorem blames_skipAttribute : skipAttribute.Blames Cause.IsOfClassFile :=
  (blames_skip 2).bind fun _ => blames_u32.bind fun length => blames_skip length

theorem blames_member : (member pool).Blames Cause.IsOfClassFile := by
  refine blames_u16.bind fun _ => (blames_textReference pool _).bind fun _ => ?_
  refine (blames_textReference pool _).bind fun _ => blames_skipAttribute.counted.bind fun _ => ?_
  exact blames_pure _

theorem blames_members : (members pool step).Blames Cause.IsOfClassFile :=
  (blames_member pool).counted.during step

theorem blames_namedBody : (namedBody pool).Blames Cause.IsOfClassFile := by
  refine (blames_textReference pool _).bind fun _ => blames_u32.bind fun length => ?_
  exact (blames_take length).bind fun _ => blames_pure _

theorem blames_innerClass : (innerClass pool).Blames Cause.IsOfClassFile := by
  refine blames_u16.bind fun _ => (blames_skip 4).bind fun _ => blames_u16.bind fun _ => ?_
  exact (Blames.lift (pool.blames_className _)).bind fun _ => blames_pure _

theorem blames_flagsInAttribute (name : String) (body : String × Bytes) :
    (flagsInAttribute pool name body).Blames Cause.IsOfClassFile := by
  unfold flagsInAttribute
  split_ifs
  · exact (((blames_innerClass pool).counted.within body.2).during _).map _
  · exact Outcome.blames_ok none

theorem blames_effectiveAccess (name : String) (access : UInt16) (count : Nat) :
    (effectiveAccess pool name access count).Blames Cause.IsOfClassFile := by
  induction count generalizing access with
  | zero => exact blames_pure access
  | succ count ih =>
    refine (blames_namedBody pool).bind fun body => ?_
    exact (Blames.lift (blames_flagsInAttribute pool name body)).bind fun flags => ih _

theorem blames_declaration : declaration.Blames Cause.IsOfClassFile := by
  refine blames_header.bind fun header => (blames_members header.pool _).bind fun _ => ?_
  refine (blames_members header.pool _).bind fun _ => blames_u16.bind fun _ => ?_
  exact (blames_effectiveAccess header.pool _ _ _).bind fun _ => blames_pure _

/-! ## Calls -/

theorem blames_callSites {method : UInt16 → Outcome (String × String × String)}
    (h : ∀ index, (method index).Blames Cause.IsOfClassFile) (body : Bytes) :
    (callSites method body).Blames Cause.IsOfClassFile := by
  refine (Outcome.blames_lift (fun _ => trivial) _).bind fun invocations => ?_
  exact Outcome.Blames.mapM (fun invocation =>
    ((h _).during _).bind fun _ => Outcome.blames_ok _) invocations

theorem blames_instructions : instructions.Blames Cause.IsOfClassFile :=
  (blames_skip 4).bind fun _ => blames_u32.bind fun length => blames_take length

theorem blames_callsInAttribute (body : String × Bytes) :
    (callsInAttribute pool step body).Blames Cause.IsOfClassFile := by
  unfold callsInAttribute
  split_ifs
  · refine Outcome.Blames.during ?_ step
    refine (blames_instructions.within body.2).bind fun code => ?_
    exact (blames_callSites pool.blames_method code).bind fun _ => Outcome.blames_ok _
  · exact Outcome.blames_ok none

theorem blames_callsInAttributes (calls : List CallSite) (count : Nat) :
    (callsInAttributes pool step calls count).Blames Cause.IsOfClassFile := by
  induction count generalizing calls with
  | zero => exact blames_pure calls
  | succ count ih =>
    refine (blames_namedBody pool).bind fun body => ?_
    exact (Blames.lift (blames_callsInAttribute pool step body)).bind fun found => ih _

theorem blames_methodCalls : (methodCalls pool).Blames Cause.IsOfClassFile := by
  refine (blames_skip 2).bind fun _ => (blames_textReference pool _).bind fun _ => ?_
  refine (blames_textReference pool _).bind fun _ => blames_u16.bind fun _ => ?_
  exact (blames_callsInAttributes pool _ _ _).bind fun _ => blames_pure _

theorem blames_classCalls : classCalls.Blames Cause.IsOfClassFile := by
  refine blames_header.bind fun header => (blames_members header.pool _).bind fun _ => ?_
  exact (blames_methodCalls header.pool).counted.bind fun _ => blames_pure _

namespace Document

variable (document : Document) (index : UInt16)

theorem blames_textAt : (document.textAt index).Blames Cause.IsOfClassFile := by
  unfold textAt
  split
  · exact Outcome.blames_ok _
  · exact Outcome.blames_fail trivial
  · exact Outcome.blames_fail trivial

theorem blames_classNameAt : (document.classNameAt index).Blames Cause.IsOfClassFile := by
  unfold classNameAt
  split
  · exact document.blames_textAt _
  · exact Outcome.blames_fail trivial
  · exact Outcome.blames_fail trivial

theorem blames_nameAndTypeAt : (document.nameAndTypeAt index).Blames Cause.IsOfClassFile := by
  unfold nameAndTypeAt
  split
  · exact Outcome.blames_ok _
  · exact Outcome.blames_fail trivial
  · exact Outcome.blames_fail trivial

theorem blames_methodRefAt : (document.methodRefAt index).Blames Cause.IsOfClassFile := by
  unfold methodRefAt
  split
  · exact Outcome.blames_ok _
  · exact Outcome.blames_ok _
  · exact Outcome.blames_fail trivial
  · exact Outcome.blames_fail trivial

theorem blames_methodAt : (document.methodAt index).Blames Cause.IsOfClassFile := by
  refine (document.blames_methodRefAt index).bind fun _ => ?_
  refine ((document.blames_classNameAt _).during _).bind fun _ => ?_
  refine (document.blames_nameAndTypeAt _).bind fun _ => ?_
  refine ((document.blames_textAt _).during _).bind fun _ => ?_
  exact ((document.blames_textAt _).during _).bind fun _ => Outcome.blames_ok _

theorem blames_methodCalls (method : MemberDocument) :
    (document.methodCalls method).Blames Cause.IsOfClassFile := by
  refine ((document.blames_textAt _).during _).bind fun _ => ?_
  refine ((document.blames_textAt _).during _).bind fun _ => ?_
  dsimp only
  split
  · refine Outcome.Blames.bind ?_ fun _ => Outcome.blames_ok _
    exact (blames_callSites document.blames_methodAt _).during _
  · exact Outcome.blames_ok _

theorem blames_classCalls : document.classCalls.Blames Cause.IsOfClassFile := by
  refine ((document.blames_classNameAt _).during _).bind fun _ => ?_
  exact (Outcome.Blames.mapM document.blames_methodCalls _).bind fun _ => Outcome.blames_ok _

end Document

end ClassFile

/-- **A class file whose declaration cannot be read is itself at fault.** -/
theorem ClassDeclaration.blames_read (bytes : Bytes) :
    (ClassDeclaration.read bytes).Blames Cause.IsOfClassFile :=
  ClassFile.blames_declaration.within bytes

/-- **So is one whose calls cannot be read.** -/
theorem ClassCalls.blames_read (bytes : Bytes) :
    (ClassCalls.read bytes).Blames Cause.IsOfClassFile := by
  unfold ClassCalls.read
  split
  · exact ClassFile.Document.blames_classCalls _
  · split_ifs
    · exact (ClassFile.blames_classCalls.within bytes).during _
    · exact (Outcome.blames_fail trivial).during _

end AccessTransformer
