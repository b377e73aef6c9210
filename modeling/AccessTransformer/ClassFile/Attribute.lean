import AccessTransformer.ClassFile.Annotation

/-!
# Attributes, dissected

An attribute is a name, a length and a body.  A dissecting reader goes by the name: each name that
it knows has a form, and the body ends where the form does, whatever the length says.  Only two
annotation attributes make sure that as many bytes follow as their length says, and even they do
not end there.

Attributes nest, in `Code` and in `Record`.  As with annotations, every level takes bytes, and the
bytes that are left bound the levels.
-/

namespace AccessTransformer.ClassFile

/-- An attribute, as far as it matters: the instructions in it, if it is a method body. -/
inductive Attribute where
  | code (instructions : Bytes)
  | other
  deriving DecidableEq, Repr

namespace Attribute

/-- The instructions in an attribute. -/
def code? : Attribute → Option Bytes
  | .code instructions => some instructions
  | .other => none

/-- The forms that need no attribute to nest in them, by name. -/
def form? (name : String) (length : Nat) : Option (Dissect Unit) :=
  match name with
  | "ConstantValue" | "SourceFile" | "Signature" | "NestHost" => some (Dissect.words 1)
  | "EnclosingMethod" => some (Dissect.words 2)
  | "Synthetic" | "Deprecated" => some (pure ())
  | "Exceptions" | "NestMembers" | "PermittedSubclasses" => some (table 1)
  | "LineNumberTable" => some (table 2)
  | "LocalVariableTable" | "LocalVariableTypeTable" => some (table 5)
  | "InnerClasses" => some (table 4)
  | "BootstrapMethods" => some do
    let _ ← Dissect.counted16 do
      Dissect.words 1
      table 1
  | "MethodParameters" => some do
    let _ ← Dissect.counted8 (Dissect.words 2)
  | "RuntimeVisibleAnnotations" => some do
    Dissect.expectBlock length
    let _ ← Dissect.counted16 Dissect.annotation
  | "RuntimeInvisibleAnnotations" => some do
    let _ ← Dissect.counted16 Dissect.annotation
  | "RuntimeVisibleParameterAnnotations" => some do
    let _ ← Dissect.counted8 (Dissect.counted16 Dissect.annotation)
  | "AnnotationDefault" => some do
    Dissect.expectBlock length
    Dissect.annotationValue
  | "RuntimeVisibleTypeAnnotations" => some do
    let _ ← Dissect.counted16 Dissect.typeAnnotation
  | "StackMapTable" => some do
    let _ ← Dissect.counted16 Dissect.stackFrame
  | _ => none
where
  /-- A counted table whose rows are so many words. -/
  table (columns : Nat) : Dissect Unit := do
    let _ ← Dissect.counted16 (Dissect.words columns)

/-- The name of an attribute. -/
def name (pool : Array Constant) (index : UInt16) : Except FormFault String :=
  match pool[index.toNat]? with
  | some (.utf8 name) => .ok name
  | some constant => .error (.notUtf8 constant)
  | none => .error (.noElement index)

/-- An attribute in which others nest to at most so many levels. -/
def nested (pool : Array Constant) : Nat → Dissect Attribute
  | 0 => do
    let _ ← Dissect.u16
    return .other
  | levels + 1 => do
    let name ← name pool (← Dissect.u16)
    let length ← Dissect.u32
    if name = "Code" then
      Dissect.words 2
      let instructions ← Dissect.block (← Dissect.u32)
      let _ ← Dissect.counted16 (Dissect.words 4)
      let _ ← Dissect.counted16 (nested pool levels)
      return .code instructions
    else if name = "Record" then
      let _ ← Dissect.counted16 do
        Dissect.words 2
        let _ ← Dissect.counted16 (nested pool levels)
      return .other
    else
      match form? name length with
      | some form => do
        form
        return .other
      | none => Dissect.fail (.unmatchedAttribute name)

/-- The attributes of a class, a field or a method. -/
def list (pool : Array Constant) : Dissect (List Attribute) := do
  Dissect.counted16 (nested pool (← get).rest.length)

end Attribute

end AccessTransformer.ClassFile
