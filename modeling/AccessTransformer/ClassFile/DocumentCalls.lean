import AccessTransformer.ClassFile.Calls
import AccessTransformer.ClassFile.Document

/-!
# Method calls of a class file

The calls that the methods of a class make, read by dissecting the file.  Unlike skimming, this
notices a file whose attributes are damaged; but it does not know the forms of attributes that
compilers and tools add on their own account.  A file with such an attribute is skimmed instead.

Where a method has several `Code` attributes, dissecting takes the first and skimming the last.

* `ClassCalls.read`: the calls in a class file.
-/

namespace AccessTransformer

namespace ClassFile.Document

variable (document : Document)

/-- The text at an index. -/
def textAt (index : UInt16) : Outcome String :=
  match document.pool[index.toNat]? with
  | some (.utf8 value) => .ok value
  | some _ => Outcome.fail (.classFile (.unexpected .utf8))
  | none => Outcome.fail (.classFile (.absent .utf8))

/-- The name of the class at an index. -/
def classNameAt (index : UInt16) : Outcome String :=
  match document.pool[index.toNat]? with
  | some (.classInfo name) => document.textAt name
  | some _ => Outcome.fail (.classFile (.unexpected .classInfo))
  | none => Outcome.fail (.classFile (.absent .classInfo))

/-- The two texts of the name and type at an index, as indices. -/
def nameAndTypeAt (index : UInt16) : Outcome (UInt16 × UInt16) :=
  match document.pool[index.toNat]? with
  | some (.nameAndType name descriptor) => .ok (name, descriptor)
  | some _ => Outcome.fail (.classFile (.unexpected .nameAndType))
  | none => Outcome.fail (.classFile (.absent .nameAndType))

/-- The owner and the name and type of the method at an index, as indices. -/
def methodRefAt (index : UInt16) : Outcome (UInt16 × UInt16) :=
  match document.pool[index.toNat]? with
  | some (.methodRef owner typed) => .ok (owner, typed)
  | some (.interfaceMethodRef owner typed) => .ok (owner, typed)
  | some _ => Outcome.fail (.classFile (.unexpected .methodRef))
  | none => Outcome.fail (.classFile (.absent .methodRef))

/-- The owner, name and descriptor of the method at an index. -/
def methodAt (index : UInt16) : Outcome (String × String × String) := do
  let (owner, typed) ← document.methodRefAt index
  let owner ← (document.classNameAt owner).during .owner
  let (name, descriptor) ← document.nameAndTypeAt typed
  let name ← (document.textAt name).during .methodName
  let descriptor ← (document.textAt descriptor).during .methodDescriptor
  return (owner, name, descriptor)

/-- The calls of a method, of which there are none without a body. -/
def methodCalls (method : MemberDocument) : Outcome MethodCalls := do
  let name ← (document.textAt method.name).during .methodName
  let descriptor ← (document.textAt method.descriptor).during .methodDescriptor
  let calls ← match method.body with
    | some body => (callSites document.methodAt body).during (.body name descriptor)
    | none => .ok []
  return { name, descriptor, calls }

/-- The calls of a class. -/
def classCalls : Outcome ClassCalls := do
  let name ← (document.classNameAt document.thisClass).during .className
  let methods ← document.methods.mapM document.methodCalls
  return { name, methods }

end ClassFile.Document

/-- Whether a fault is an attribute of unknown form, which its message tells. -/
def ClassFile.FormFault.isUnmatchedAttribute (fault : FormFault) : Bool :=
  fault.message.contains "unmatched attribute"

/-- The calls in a class file: dissected, or skimmed if it has an attribute of unknown form. -/
def ClassCalls.read (bytes : Bytes) : Outcome ClassCalls :=
  match ClassFile.Document.read bytes with
  | .ok document => document.classCalls
  | .error fault =>
    if fault.isUnmatchedAttribute then (ClassCalls.skim bytes).during .classFile
    else (Outcome.fail (.form fault)).during .classFile

end AccessTransformer
