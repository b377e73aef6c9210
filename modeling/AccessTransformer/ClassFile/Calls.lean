import AccessTransformer.ClassFile.Declaration

/-!
# Method calls, skimmed

The calls that the methods of a class make, read without looking into any attribute but `Code`.
Every attribute says its own length, so this works for attributes of any name and form.

Where a method has several `Code` attributes, the last one counts; every one of them has to be
readable.
-/

namespace AccessTransformer

/-- A call instruction with the method that it names. -/
structure CallSite where
  offset : Nat
  kind : CallKind
  owner : String
  name : String
  descriptor : String
  deriving DecidableEq, Repr

/-- The calls of a method body, in the order of its instructions. -/
structure MethodCalls where
  name : String
  descriptor : String
  calls : List CallSite
  deriving DecidableEq, Repr

/-- The calls that a class makes, method by method. -/
structure ClassCalls where
  name : String
  methods : List MethodCalls
  deriving DecidableEq, Repr

namespace ClassFile

/-- The call sites of a body, given how to find the owner, name and descriptor of a method. -/
def callSites (method : UInt16 → Outcome (String × String × String)) (body : Bytes) :
    Outcome (List CallSite) := do
  let invocations ← Outcome.lift .instruction (Instruction.invocations body)
  invocations.mapM fun invocation => do
    let (owner, name, descriptor) ← (method invocation.method).during .methodRef
    return { offset := invocation.offset, kind := invocation.kind, owner, name, descriptor }

/-- The instructions in the body of a `Code` attribute, which start behind two words. -/
def instructions : Skim Bytes := do
  Skim.skip 4
  Skim.take (← Skim.u32)

/-- The call sites in an attribute, if it is a `Code` attribute. -/
def callsInAttribute (pool : ConstantPool) (step : Step) (body : String × Bytes) :
    Outcome (Option (List CallSite)) :=
  if body.1 = "Code" then
    Outcome.during step do
      return some (← callSites pool.method (← instructions.within body.2))
  else .ok none

/-- The call sites of a method after its remaining attributes, of which there are `count`.  Each is
read and looked into before the next. -/
def callsInAttributes (pool : ConstantPool) (step : Step) (calls : List CallSite) :
    Nat → Skim (List CallSite)
  | 0 => pure calls
  | count + 1 => do
    let found ← callsInAttribute pool step (← namedBody pool)
    callsInAttributes pool step (found.getD calls) count

/-- A method with its calls. -/
def methodCalls (pool : ConstantPool) : Skim MethodCalls := do
  Skim.skip 2
  let name ← textReference pool .methodName
  let descriptor ← textReference pool .methodDescriptor
  let count ← Skim.u16
  let calls ← callsInAttributes pool (.body name descriptor) [] count.toNat
  return { name, descriptor, calls }

/-- A class with its calls, up to its last method. -/
def classCalls : Skim ClassCalls := do
  let header ← header
  let _ ← members header.pool .fields
  let methods ← Skim.counted (methodCalls header.pool)
  return { name := header.name, methods }

end ClassFile

/-- The calls in a class file, read by skimming it.  Bytes behind the last method are not looked
at. -/
def ClassCalls.skim (bytes : Bytes) : Outcome ClassCalls :=
  ClassFile.classCalls.within bytes

end AccessTransformer
