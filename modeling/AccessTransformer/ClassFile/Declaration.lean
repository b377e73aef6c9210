import AccessTransformer.ClassFile.ConstantPool

/-!
# Class declarations

What a class file declares: the class with its access flags and supertypes, and its fields and
methods with theirs.  Method bodies play no part in it.

A nested class has two sets of access flags.  Those of the header say what the virtual machine
makes of the class; those in its own `InnerClasses` entry are the ones that its source gave it, and
they are the ones meant here.

* `ClassDeclaration.read`: the declaration in a class file.
* `header`, `members`: the parts of it that `ClassCalls.skim` reads as well.
-/

namespace AccessTransformer

/-- A declared field or method. -/
structure Member where
  access : UInt16
  name : String
  descriptor : String
  deriving DecidableEq, Repr

/-- A declared class or interface. -/
structure ClassDeclaration where
  name : String
  access : UInt16
  superclass : Option String
  interfaces : List String
  fields : List Member
  methods : List Member
  deriving DecidableEq, Repr

namespace ClassFile

/-- The number that every class file starts with. -/
def magic : Nat := 0xCAFEBABE

/-- What stands in a class file before the members. -/
structure Header where
  pool : ConstantPool
  access : UInt16
  name : String
  superclass : Option String
  interfaces : List String
  deriving DecidableEq, Repr

/-- The name of the class that the next word refers to. -/
def classReference (pool : ConstantPool) (step : Step) : Skim String := do
  (pool.className (← Skim.u16)).during step

/-- The text that the next word refers to. -/
def textReference (pool : ConstantPool) (step : Step) : Skim String := do
  (pool.text (← Skim.u16)).during step

/-- The name of the superclass.  Index zero says that there is none. -/
def superclassName (pool : ConstantPool) (index : UInt16) : Outcome (Option String) :=
  if index = 0 then .ok none
  else ((pool.className index).during .superClassName).map some

/-- The header of the class file. -/
def header : Skim Header := do
  if (← Skim.u32) ≠ magic then Outcome.fail (.classFile .badMagic)
  Skim.skip 4
  let pool ← Skim.during .readPool ConstantPool.read
  let access ← Skim.u16
  let this ← Skim.u16
  let super ← Skim.u16
  let name ← (pool.className this).during .className
  let superclass ← superclassName pool super
  let interfaces ← Skim.counted (classReference pool .interfaceName)
  return { pool, access, name, superclass, interfaces }

/-- Passes over an attribute, whatever its name. -/
def skipAttribute : Skim Unit := do
  Skim.skip 2
  Skim.skip (← Skim.u32)

/-- A field or method.  Its attributes are passed over. -/
def member (pool : ConstantPool) : Skim Member := do
  let access ← Skim.u16
  let name ← textReference pool .memberName
  let descriptor ← textReference pool .memberDescriptor
  let _ ← Skim.counted skipAttribute
  return { access, name, descriptor }

/-- The fields or the methods. -/
def members (pool : ConstantPool) (step : Step) : Skim (List Member) :=
  Skim.during step (Skim.counted (member pool))

/-- The name and the body of an attribute. -/
def namedBody (pool : ConstantPool) : Skim (String × Bytes) := do
  let name ← textReference pool .attributeName
  return (name, ← Skim.take (← Skim.u32))

/-- An entry for a nested class: its name and the flags that its source gave it. -/
def innerClass (pool : ConstantPool) : Skim (String × UInt16) := do
  let inner ← Skim.u16
  Skim.skip 4
  let access ← Skim.u16
  return (← pool.className inner, access)

/-- The last flags that entries give to the class. -/
def flagsOf (name : String) (entries : List (String × UInt16)) : Option UInt16 :=
  ((entries.filter (·.1 = name)).getLast?).map (·.2)

/-- The flags that an attribute gives to the class, if it lists nested classes and this among
them. -/
def flagsInAttribute (pool : ConstantPool) (name : String) (body : String × Bytes) :
    Outcome (Option UInt16) :=
  if body.1 = "InnerClasses" then
    ((Skim.within (Skim.counted (innerClass pool)) body.2).during .innerClasses).map
      (flagsOf name)
  else .ok none

/-- The flags of a class after the remaining attributes, of which there are `count`.  Each is read
and looked into before the next. -/
def effectiveAccess (pool : ConstantPool) (name : String) (access : UInt16) :
    Nat → Skim UInt16
  | 0 => pure access
  | count + 1 => do
    let flags ← flagsInAttribute pool name (← namedBody pool)
    effectiveAccess pool name (flags.getD access) count

/-- A class declaration, up to its last attribute. -/
def declaration : Skim ClassDeclaration := do
  let header ← header
  let fields ← members header.pool .fields
  let methods ← members header.pool .methods
  let count ← Skim.u16
  let access ← effectiveAccess header.pool header.name header.access count.toNat
  return {
    name := header.name
    access
    superclass := header.superclass
    interfaces := header.interfaces
    fields
    methods }

end ClassFile

/-- The declaration in a class file.  Bytes behind the last attribute are not looked at. -/
def ClassDeclaration.read (bytes : Bytes) : Outcome ClassDeclaration :=
  ClassFile.declaration.within bytes

end AccessTransformer
