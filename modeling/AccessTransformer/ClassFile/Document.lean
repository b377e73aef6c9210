import AccessTransformer.ClassFile.Attribute
import AccessTransformer.ClassFile.ModifiedUtf8

/-!
# Class files, dissected

A class file as a whole, with every attribute read by its form.  Nothing may be left when the class
ends.  Indices into the pool are kept as they are; resolving them is for whoever wants a name.

Text constants are taken leniently: bytes that are UTF-8 stand for themselves, and only others are
read as modified UTF-8.
-/

namespace AccessTransformer.ClassFile

/-- A field or method, as far as it matters: its name and descriptor, and its first body. -/
structure MemberDocument where
  name : UInt16
  descriptor : UInt16
  body : Option Bytes
  deriving DecidableEq, Repr

/-- A class file, as far as it matters. -/
structure Document where
  pool : Array Constant
  thisClass : UInt16
  methods : List MemberDocument
  deriving DecidableEq, Repr

namespace Document

/-- The value of a text constant. -/
def text (bytes : Bytes) : Except FormFault String :=
  match Utf8.decode? bytes with
  | some chars => .ok (String.ofList chars)
  | none => (ModifiedUtf8.decode bytes).mapError fun _ => .notText

/-- The constant that follows its tag, and whether it takes two indices. -/
def constant (tag : UInt8) : Dissect (Constant × Bool) := do
  match tag.toNat with
  | 1 => return (.utf8 (← text (← Dissect.block (← Dissect.u16).toNat)), false)
  | 3 => return (.integer (Int.bmod (← Dissect.u32) 0x100000000), false)
  | 4 => return (.float (number (← Dissect.block 4)), false)
  | 5 => return (.long (Int.bmod (← Dissect.u64) 0x10000000000000000), true)
  | 6 => return (.double (number (← Dissect.block 8)), true)
  | 7 => return (.classInfo (← Dissect.u16), false)
  | 8 => return (.string (← Dissect.u16), false)
  | 9 => return (.fieldRef (← Dissect.u16) (← Dissect.u16), false)
  | 10 => return (.methodRef (← Dissect.u16) (← Dissect.u16), false)
  | 11 => return (.interfaceMethodRef (← Dissect.u16) (← Dissect.u16), false)
  | 12 => return (.nameAndType (← Dissect.u16) (← Dissect.u16), false)
  | 15 => return (.methodHandle (← Dissect.u8) (← Dissect.u16), false)
  | 16 => return (.methodType (← Dissect.u16), false)
  | 17 => return (.dynamic (← Dissect.u16) (← Dissect.u16), false)
  | 18 => return (.invokeDynamic (← Dissect.u16) (← Dissect.u16), false)
  | 19 => return (.module (← Dissect.u16), false)
  | 20 => return (.package (← Dissect.u16), false)
  | _ => Dissect.fail (.unmatchedTag tag)
where
  /-- The number that bytes write. -/
  number (bytes : Bytes) : Nat :=
    bytes.foldl (fun value byte => value * 256 + byte.toNat) 0

/-- The next `count` entries of a pool, with the empty ones behind those that take two indices. -/
def constants : Nat → Dissect (List Constant)
  | 0 => pure []
  | 1 => do
    let (entry, _) ← constant (← Dissect.u8)
    return [entry]
  | count + 2 => do
    let (entry, wide) ← constant (← Dissect.u8)
    if wide then return entry :: .empty :: (← constants count)
    else return entry :: (← constants (count + 1))

/-- The pool of a class file. -/
def constantPool : Dissect (Array Constant) := do
  match (← Dissect.u16).toNat with
  | 0 => return #[]
  | count + 1 => return (Constant.empty :: (← constants count)).toArray

/-- A field or a method. -/
def member (pool : Array Constant) : Dissect MemberDocument := do
  Dissect.words 1
  let name ← Dissect.u16
  let descriptor ← Dissect.u16
  let attributes ← Attribute.list pool
  return { name, descriptor, body := attributes.findSome? Attribute.code? }

/-- What stands before the members: the pool, and the index of the class itself. -/
def header : Dissect (Array Constant × UInt16) := do
  if (← Dissect.u32) ≠ 0xCAFEBABE then Dissect.fail .notClassFile
  Dissect.words 2
  let pool ← constantPool
  Dissect.words 1
  let thisClass ← Dissect.u16
  Dissect.words 1
  let _ ← Dissect.counted16 Dissect.u16
  return (pool, thisClass)

/-- A class file, up to its last attribute. -/
def upToEnd : Dissect Document := do
  let (pool, thisClass) ← header
  let _ ← Dissect.counted16 (member pool)
  let methods ← Dissect.counted16 (member pool)
  let _ ← Attribute.list pool
  return { pool, thisClass, methods }

/-- The class file that bytes write. -/
def read (bytes : Bytes) : Except FormFault Document := do
  let (document, place) ← upToEnd (Place.start bytes)
  if place.rest.isEmpty then return document
  else throw (.leftover place.length place.position)

end Document

end AccessTransformer.ClassFile
