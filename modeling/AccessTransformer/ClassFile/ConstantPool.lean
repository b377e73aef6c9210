import AccessTransformer.ClassFile.Skim

/-!
# Constant pools, skimmed

Of the constants of a class, skimming keeps the four that names are made of: texts, classes, method
references, and pairs of a name and a descriptor.  All others only have to be passed over, which
takes no more than their sizes.

A constant is referred to by its index.  Index zero belongs to no constant, and a 64-bit constant
takes two indices of which the second belongs to none, so a pool is a row of slots some of which
are empty.
-/

namespace AccessTransformer.ClassFile

/-- What a pool keeps at an index. -/
inductive Slot where
  | text (value : String)
  | classInfo (name : UInt16)
  | methodRef (owner nameAndType : UInt16)
  | nameAndType (name descriptor : UInt16)
  /-- Nothing that a name is made of. -/
  | other
  deriving DecidableEq, Repr

/-- The slots of a pool, by index. -/
structure ConstantPool where
  slots : Array Slot
  deriving DecidableEq, Repr

namespace ConstantPool

/-! ## Reading -/

/-- The constant that follows its tag, and whether it takes two indices. -/
def constant (index : Nat) (tag : UInt8) : Skim (Slot × Bool) := do
  match tag.toNat with
  | 1 =>
    let bytes ← Skim.take (← Skim.u16).toNat
    let value ← (Outcome.lift .text (ModifiedUtf8.decode bytes)).during (.textConstant index)
    return (.text value, false)
  | 7 => return (.classInfo (← Skim.u16), false)
  | 10 | 11 => return (.methodRef (← Skim.u16) (← Skim.u16), false)
  | 12 => return (.nameAndType (← Skim.u16) (← Skim.u16), false)
  | 3 | 4 => Skim.skip 4; return (.other, false)
  | 5 | 6 => Skim.skip 8; return (.other, true)
  | 8 | 16 | 19 | 20 => Skim.skip 2; return (.other, false)
  | 9 | 17 | 18 => Skim.skip 4; return (.other, false)
  | 15 => Skim.skip 3; return (.other, false)
  | _ => Outcome.fail (.classFile (.unsupportedTag tag))

/-- The slots from `index` on, of which there are `count`. -/
def slotsFrom (index : Nat) : Nat → Skim (List Slot)
  | 0 => pure []
  | 1 => do
    let (slot, _) ← constant index (← Skim.u8)
    return [slot]
  | count + 2 => do
    let (slot, wide) ← constant index (← Skim.u8)
    if wide then return slot :: .other :: (← slotsFrom (index + 2) count)
    else return slot :: (← slotsFrom (index + 1) (count + 1))

/-- The pool at the front of the remaining bytes. -/
def read : Skim ConstantPool := do
  let count ← Skim.u16
  return ⟨(Slot.other :: (← slotsFrom 1 (count.toNat - 1))).toArray⟩

/-! ## Resolving -/

variable (pool : ConstantPool) (index : UInt16)

/-- The text at an index. -/
def text : Outcome String :=
  match pool.slots[index.toNat]? with
  | some (.text value) => .ok value
  | _ => Outcome.fail (.classFile (.missing .utf8 index))

/-- The name of the class at an index. -/
def className : Outcome String :=
  match pool.slots[index.toNat]? with
  | some (.classInfo name) => pool.text name
  | _ => Outcome.fail (.classFile (.missing .classInfo index))

/-- The two texts of the name and type at an index, as indices. -/
def nameAndType : Outcome (UInt16 × UInt16) :=
  match pool.slots[index.toNat]? with
  | some (.nameAndType name descriptor) => .ok (name, descriptor)
  | _ => Outcome.fail (.classFile (.missing .nameAndType index))

/-- The owner, name and descriptor of the method at an index. -/
def method : Outcome (String × String × String) :=
  match pool.slots[index.toNat]? with
  | some (.methodRef owner typed) => do
    let (name, descriptor) ← pool.nameAndType typed
    return (← pool.className owner, ← pool.text name, ← pool.text descriptor)
  | _ => Outcome.fail (.classFile (.missing .methodRef index))

end ConstantPool

end AccessTransformer.ClassFile
