import AccessTransformer.ClassFile.Fault
import AccessTransformer.ClassFile.Times

/-!
# Dissecting

Reading from a place in a file.  A dissecting reader knows how far it has come, so that it can say
where a number or a block is cut off, and how long the file is: as long as what is behind it and
what is before it together.
-/

namespace AccessTransformer.ClassFile

/-- A place in a file: how many bytes stand before it, and those that stand behind it. -/
structure Place where
  position : Nat
  rest : Bytes
  deriving DecidableEq, Repr

/-- The start of a file. -/
def Place.start (bytes : Bytes) : Place := ⟨0, bytes⟩

/-- The length of the file. -/
def Place.length (place : Place) : Nat := place.position + place.rest.length

/-- Reads a value from a place in a file. -/
abbrev Dissect := StateT Place (Except FormFault)

namespace Dissect

variable {α : Type}

/-- The failure to read a number. -/
def numberCut : Dissect α := fun place =>
  .error (.numberCut place.position place.length)

/-- The next byte. -/
def u8 : Dissect UInt8 := fun place =>
  match place.rest with
  | byte :: rest => .ok (byte, ⟨place.position + 1, rest⟩)
  | _ => numberCut place

/-- The next two bytes, as a word. -/
def u16 : Dissect UInt16 := fun place =>
  match place.rest with
  | high :: low :: rest => .ok (Bytes.word high low, ⟨place.position + 2, rest⟩)
  | _ => numberCut place

/-- The next four bytes, as a number. -/
def u32 : Dissect Nat := fun place =>
  match place.rest with
  | a :: b :: c :: d :: rest => .ok (Bytes.doubleWord a b c d, ⟨place.position + 4, rest⟩)
  | _ => numberCut place

/-- The next eight bytes, as a number. -/
def u64 : Dissect Nat := fun place =>
  match place.rest with
  | a :: b :: c :: d :: e :: f :: g :: h :: rest =>
    .ok (Bytes.doubleWord a b c d * 0x100000000 + Bytes.doubleWord e f g h,
      ⟨place.position + 8, rest⟩)
  | _ => numberCut place

/-- The next `count` bytes. -/
def block (count : Nat) : Dissect Bytes := fun place =>
  match Bytes.splitAt? count place.rest with
  | some (bytes, rest) => .ok (bytes, ⟨place.position + count, rest⟩)
  | none => .error (.blockCut (place.position + count) place.length)

/-- Makes sure that there are `count` bytes, and stays before them. -/
def expectBlock (count : Nat) : Dissect Unit := fun place =>
  (block count place).map fun _ => ((), place)

/-- Passes over `count` words. -/
def words (count : Nat) : Dissect Unit := do
  let _ ← times u16 count

/-- The values of a reader that is run as often as the next byte says. -/
def counted8 (reader : Dissect α) : Dissect (List α) := do
  times reader (← u8).toNat

/-- The values of a reader that is run as often as the next word says. -/
def counted16 (reader : Dissect α) : Dissect (List α) := do
  times reader (← u16).toNat

/-- The failure of a reader that met what it does not know. -/
def fail (fault : FormFault) : Dissect α := fun _ => .error fault

end Dissect

end AccessTransformer.ClassFile
