import AccessTransformer.ClassFile.Times
import AccessTransformer.Failure

/-!
# Skimming

Reading from the front of the remaining bytes.  A skimming reader never looks back and never asks
where it is: all it can say of a file that ends too early is that it does.
-/

namespace AccessTransformer.ClassFile

/-- Reads a value from the front of the remaining bytes. -/
abbrev Skim := StateT Bytes Outcome

namespace Skim

variable {α : Type}

/-- The failure of every reader that wants more bytes than there are. -/
def outOfBounds : Outcome α := Outcome.fail (.classFile .outOfBounds)

/-- The next `count` bytes. -/
def take (count : Nat) : Skim Bytes := fun bytes =>
  match Bytes.splitAt? count bytes with
  | some parts => .ok parts
  | none => outOfBounds

/-- The next byte. -/
def u8 : Skim UInt8
  | byte :: bytes => .ok (byte, bytes)
  | [] => outOfBounds

/-- The next two bytes, as a word. -/
def u16 : Skim UInt16
  | high :: low :: bytes => .ok (Bytes.word high low, bytes)
  | _ => outOfBounds

/-- The next four bytes, as a number. -/
def u32 : Skim Nat
  | a :: b :: c :: d :: bytes => .ok (Bytes.doubleWord a b c d, bytes)
  | _ => outOfBounds

/-- Passes over the next `count` bytes. -/
def skip (count : Nat) : Skim Unit := do
  let _ ← take count

/-- The values of a reader that is run as often as the next word says. -/
def counted (reader : Skim α) : Skim (List α) := do
  times reader (← u16).toNat

/-- The same reader, as part of a step. -/
def during (step : Step) (reader : Skim α) : Skim α := fun bytes =>
  (reader bytes).during step

/-- The value that a reader finds in bytes of their own. -/
def within (reader : Skim α) (bytes : Bytes) : Outcome α :=
  (reader bytes).map (·.1)

end Skim

end AccessTransformer.ClassFile
