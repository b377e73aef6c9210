import AccessTransformer.Bytes

/-!
# Instructions of a method body

A method body is a run of instructions without separators, so a call can only be found by stepping
from the first instruction to the last.  An instruction's length follows from its opcode, except
for three: the two switches are padded to a multiple of four counted from the start of the body
and carry a table, and `wide` lengthens the instruction after it.

`operandCount` takes the offset of an instruction and the bytes behind its opcode, and nothing
else of the body; `invocationsFrom` steps over the body with it.  Every step takes the opcode at
least, so the walk follows the bytes and needs no bound of its own.
-/

namespace AccessTransformer

/-! ## Calls -/

/-- The four ways to call a method by name. -/
inductive CallKind where
  | virtual
  | special
  | static
  | interface
  deriving DecidableEq, Repr

namespace CallKind

/-- The opcode of the instruction that makes such a call. -/
def opcode : CallKind → UInt8
  | .virtual => 0xb6
  | .special => 0xb7
  | .static => 0xb8
  | .interface => 0xb9

/-- The kind of call that an opcode makes. -/
def ofOpcode? (opcode : UInt8) : Option CallKind :=
  if opcode = 0xb6 then some .virtual
  else if opcode = 0xb7 then some .special
  else if opcode = 0xb8 then some .static
  else if opcode = 0xb9 then some .interface
  else none

@[simp] theorem ofOpcode?_opcode (kind : CallKind) : ofOpcode? kind.opcode = some kind := by
  cases kind <;> rfl

theorem ofOpcode?_eq_some_iff {op : UInt8} {kind : CallKind} :
    ofOpcode? op = some kind ↔ op = kind.opcode := by
  constructor
  · intro h
    simp only [ofOpcode?] at h
    split at h
    · cases h; assumption
    · split at h
      · cases h; assumption
      · split at h
        · cases h; assumption
        · split at h
          · cases h; assumption
          · cases h
  · rintro rfl
    exact ofOpcode?_opcode kind

end CallKind

/-- A call instruction: where it stands in the body, in 32 bits, and the constant that names the
method. -/
structure Invocation where
  kind : CallKind
  offset : Nat
  method : UInt16
  deriving DecidableEq, Repr

namespace Instruction

/-- Why bytes are not a run of instructions. -/
inductive Fault where
  /-- There is no instruction at the offset. -/
  | noInstruction
  /-- A switch breaks off before its bounds. -/
  | switchBroken
  /-- The bounds of a table are reversed, or too far apart for a 32-bit count. -/
  | tableRange
  /-- A table has a negative number of pairs. -/
  | negativePairs
  /-- Nothing follows `wide`. -/
  | wideBroken
  /-- The opcode is not assigned. -/
  | unassigned (opcode : UInt8)
  /-- The instruction runs past the end of the body. -/
  | runsOver (offset : Nat)
  /-- The opcode makes no call. -/
  | noCall (opcode : UInt8)
  deriving DecidableEq, Repr

/-- The wording of a fault. -/
def Fault.message : Fault → String
  | .noInstruction => "bytecode offset out of bounds"
  | .switchBroken => "bytecode i32 out of bounds"
  | .tableRange => "invalid tableswitch range"
  | .negativePairs => "invalid lookupswitch pairs"
  | .wideBroken => "missing wide opcode"
  | .unassigned opcode => s!"unsupported opcode 0x{Bytes.hexByte opcode}"
  | .runsOver offset => s!"invalid bytecode length at offset {offset}"
  | .noCall opcode => s!"unexpected invoke opcode 0x{Bytes.hexByte opcode}"

/-! ## Lengths -/

/-- How the bytes behind an opcode are laid out. -/
inductive Layout where
  /-- A fixed number of operand bytes. -/
  | fixed (operands : Nat)
  /-- Padding, a default, two bounds, and a jump for each number between them. -/
  | tableSwitch
  /-- Padding, a default, a count, and that many pairs. -/
  | lookupSwitch
  /-- Another instruction with wider operands. -/
  | wide
  deriving DecidableEq, Repr

/-- The layout that belongs to an opcode; three opcodes reserved for debuggers stand alone. -/
def layout? (opcode : UInt8) : Option Layout :=
  let op := opcode.toNat
  if op ≤ 0x0f then some (.fixed 0)                        -- constants
  else if op = 0x10 then some (.fixed 1)
  else if op = 0x11 then some (.fixed 2)
  else if op = 0x12 then some (.fixed 1)
  else if op ≤ 0x14 then some (.fixed 2)
  else if op ≤ 0x19 then some (.fixed 1)                   -- loads
  else if op ≤ 0x35 then some (.fixed 0)
  else if op ≤ 0x3a then some (.fixed 1)                   -- stores
  else if op ≤ 0x83 then some (.fixed 0)                   -- stack and arithmetic
  else if op = 0x84 then some (.fixed 2)
  else if op ≤ 0x98 then some (.fixed 0)                   -- conversions and comparisons
  else if op ≤ 0xa8 then some (.fixed 2)                   -- jumps
  else if op = 0xa9 then some (.fixed 1)
  else if op = 0xaa then some .tableSwitch
  else if op = 0xab then some .lookupSwitch
  else if op ≤ 0xb1 then some (.fixed 0)                   -- returns
  else if op ≤ 0xb8 then some (.fixed 2)                   -- fields and calls
  else if op ≤ 0xba then some (.fixed 4)
  else if op = 0xbb then some (.fixed 2)                   -- objects and arrays
  else if op = 0xbc then some (.fixed 1)
  else if op = 0xbd then some (.fixed 2)
  else if op ≤ 0xbf then some (.fixed 0)
  else if op ≤ 0xc1 then some (.fixed 2)
  else if op ≤ 0xc3 then some (.fixed 0)
  else if op = 0xc4 then some .wide
  else if op = 0xc5 then some (.fixed 3)
  else if op ≤ 0xc7 then some (.fixed 2)
  else if op ≤ 0xc9 then some (.fixed 4)
  else if op = 0xca ∨ op = 0xfe ∨ op = 0xff then some (.fixed 0)
  else none

/-- The number of bytes from behind an opcode at `offset` to the next multiple of four. -/
def padding (offset : Nat) : Nat :=
  (4 - (offset + 1) % 4) % 4

/-- The signed number that the bytes start with. -/
def signed? : Bytes → Option Int
  | a :: b :: c :: d :: _ => some (Bytes.signedDoubleWord a b c d)
  | _ => none

/-- The number of bytes behind the opcode of a table switch. -/
def tableSwitchOperands (offset : Nat) (operands : Bytes) : Except Fault Nat :=
  let table := operands.drop (padding offset)
  match signed? (table.drop 4), signed? (table.drop 8) with
  | some low, some high =>
    if -1 ≤ high - low ∧ high - low + 1 < 0x80000000 then
      .ok (padding offset + 12 + (high - low + 1).toNat * 4)
    else .error .tableRange
  | _, _ => .error .switchBroken

/-- The number of bytes behind the opcode of a lookup switch. -/
def lookupSwitchOperands (offset : Nat) (operands : Bytes) : Except Fault Nat :=
  match signed? (operands.drop (padding offset + 4)) with
  | some pairs =>
    if 0 ≤ pairs then .ok (padding offset + 8 + pairs.toNat * 8) else .error .negativePairs
  | none => .error .switchBroken

/-- The number of bytes behind `wide`: the increment takes two wide operands, all others one. -/
def wideOperands : Bytes → Except Fault Nat
  | opcode :: _ => .ok (if opcode = 0x84 then 5 else 3)
  | [] => .error .wideBroken

/-- The number of bytes that belong to the opcode at `offset`, given those behind it.  They need
not all be there. -/
def operandCount (offset : Nat) (opcode : UInt8) (operands : Bytes) : Except Fault Nat :=
  match layout? opcode with
  | some (.fixed count) => .ok count
  | some .tableSwitch => tableSwitchOperands offset operands
  | some .lookupSwitch => lookupSwitchOperands offset operands
  | some .wide => wideOperands operands
  | none => .error (.unassigned opcode)

/-- The length of the instruction at `offset` of a body. -/
def length (body : Bytes) (offset : Nat) : Except Fault Nat :=
  match body.drop offset with
  | [] => .error .noInstruction
  | opcode :: operands => (operandCount offset opcode operands).map (1 + ·)

/-! ## Walking a body -/

/-- The call that an instruction makes, if it is a call. -/
def invocation? (offset : Nat) (opcode : UInt8) (operands : Bytes) : Option Invocation :=
  match CallKind.ofOpcode? opcode, operands with
  | some kind, high :: low :: _ => some ⟨kind, offset % 0x100000000, Bytes.word high low⟩
  | _, _ => none

/-- The calls made by the instructions that start at `offset`. -/
def invocationsFrom (offset : Nat) : Bytes → Except Fault (List Invocation)
  | [] => .ok []
  | opcode :: bytes =>
    match operandCount offset opcode bytes with
    | .error fault => .error fault
    | .ok count =>
      match _h : Bytes.splitAt? count bytes with
      | none => .error (.runsOver offset)
      | some (operands, rest) => do
        let later ← invocationsFrom (offset + 1 + count) rest
        return (invocation? offset opcode operands).toList ++ later
termination_by bytes => bytes.length
decreasing_by
  have := Bytes.length_of_splitAt? _h
  simp only [List.length_cons]
  omega

/-- The calls that a method body makes, in the order of its instructions. -/
def invocations (body : Bytes) : Except Fault (List Invocation) :=
  invocationsFrom 0 body

end Instruction

/-- The kind of call that an opcode makes, or the fault that it makes none. -/
def CallKind.ofOpcode (opcode : UInt8) : Except Instruction.Fault CallKind :=
  match ofOpcode? opcode with
  | some kind => .ok kind
  | none => .error (.noCall opcode)

end AccessTransformer
