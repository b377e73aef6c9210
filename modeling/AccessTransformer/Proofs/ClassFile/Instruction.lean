import AccessTransformer.ClassFile.Instruction
import Mathlib.Data.List.Basic

/-!
# Complete instructions

What counts as a complete instruction depends on where it starts, since the switches are padded; but
it depends on nothing behind it.  So the number of bytes that a reader takes for an instruction is
right exactly when these bytes are one.

The table of operand sizes stands here a second time, instruction by instruction and in the order of
the sizes, where the reader goes by ranges of opcodes.

* `operandBytes?`: the sizes of the operands, as the instruction set has them.
* `IsInstruction`: whether bytes are a complete instruction.
* `operandCount_append`: a complete instruction has as many bytes as are taken for it.
* `isInstruction_of_operandCount`: the bytes that are taken for an instruction are one.
-/

namespace AccessTransformer.Instruction

/-! ## The instruction set -/

/-- The instructions with one operand byte: `bipush`, `ldc`, the loads and stores of a local
variable and `ret`, and `newarray`. -/
def oneOperandByte : List Nat :=
  [0x10, 0x12, 0x15, 0x16, 0x17, 0x18, 0x19, 0x36, 0x37, 0x38, 0x39, 0x3a, 0xa9, 0xbc]

/-- The instructions with two operand bytes: `sipush`, `ldc_w` and `ldc2_w`, `iinc`, the branches
with `goto` and `jsr`, those for fields, `invokevirtual`, `invokespecial` and `invokestatic`, `new`
and `anewarray`, `checkcast` and `instanceof`, `ifnull` and `ifnonnull`. -/
def twoOperandBytes : List Nat :=
  [0x11, 0x13, 0x14, 0x84, 0x99, 0x9a, 0x9b, 0x9c, 0x9d, 0x9e, 0x9f, 0xa0, 0xa1, 0xa2, 0xa3, 0xa4,
    0xa5, 0xa6, 0xa7, 0xa8, 0xb2, 0xb3, 0xb4, 0xb5, 0xb6, 0xb7, 0xb8, 0xbb, 0xbd, 0xc0, 0xc1, 0xc6,
    0xc7]

/-- The instruction with three operand bytes, `multianewarray`. -/
def threeOperandBytes : List Nat := [0xc5]

/-- The instructions with four operand bytes: `invokeinterface` and `invokedynamic`, `goto_w` and
`jsr_w`. -/
def fourOperandBytes : List Nat := [0xb9, 0xba, 0xc8, 0xc9]

/-- The instructions whose length their opcode does not tell: `tableswitch`, `lookupswitch` and
`wide`. -/
def variableLength : List Nat := [0xaa, 0xab, 0xc4]

/-- The opcodes that are kept for debuggers and virtual machines. -/
def reserved : List Nat := [0xca, 0xfe, 0xff]

/-- The number of operand bytes of an instruction of fixed length.  Opcodes up to `jsr_w` that are
in none of the lists have no operands. -/
def operandBytes? (opcode : UInt8) : Option Nat :=
  let op := opcode.toNat
  if op ∈ oneOperandByte then some 1
  else if op ∈ twoOperandBytes then some 2
  else if op ∈ threeOperandBytes then some 3
  else if op ∈ fourOperandBytes then some 4
  else if op ∈ variableLength then none
  else if op ≤ 0xc9 ∨ op ∈ reserved then some 0
  else none

/-- Whether four bytes are the two's complement of a number. -/
def IsSigned (bytes : Bytes) (value : Int) : Prop :=
  ∃ a b c d, bytes = [a, b, c, d] ∧ value = Bytes.signedDoubleWord a b c d

/-- Whether bytes lead from behind an opcode at an offset to the next multiple of four. -/
def IsPadding (offset : Nat) (bytes : Bytes) : Prop :=
  bytes.length < 4 ∧ (offset + 1 + bytes.length) % 4 = 0

/-- Whether bytes are a complete instruction that starts at an offset of the body. -/
inductive IsInstruction (offset : Nat) : Bytes → Prop where
  | fixed {opcode : UInt8} {operands : Bytes} (h : operandBytes? opcode = some operands.length) :
      IsInstruction offset (opcode :: operands)
  /-- A default, two bounds, and a jump for each number from the lower to the upper bound. -/
  | tableSwitch {padding default low high jumps : Bytes} {bottom top : Int}
      (hpadding : IsPadding offset padding) (hdefault : default.length = 4)
      (hlow : IsSigned low bottom) (hhigh : IsSigned high top) (hrange : bottom - 1 ≤ top)
      (hjumps : (jumps.length : Int) = (top - bottom + 1) * 4) :
      IsInstruction offset (0xaa :: (padding ++ (default ++ (low ++ (high ++ jumps)))))
  /-- A default, a count, and that many pairs of a number and a jump. -/
  | lookupSwitch {padding default count pairs : Bytes} {number : Int}
      (hpadding : IsPadding offset padding) (hdefault : default.length = 4)
      (hcount : IsSigned count number) (hpositive : 0 ≤ number)
      (hpairs : (pairs.length : Int) = number * 8) :
      IsInstruction offset (0xab :: (padding ++ (default ++ (count ++ pairs))))
  /-- The increment of a local variable, with two wide operands. -/
  | wideIncrement {operands : Bytes} (h : operands.length = 4) :
      IsInstruction offset (0xc4 :: 0x84 :: operands)
  /-- Another instruction, with one wide operand. -/
  | wide {opcode : UInt8} {operands : Bytes} (hopcode : opcode ≠ 0x84)
      (h : operands.length = 2) : IsInstruction offset (0xc4 :: opcode :: operands)

variable {offset count : Nat} {opcode : UInt8} {operands rest instruction : Bytes}

/-! ## Lengths -/

/-- The two tables of operand sizes agree. -/
theorem layout?_eq (opcode : UInt8) :
    layout? opcode = if opcode = 0xaa then some .tableSwitch else if opcode = 0xab then
      some .lookupSwitch else if opcode = 0xc4 then some .wide
      else (operandBytes? opcode).map .fixed := by
  have hall : ∀ n < 256, layout? (UInt8.ofNat n) = if UInt8.ofNat n = 0xaa then some .tableSwitch
      else if UInt8.ofNat n = 0xab then some .lookupSwitch else if UInt8.ofNat n = 0xc4 then
      some .wide else (operandBytes? (UInt8.ofNat n)).map .fixed := by
    decide +kernel
  have hopcode := hall opcode.toNat opcode.toNat_lt
  rwa [UInt8.ofNat_toNat] at hopcode

/-- The instructions of fixed length are none of the others. -/
theorem layout?_of_operandBytes? (h : operandBytes? opcode = some count) :
    layout? opcode = some (.fixed count) := by
  have hne : ∀ other ∈ ([0xaa, 0xab, 0xc4] : List UInt8), opcode ≠ other := by
    rintro other hother rfl
    have hnone : ∀ opcode ∈ ([0xaa, 0xab, 0xc4] : List UInt8), operandBytes? opcode = none := by
      decide +kernel
    exact nomatch (hnone opcode hother).symm.trans h
  rw [layout?_eq, if_neg (hne _ (by decide)), if_neg (hne _ (by decide)),
    if_neg (hne _ (by decide)), h, Option.map_some]

/-- There is one padding of each offset. -/
theorem IsPadding.length_eq {bytes : Bytes} (h : IsPadding offset bytes) :
    bytes.length = padding offset := by
  obtain ⟨hlt, haligned⟩ := h
  unfold padding
  omega

theorem isPadding_of_length_eq {bytes : Bytes} (h : bytes.length = padding offset) :
    IsPadding offset bytes := by
  unfold padding at h
  unfold IsPadding
  omega

theorem IsSigned.length_eq {bytes : Bytes} {value : Int} (h : IsSigned bytes value) :
    bytes.length = 4 := by
  obtain ⟨a, b, c, d, rfl, -⟩ := h
  rfl

/-- Every four bytes are some number. -/
theorem exists_isSigned {bytes : Bytes} (h : bytes.length = 4) :
    ∃ value, IsSigned bytes value := by
  obtain ⟨a, b, c, d, rfl⟩ := List.length_eq_four.mp h
  exact ⟨Bytes.signedDoubleWord a b c d, a, b, c, d, rfl, rfl⟩

theorem IsSigned.signed?_append {bytes : Bytes} {value : Int} (h : IsSigned bytes value)
    (rest : Bytes) : signed? (bytes ++ rest) = some value := by
  obtain ⟨a, b, c, d, rfl, hvalue⟩ := h
  simp only [List.cons_append, signed?, hvalue]

/-- The number of operand bytes of a table switch whose bounds are there. -/
theorem tableSwitchOperands_append {pad default low high : Bytes} {bottom top : Int}
    (hpad : IsPadding offset pad) (hdefault : default.length = 4) (hlow : IsSigned low bottom)
    (hhigh : IsSigned high top) (rest : Bytes) :
    tableSwitchOperands offset (pad ++ (default ++ (low ++ (high ++ rest))))
      = if -1 ≤ top - bottom ∧ top - bottom + 1 < 0x80000000 then
          .ok (padding offset + 12 + (top - bottom + 1).toNat * 4)
        else .error .tableRange := by
  have htable : (pad ++ (default ++ (low ++ (high ++ rest)))).drop (padding offset)
      = default ++ (low ++ (high ++ rest)) := by
    rw [← hpad.length_eq, List.drop_left]
  have hbottom : (default ++ (low ++ (high ++ rest))).drop 4 = low ++ (high ++ rest) := by
    rw [← hdefault, List.drop_left]
  have htop : (default ++ (low ++ (high ++ rest))).drop 8 = high ++ rest := by
    have hlength : (default ++ low).length = 8 := by
      rw [List.length_append, hdefault, hlow.length_eq]
    rw [← List.append_assoc, ← hlength, List.drop_left]
  simp only [tableSwitchOperands, htable, hbottom, htop, hlow.signed?_append,
    hhigh.signed?_append]

/-- The number of operand bytes of a lookup switch whose count is there. -/
theorem lookupSwitchOperands_append {pad default number : Bytes} {pairs : Int}
    (hpad : IsPadding offset pad) (hdefault : default.length = 4) (hnumber : IsSigned number pairs)
    (rest : Bytes) :
    lookupSwitchOperands offset (pad ++ (default ++ (number ++ rest)))
      = if 0 ≤ pairs then .ok (padding offset + 8 + pairs.toNat * 8)
        else .error .negativePairs := by
  have htable : (pad ++ (default ++ (number ++ rest))).drop (padding offset + 4)
      = number ++ rest := by
    have hlength : (pad ++ default).length = padding offset + 4 := by
      rw [List.length_append, hpad.length_eq, hdefault]
    rw [← List.append_assoc, ← hlength, List.drop_left]
  simp only [lookupSwitchOperands, htable, hnumber.signed?_append]

/-- **A complete instruction has as many operand bytes as are taken for it**, whatever stands behind
it.  A table that is too long for its count is too long for the body. -/
theorem operandCount_append (h : IsInstruction offset (opcode :: operands))
    (hlength : operands.length < 0x100000000) (rest : Bytes) :
    operandCount offset opcode (operands ++ rest) = .ok operands.length := by
  cases h with
  | fixed h => rw [operandCount, layout?_of_operandBytes? h]
  | @tableSwitch pad default low high jumps bottom top hpad hdefault hlow hhigh hrange hjumps =>
    have hlayout : layout? 0xaa = some .tableSwitch := by decide
    simp only [List.length_append, hpad.length_eq, hdefault, hlow.length_eq,
      hhigh.length_eq] at hlength ⊢
    have hbounds : -1 ≤ top - bottom ∧ top - bottom + 1 < 0x80000000 := by omega
    simp only [operandCount, hlayout, List.append_assoc,
      tableSwitchOperands_append hpad hdefault hlow hhigh, if_pos hbounds]
    congr 1
    omega
  | @lookupSwitch pad default number pairs value hpad hdefault hnumber hpositive hpairs =>
    have hlayout : layout? 0xab = some .lookupSwitch := by decide
    simp only [operandCount, hlayout, List.append_assoc,
      lookupSwitchOperands_append hpad hdefault hnumber, if_pos hpositive, List.length_append,
      hpad.length_eq, hdefault, hnumber.length_eq]
    congr 1
    omega
  | wideIncrement h =>
    have hlayout : layout? 0xc4 = some .wide := by decide
    simp only [operandCount, hlayout, List.cons_append, wideOperands, if_pos, List.length_cons, h]
  | wide hopcode h =>
    have hlayout : layout? 0xc4 = some .wide := by decide
    simp only [operandCount, hlayout, List.cons_append, wideOperands, if_neg hopcode,
      List.length_cons, h]

/-! ## Cutting off an instruction -/

/-- A list that is long enough has a front of every length up to its own. -/
theorem exists_append_of_length_eq {front back : Nat} {bytes : Bytes}
    (h : bytes.length = front + back) :
    ∃ before after, bytes = before ++ after ∧ before.length = front ∧ after.length = back := by
  refine ⟨bytes.take front, bytes.drop front, (List.take_append_drop front bytes).symm, ?_, ?_⟩
  · rw [List.length_take]
    omega
  · rw [List.length_drop]
    omega

/-- The bytes that are taken for a table switch are one. -/
theorem isInstruction_tableSwitch
    (h : tableSwitchOperands offset (operands ++ rest) = .ok operands.length) :
    IsInstruction offset (0xaa :: operands) := by
  have hlength : ∃ jumps, operands.length = padding offset + (4 + (4 + (4 + jumps))) := by
    simp only [tableSwitchOperands] at h
    split at h
    · split at h
      · rename_i low high _ _ _
        exact ⟨(high - low + 1).toNat * 4, by rw [← Except.ok.inj h]; omega⟩
      · cases h
    · cases h
  obtain ⟨jumps, hlength⟩ := hlength
  obtain ⟨pad, behind, rfl, hpad, hbehind⟩ := exists_append_of_length_eq hlength
  obtain ⟨default, behind, rfl, hdefault, hbehind⟩ := exists_append_of_length_eq hbehind
  obtain ⟨low, behind, rfl, hlow, hbehind⟩ := exists_append_of_length_eq hbehind
  obtain ⟨high, jumps, rfl, hhigh, hjumps⟩ := exists_append_of_length_eq hbehind
  obtain ⟨bottom, hlow⟩ := exists_isSigned hlow
  obtain ⟨top, hhigh⟩ := exists_isSigned hhigh
  have hpad := isPadding_of_length_eq hpad
  simp only [List.append_assoc, tableSwitchOperands_append hpad hdefault hlow hhigh] at h
  split at h
  · rename_i hbounds
    have hcount := Except.ok.inj h
    simp only [List.length_append, hpad.length_eq, hdefault, hlow.length_eq,
      hhigh.length_eq] at hcount
    exact .tableSwitch hpad hdefault hlow hhigh (by omega) (by omega)
  · cases h

/-- The bytes that are taken for a lookup switch are one. -/
theorem isInstruction_lookupSwitch
    (h : lookupSwitchOperands offset (operands ++ rest) = .ok operands.length) :
    IsInstruction offset (0xab :: operands) := by
  have hlength : ∃ pairs, operands.length = padding offset + (4 + (4 + pairs)) := by
    simp only [lookupSwitchOperands] at h
    split at h
    · split at h
      · rename_i pairs _ _
        exact ⟨pairs.toNat * 8, by rw [← Except.ok.inj h]; omega⟩
      · cases h
    · cases h
  obtain ⟨pairs, hlength⟩ := hlength
  obtain ⟨pad, behind, rfl, hpad, hbehind⟩ := exists_append_of_length_eq hlength
  obtain ⟨default, behind, rfl, hdefault, hbehind⟩ := exists_append_of_length_eq hbehind
  obtain ⟨number, pairs, rfl, hnumber, hpairs⟩ := exists_append_of_length_eq hbehind
  obtain ⟨value, hnumber⟩ := exists_isSigned hnumber
  have hpad := isPadding_of_length_eq hpad
  simp only [List.append_assoc, lookupSwitchOperands_append hpad hdefault hnumber] at h
  split at h
  · rename_i hpositive
    have hcount := Except.ok.inj h
    simp only [List.length_append, hpad.length_eq, hdefault, hnumber.length_eq] at hcount
    exact .lookupSwitch hpad hdefault hnumber hpositive (by omega)
  · cases h

/-- The bytes that are taken for `wide` are a wide instruction. -/
theorem isInstruction_wide (h : wideOperands (operands ++ rest) = .ok operands.length) :
    IsInstruction offset (0xc4 :: operands) := by
  cases operands with
  | nil =>
    -- at least three bytes are taken
    cases rest with
    | nil => cases h
    | cons opcode rest =>
      have hcount := Except.ok.inj h
      split at hcount <;> cases hcount
  | cons opcode operands =>
    have hcount := Except.ok.inj h
    rw [List.length_cons] at hcount
    split at hcount
    · rename_i hopcode
      rw [hopcode]
      exact .wideIncrement (by omega)
    · rename_i hopcode
      exact .wide hopcode (by omega)

/-- **The bytes that are taken for an instruction are one.** -/
theorem isInstruction_of_operandCount
    (h : operandCount offset opcode (operands ++ rest) = .ok operands.length) :
    IsInstruction offset (opcode :: operands) := by
  rw [operandCount, layout?_eq] at h
  by_cases htable : opcode = 0xaa
  · rw [if_pos htable] at h
    rw [htable]
    exact isInstruction_tableSwitch h
  by_cases hlookup : opcode = 0xab
  · rw [if_neg htable, if_pos hlookup] at h
    rw [hlookup]
    exact isInstruction_lookupSwitch h
  by_cases hwide : opcode = 0xc4
  · rw [if_neg htable, if_neg hlookup, if_pos hwide] at h
    rw [hwide]
    exact isInstruction_wide h
  rw [if_neg htable, if_neg hlookup, if_neg hwide] at h
  cases hcount : operandBytes? opcode with
  | none =>
    rw [hcount] at h
    cases h
  | some count =>
    rw [hcount] at h
    obtain rfl := Except.ok.inj h
    exact .fixed hcount

/-! ## Opcodes -/

/-- An instruction starts with its opcode. -/
theorem IsInstruction.exists_cons (h : IsInstruction offset instruction) :
    ∃ opcode operands, instruction = opcode :: operands := by
  cases h <;> exact ⟨_, _, rfl⟩

/-- An instruction that is none of those of variable length has the operand bytes of the table. -/
theorem IsInstruction.operandBytes?_eq (h : IsInstruction offset (opcode :: operands))
    (hopcode : opcode.toNat ∉ variableLength) : operandBytes? opcode = some operands.length := by
  generalize hbytes : opcode :: operands = bytes at h
  cases h with
  | fixed h =>
    obtain ⟨rfl, rfl⟩ := List.cons.inj hbytes
    exact h
  | tableSwitch => exact absurd (by rw [(List.cons.inj hbytes).1]; decide) hopcode
  | lookupSwitch => exact absurd (by rw [(List.cons.inj hbytes).1]; decide) hopcode
  | wideIncrement => exact absurd (by rw [(List.cons.inj hbytes).1]; decide) hopcode
  | wide => exact absurd (by rw [(List.cons.inj hbytes).1]; decide) hopcode

/-- A call has at least the two bytes of the method's index behind its opcode. -/
theorem IsInstruction.exists_operands {kind : CallKind}
    (h : IsInstruction offset (kind.opcode :: operands)) :
    ∃ high low more, operands = high :: low :: more := by
  have hopcode : kind.opcode.toNat ∉ variableLength := by
    cases kind <;> decide
  have hbytes : operandBytes? kind.opcode = some 2 ∨ operandBytes? kind.opcode = some 4 := by
    cases kind <;> decide
  rw [h.operandBytes?_eq hopcode, Option.some.injEq, Option.some.injEq] at hbytes
  match operands with
  | high :: low :: more => exact ⟨high, low, more, rfl⟩
  | [_] | [] => simp at hbytes

end AccessTransformer.Instruction
