import AccessTransformer.Proofs.ClassFile.Body
import AccessTransformer.Proofs.ClassFile.InPlace.Checked
import AccessTransformer.Proofs.Outcomes

/-!
# Walking a body in place

A body can be walked with an offset into it, which goes up by the length of each instruction.  The
length of a switch is computed from numbers in the body, so it has to be checked against 64 bits,
and the bounds of a table against 32; the operand of a call is read from the body again, and the
kind of a call is asked for once more when the walk is over.

For bodies of less than 2³² bytes all of this is safe, and as many rounds as there are bytes are
enough.  The calls are those that `Instruction.invocations` finds.

* `walk`: the walk in place.
* `opcodeLength_eq`: the length of an instruction, in place.
* `walk_eq`: the walk gets to no breach.
* `isBodyFault_of_invocationsFrom`, `exists_kind_of_walk`: faults that do not come up.
-/

namespace AccessTransformer.InPlace

open Instruction Checked

/-! ## Operands -/

/-- The word at a place of the body. -/
def readWord (code : Bytes) (place : Nat) : Checked Fault UInt16 := do
  match slice? code place (← fits (place + 2)) with
  | some bytes => wordIn bytes
  | none => breach .operandCut

/-- The signed number at a place of the body. -/
def readSigned (code : Bytes) (place : Nat) : Checked Fault Int := do
  match slice? code place (← fits (place + 4)) with
  | some bytes => return Int.bmod (← numberIn bytes) 0x100000000
  | none => throw .switchBroken

/-- Whether a number is one of 32 bits with a sign. -/
def IsSigned32 (value : Int) : Prop := -0x80000000 ≤ value ∧ value < 0x80000000

instance (value : Int) : Decidable (IsSigned32 value) := inferInstanceAs (Decidable (_ ∧ _))

/-- How many numbers there are from one to another, if 32 bits are enough all the way. -/
def jumpCount? (low high : Int) : Option Int :=
  if IsSigned32 (high - low) ∧ IsSigned32 (high - low + 1) then some (high - low + 1) else none

/-! ## Lengths -/

/-- The length of the table switch at an offset. -/
def tableSwitchLength (code : Bytes) (offset : Nat) : Checked Fault Nat := do
  let base ← fits (offset + 1 + padding offset)
  let low ← readSigned code (← fits (base + 4))
  let high ← readSigned code (← fits (base + 8))
  match jumpCount? low high with
  | none => throw .tableRange
  | some count =>
    if count < 0 then throw .tableRange
    else fits (1 + padding offset + 12 + (← fits (count.toNat * 4)))

/-- The length of the lookup switch at an offset. -/
def lookupSwitchLength (code : Bytes) (offset : Nat) : Checked Fault Nat := do
  let base ← fits (offset + 1 + padding offset)
  let pairs ← readSigned code (← fits (base + 4))
  if pairs < 0 then throw .negativePairs
  else fits (1 + padding offset + 8 + (← fits (pairs.toNat * 8)))

/-- The length of the instruction at an offset that starts with `wide`. -/
def wideLength (code : Bytes) (offset : Nat) : Checked Fault Nat := do
  match code[← fits (offset + 1)]? with
  | some opcode => return if opcode = 0x84 then 6 else 4
  | none => throw .wideBroken

/-- The length of the instruction at an offset. -/
def opcodeLength (code : Bytes) (offset : Nat) : Checked Fault Nat :=
  match code[offset]? with
  | none => breach .noInstruction
  | some opcode =>
    match layout? opcode with
    | some (.fixed count) => fits (1 + count)
    | some .tableSwitch => tableSwitchLength code offset
    | some .lookupSwitch => lookupSwitchLength code offset
    | some .wide => wideLength code offset
    | none => throw (.unassigned opcode)

/-! ## The walk -/

/-- A call instruction with its opcode, as a walk finds it. -/
structure RawInvocation where
  opcode : UInt8
  offset : Nat
  method : UInt16
  deriving DecidableEq, Repr

/-- The opcodes of calls. -/
def callOpcodes : List UInt8 := [0xb6, 0xb7, 0xb8, 0xb9]

/-- What a walk finds at an offset. -/
def callsAt (code : Bytes) (offset : Nat) (opcode : UInt8) :
    Checked Fault (List RawInvocation) :=
  if opcode ∈ callOpcodes then do
    let method ← readWord code (← fits (offset + 1))
    return [⟨opcode, offset % 0x100000000, method⟩]
  else pure []

/-- What a walk finds from an offset on, in at most so many rounds. -/
def walk (code : Bytes) : Nat → Nat → Checked Fault (List RawInvocation)
  | 0, offset => if offset < code.length then breach .unfinished else pure []
  | rounds + 1, offset =>
    if offset < code.length then do
      let opcode ← byteAt code offset
      let length ← opcodeLength code offset
      let stop ← fits (offset + length)
      if length = 0 ∨ code.length < stop then throw (.runsOver offset)
      else
        let found ← callsAt code offset opcode
        return found ++ (← walk code rounds stop)
    else pure []

/-! ## Reading operands is safe -/

variable {code : Bytes} {offset place : Nat} {opcode : UInt8}

theorem readSigned_eq (h : place + 4 < 0x10000000000000000) :
    readSigned code place = safely (match signed? (code.drop place) with
      | some value => .ok value
      | none => .error .switchBroken) := by
  unfold readSigned
  rw [fits_eq h]
  simp only [safely_ok_bind]
  rw [slice?_add (.inr (by decide))]
  rcases code.drop place with _ | ⟨a, _ | ⟨b, _ | ⟨c, _ | ⟨d, rest⟩⟩⟩⟩
  · rfl
  · rfl
  · rfl
  · rfl
  · rfl

theorem readWord_eq {high low : UInt8} {rest : Bytes} (h : place + 2 < 0x10000000000000000)
    (hthere : code.drop place = high :: low :: rest) :
    readWord code place = safely (.ok (Bytes.word high low)) := by
  rw [readWord, fits_eq h, safely_ok_bind, slice?_add (.inr (by decide)), hthere]
  rfl

/-- A signed number of four bytes is one of 32 bits. -/
theorem isSigned32_of_signed? {bytes : Bytes} {value : Int} (h : signed? bytes = some value) :
    IsSigned32 value := by
  unfold signed? at h
  split at h
  · rename_i a b c d _
    rw [← Option.some.inj h]
    have hlow := Int.le_bmod (x := Bytes.doubleWord a b c d) (m := 0x100000000) (by decide)
    have hhigh := Int.bmod_lt (x := Bytes.doubleWord a b c d) (m := 0x100000000) (by decide)
    unfold IsSigned32 Bytes.signedDoubleWord
    omega
  · cases h

theorem jumpCount?_eq_some_iff {low high count : Int} :
    jumpCount? low high = some count ↔
      count = high - low + 1 ∧ IsSigned32 (high - low) ∧ IsSigned32 count := by
  unfold jumpCount?
  split_ifs with hsigned
  · rw [Option.some.injEq]
    exact ⟨fun h => ⟨h.symm, hsigned.1, h ▸ hsigned.2⟩, fun h => h.1.symm⟩
  · refine ⟨nofun, fun ⟨hcount, hdifference, hsum⟩ => ?_⟩
    exact absurd ⟨hdifference, hcount ▸ hsum⟩ hsigned

/-! ## Lengths are safe -/

theorem padding_lt (offset : Nat) : padding offset < 4 := Nat.mod_lt _ (by decide)

theorem tableSwitchLength_eq (hoffset : offset < 0x100000000) :
    tableSwitchLength code offset
      = safely ((tableSwitchOperands offset (code.drop (offset + 1))).map (1 + ·)) := by
  have hpadding := padding_lt offset
  unfold tableSwitchLength tableSwitchOperands
  simp only [List.drop_drop]
  rw [fits_eq (by omega), safely_ok_bind, fits_eq (by omega), safely_ok_bind,
    readSigned_eq (by omega)]
  cases signed? (code.drop (offset + 1 + padding offset + 4)) with
  | none => rfl
  | some low =>
    rw [safely_ok_bind, fits_eq (by omega), safely_ok_bind, readSigned_eq (by omega)]
    cases signed? (code.drop (offset + 1 + padding offset + 8)) with
    | none => rfl
    | some high =>
      dsimp only
      rw [safely_ok_bind]
      split_ifs with hrange
      · have hcount : jumpCount? low high = some (high - low + 1) :=
          jumpCount?_eq_some_iff.mpr ⟨rfl, by unfold IsSigned32; omega, by unfold IsSigned32; omega⟩
        rw [hcount]
        dsimp only
        rw [if_neg (by omega), fits_eq (by omega), safely_ok_bind, fits_eq (by omega)]
        simp only [Except.map]
        congr 2
        omega
      · -- too many jumps for 32 bits, or less than none
        cases hcount : jumpCount? low high with
        | none => rfl
        | some count =>
          obtain ⟨rfl, -, hsum⟩ := jumpCount?_eq_some_iff.mp hcount
          have hnegative : high - low + 1 < 0 := by
            unfold IsSigned32 at hsum
            omega
          dsimp only
          rw [if_pos hnegative]
          rfl

theorem lookupSwitchLength_eq (hoffset : offset < 0x100000000) :
    lookupSwitchLength code offset
      = safely ((lookupSwitchOperands offset (code.drop (offset + 1))).map (1 + ·)) := by
  have hpadding := padding_lt offset
  unfold lookupSwitchLength lookupSwitchOperands
  rw [fits_eq (by omega), safely_ok_bind, fits_eq (by omega), safely_ok_bind,
    readSigned_eq (by omega), List.drop_drop, ← Nat.add_assoc]
  cases hpairs : signed? (code.drop (offset + 1 + padding offset + 4)) with
  | none => rfl
  | some pairs =>
    have hsigned := isSigned32_of_signed? hpairs
    unfold IsSigned32 at hsigned
    dsimp only
    rw [safely_ok_bind]
    split_ifs with hnegative hpositive
    · omega
    · rfl
    · rw [fits_eq (by omega), safely_ok_bind, fits_eq (by omega)]
      simp only [Except.map]
      congr 2
      omega
    · omega

theorem wideLength_eq (hoffset : offset < 0x100000000) :
    wideLength code offset
      = safely ((wideOperands (code.drop (offset + 1))).map (1 + ·)) := by
  unfold wideLength
  rw [fits_eq (by omega), safely_ok_bind, ← List.head?_drop]
  rcases code.drop (offset + 1) with _ | ⟨opcode, rest⟩
  · rfl
  · dsimp only [List.head?_cons, wideOperands]
    split_ifs <;> rfl

theorem le_of_layout?_eq_fixed {count : Nat} (h : layout? opcode = some (.fixed count)) :
    count ≤ 4 := by
  rw [layout?_eq] at h
  split_ifs at h
  · cases h
  · cases h
  · cases h
  · obtain ⟨operands, hoperands, hcount⟩ := Option.map_eq_some_iff.mp h
    cases hcount
    unfold operandBytes? at hoperands
    dsimp only at hoperands
    split_ifs at hoperands
    all_goals
      have hcount := Option.some.inj hoperands
      omega

/-- **The length of an instruction is computed in place as it is outside.** -/
theorem opcodeLength_eq {rest : Bytes} (hoffset : offset < 0x100000000)
    (hthere : code.drop offset = opcode :: rest) :
    opcodeLength code offset
      = safely ((operandCount offset opcode rest).map (1 + ·)) := by
  have hopcode : code[offset]? = some opcode := by
    rw [← List.head?_drop, hthere]
    rfl
  have hrest : code.drop (offset + 1) = rest := by
    rw [← List.drop_drop, hthere]
    rfl
  unfold opcodeLength operandCount
  rw [hopcode]
  dsimp only
  cases hlayout : layout? opcode with
  | none => rfl
  | some layout =>
    cases layout with
    | fixed count =>
      have hcount := le_of_layout?_eq_fixed hlayout
      dsimp only
      rw [fits_eq (by omega)]
      rfl
    | tableSwitch => exact hrest ▸ tableSwitchLength_eq hoffset
    | lookupSwitch => exact hrest ▸ lookupSwitchLength_eq hoffset
    | wide => exact hrest ▸ wideLength_eq hoffset

/-! ## The walk is safe -/

/-- An invocation with the opcode of its kind. -/
def RawInvocation.ofInvocation (invocation : Invocation) : RawInvocation :=
  ⟨invocation.kind.opcode, invocation.offset, invocation.method⟩

theorem mem_callOpcodes_iff : opcode ∈ callOpcodes ↔ ∃ kind : CallKind, opcode = kind.opcode := by
  constructor
  · intro h
    simp only [callOpcodes, List.mem_cons, List.not_mem_nil, or_false] at h
    rcases h with rfl | rfl | rfl | rfl
    · exact ⟨.virtual, rfl⟩
    · exact ⟨.special, rfl⟩
    · exact ⟨.static, rfl⟩
    · exact ⟨.interface, rfl⟩
  · rintro ⟨kind, rfl⟩
    cases kind <;> decide

/-- A call that is complete has its operand. -/
theorem exists_operands_of_call {kind : CallKind} {operands rest : Bytes}
    (h : operandCount offset kind.opcode (operands ++ rest) = .ok operands.length) :
    ∃ high low more, operands = high :: low :: more := by
  have hcount : 2 ≤ operands.length := by
    cases kind
    all_goals
      have hlength := Except.ok.inj h
      omega
  rcases operands with _ | ⟨high, _ | ⟨low, more⟩⟩
  · exact absurd hcount (by simp)
  · exact absurd hcount (by simp)
  · exact ⟨high, low, more, rfl⟩

/-- **What is found at a complete instruction is found in place.** -/
theorem callsAt_eq {operands rest : Bytes} (hoffset : offset < 0x100000000)
    (hthere : code.drop offset = opcode :: (operands ++ rest))
    (hcount : operandCount offset opcode (operands ++ rest) = .ok operands.length) :
    callsAt code offset opcode = safely (.ok
      ((invocation? offset opcode operands).toList.map RawInvocation.ofInvocation)) := by
  unfold callsAt
  split_ifs with hcall
  · obtain ⟨kind, rfl⟩ := mem_callOpcodes_iff.mp hcall
    obtain ⟨high, low, more, rfl⟩ := exists_operands_of_call hcount
    have hoperands : code.drop (offset + 1) = high :: low :: (more ++ rest) := by
      rw [← List.drop_drop, hthere]
      rfl
    rw [fits_eq (by omega), safely_ok_bind, readWord_eq (by omega) hoperands, safely_ok_bind]
    simp [invocation?, RawInvocation.ofInvocation, pure_eq]
  · have hnone : CallKind.ofOpcode? opcode = none := by
      cases hkind : CallKind.ofOpcode? opcode with
      | none => rfl
      | some kind =>
        exact absurd (mem_callOpcodes_iff.mpr ⟨kind, CallKind.ofOpcode?_eq_some_iff.mp hkind⟩) hcall
    unfold invocation?
    rw [hnone]
    rfl

/-- No instruction comes near the end of a register. -/
theorem operandCount_lt {operands : Bytes} {count : Nat}
    (h : operandCount offset opcode operands = .ok count) : count < 0x1000000000 := by
  have hpadding := padding_lt offset
  unfold operandCount at h
  split at h
  · rename_i fixed hlayout
    have hfixed := le_of_layout?_eq_fixed hlayout
    have hcount := Except.ok.inj h
    omega
  · unfold tableSwitchOperands at h
    dsimp only at h
    split at h
    · split_ifs at h with hrange
      have hcount := Except.ok.inj h
      omega
    · cases h
  · unfold lookupSwitchOperands at h
    split at h
    · rename_i pairs hpairs
      have hsigned := isSigned32_of_signed? hpairs
      unfold IsSigned32 at hsigned
      split_ifs at h with hpositive
      have hcount := Except.ok.inj h
      omega
    · cases h
  · unfold wideOperands at h
    split at h
    · have hcount := Except.ok.inj h
      split_ifs at hcount <;> omega
    · cases h
  · cases h

/-- Bytes that are too few for an instruction end the search for calls. -/
theorem invocationsFrom_of_splitAt? {bytes : Bytes} {count : Nat}
    (hcount : operandCount offset opcode bytes = .ok count)
    (hsplit : Bytes.splitAt? count bytes = none) :
    invocationsFrom offset (opcode :: bytes) = .error (.runsOver offset) := by
  rw [invocationsFrom, hcount]
  dsimp only
  split
  · rfl
  · rename_i hsome
    cases hsplit.symm.trans hsome

/-- **A walk of enough rounds gets to no breach.**  Each round goes over a byte at least. -/
theorem walk_eq {rounds : Nat} (hlength : code.length < 0x100000000)
    (hrounds : code.length ≤ offset + rounds) :
    walk code rounds offset = safely
      ((invocationsFrom offset (code.drop offset)).map (·.map RawInvocation.ofInvocation)) := by
  induction rounds generalizing offset with
  | zero =>
    rw [walk, if_neg (by omega), List.drop_eq_nil_of_le (by omega), invocationsFrom]
    rfl
  | succ rounds ih =>
    rw [walk]
    split_ifs with hthere
    · rcases hdrop : code.drop offset with _ | ⟨opcode, bytes⟩
      · exact absurd (List.drop_eq_nil_iff.mp hdrop) (by omega)
      have hopcode : code[offset]? = some opcode := by
        rw [← List.head?_drop, hdrop]
        rfl
      have hbytes : bytes.length + offset + 1 = code.length := by
        have hall := congrArg List.length hdrop
        rw [List.length_drop, List.length_cons] at hall
        omega
      rw [byteAt_eq hopcode, safely_ok_bind, opcodeLength_eq (by omega) hdrop]
      cases hcount : operandCount offset opcode bytes with
      | error fault =>
        rw [invocationsFrom, hcount]
        rfl
      | ok count =>
        have hlt := operandCount_lt hcount
        rw [Except.map, safely_ok_bind, fits_eq (by omega), safely_ok_bind]
        rcases hsplit : Bytes.splitAt? count bytes with _ | ⟨operands, rest⟩
        · have hshort := splitAt?_eq_none_iff.mp hsplit
          rw [if_pos (by omega), invocationsFrom_of_splitAt? hcount hsplit]
          rfl
        · obtain ⟨rfl, rfl⟩ := Bytes.splitAt?_eq_some_iff.mp hsplit
          rw [List.length_append] at hbytes
          have hrest : code.drop (offset + (1 + operands.length)) = rest := by
            rw [← List.drop_drop, hdrop, Nat.add_comm 1, List.drop_succ_cons, List.drop_left]
          rw [if_neg (by omega), callsAt_eq (by omega) hdrop hcount, safely_ok_bind,
            ih (by omega), hrest, invocationsFrom_cons_append opcode hcount, List.length_cons,
            Nat.add_comm operands.length 1]
          cases invocationsFrom (offset + (1 + operands.length)) rest with
          | error fault => rfl
          | ok later =>
            simp only [Except.map, safely_ok_bind, List.map_append, pure_eq]
    · rw [List.drop_eq_nil_of_le (by omega), invocationsFrom]
      rfl

/-! ## Faults and kinds -/

/-- Whether the bytes of a body can be at fault in this way.  That there is no instruction, or no
call, is only said of a single offset or opcode. -/
def IsBodyFault : Fault → Prop
  | .noInstruction => False
  | .noCall _ => False
  | _ => True

theorem isBodyFault_of_operandCount {operands : Bytes} {fault : Fault}
    (h : operandCount offset opcode operands = .error fault) : IsBodyFault fault := by
  unfold operandCount at h
  split at h
  · cases h
  · unfold tableSwitchOperands at h
    dsimp only at h
    split at h
    · split_ifs at h
      cases h
      trivial
    · cases h
      trivial
  · unfold lookupSwitchOperands at h
    split at h
    · split_ifs at h
      cases h
      trivial
    · cases h
      trivial
  · unfold wideOperands at h
    split at h
    · cases h
    · cases h
      trivial
  · cases h
    trivial

theorem isBodyFault_of_invocationsFrom {bytes : Bytes} {fault : Fault}
    (h : invocationsFrom offset bytes = .error fault) : IsBodyFault fault := by
  fun_induction invocationsFrom offset bytes with
  | case1 => cases h
  | case2 offset opcode bytes fault' hcount =>
    obtain rfl := Except.error.inj h
    exact isBodyFault_of_operandCount hcount
  | case3 =>
    cases h
    trivial
  | case4 offset opcode bytes count hcount operands rest hsplit ih =>
    cases hlater : invocationsFrom (offset + 1 + count) rest with
    | error fault' =>
      rw [hlater] at h
      obtain rfl := Except.error.inj h
      exact ih hlater
    | ok later =>
      rw [hlater] at h
      cases h

/-- **The kind of a call that was found is found by its opcode.** -/
theorem exists_kind_of_walk {rounds : Nat} {found : List RawInvocation} {raw : RawInvocation}
    (hlength : code.length < 0x100000000) (hrounds : code.length ≤ rounds)
    (hfound : walk code rounds 0 = safely (.ok found)) (hraw : raw ∈ found) :
    ∃ kind, CallKind.ofOpcode raw.opcode = .ok kind := by
  rw [walk_eq hlength (by omega)] at hfound
  obtain ⟨invocations, -, rfl⟩ := map_eq_ok_iff.mp (Except.ok.inj hfound)
  obtain ⟨invocation, -, rfl⟩ := List.mem_map.mp hraw
  refine ⟨invocation.kind, ?_⟩
  rw [CallKind.ofOpcode, RawInvocation.ofInvocation, CallKind.ofOpcode?_opcode]

end AccessTransformer.InPlace
