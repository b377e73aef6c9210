import AccessTransformer.Proofs.ClassFile.Instruction

/-!
# Method bodies

A method body is a row of complete instructions.  There is at most one way to cut a body into them,
because an instruction depends on nothing behind it; stepping over the body finds this way, and
fails if there is none.

* `IsBody`, `Decomposes`: rows of complete instructions, from some offset on and of a whole body.
* `ListsCalls`: the calls among the instructions of a row.
* `invocationsFrom_cons_append`, `exists_of_invocationsFrom_cons`: one step.
* `exists_of_invocationsFrom`, `invocationsFrom_flatten`: stepping over a row of instructions.
* `IsBody.eq_of_flatten_eq`: a body is cut in one way.
* `invocations_decompose`: all of this for a whole body.
-/

namespace AccessTransformer.Instruction

/-- Whether the members of a list are complete instructions one behind the other, the first of them
at an offset of the body. -/
inductive IsBody : Nat → List Bytes → Prop where
  | nil (offset : Nat) : IsBody offset []
  | cons {offset : Nat} {instruction : Bytes} {instructions : List Bytes}
      (h : IsInstruction offset instruction)
      (hrest : IsBody (offset + instruction.length) instructions) :
      IsBody offset (instruction :: instructions)

/-- Whether a body is cut into the given complete instructions. -/
def Decomposes (body : Bytes) (instructions : List Bytes) : Prop :=
  IsBody 0 instructions ∧ instructions.flatten = body

/-- Whether an instruction makes a call: it has the opcode of the kind of call, and then the index
of the method. -/
def IsCall (offset : Nat) (instruction : Bytes) (call : Invocation) : Prop :=
  ∃ high low more, instruction = call.kind.opcode :: high :: low :: more ∧
    call.offset = offset ∧ call.method.toNat = high.toNat * 256 + low.toNat

/-- Whether a list has the calls among instructions one behind the other, in their order. -/
inductive ListsCalls : Nat → List Bytes → List Invocation → Prop where
  | nil (offset : Nat) : ListsCalls offset [] []
  | call {offset : Nat} {instruction : Bytes} {instructions : List Bytes} {call : Invocation}
      {calls : List Invocation} (h : IsCall offset instruction call)
      (hrest : ListsCalls (offset + instruction.length) instructions calls) :
      ListsCalls offset (instruction :: instructions) (call :: calls)
  | other {offset : Nat} {instruction : Bytes} {instructions : List Bytes}
      {calls : List Invocation} (h : ∀ kind : CallKind, instruction.head? ≠ some kind.opcode)
      (hrest : ListsCalls (offset + instruction.length) instructions calls) :
      ListsCalls offset (instruction :: instructions) calls

variable {offset : Nat} {opcode : UInt8} {operands rest bytes instruction : Bytes}
  {instructions : List Bytes} {call : Invocation} {found : List Invocation}

/-! ## Walking a body -/

/-- The number that a word of two bytes is. -/
theorem word_toNat (high low : UInt8) :
    (Bytes.word high low).toNat = high.toNat * 256 + low.toNat := by
  have hhigh := high.toNat_lt
  have hlow := low.toNat_lt
  exact UInt16.toNat_ofNat_of_lt' (by show _ < 65536; omega)

/-- What is found at an instruction is the call that it makes, if it makes one. -/
theorem invocation?_eq_some_iff (hoffset : offset < 0x100000000) :
    invocation? offset opcode operands = some call ↔ IsCall offset (opcode :: operands) call := by
  unfold invocation?
  rw [Nat.mod_eq_of_lt hoffset]
  constructor
  · intro h
    split at h
    · rename_i kind high low more hkind
      obtain rfl := Option.some.inj h
      refine ⟨high, low, more, ?_, rfl, word_toNat high low⟩
      rw [CallKind.ofOpcode?_eq_some_iff.mp hkind]
    · cases h
  · rintro ⟨high, low, more, hinstruction, hcall, hmethod⟩
    obtain ⟨rfl, rfl⟩ := List.cons.inj hinstruction
    rw [← word_toNat, UInt16.toNat_inj] at hmethod
    simp only [CallKind.ofOpcode?_opcode, ← hcall, ← hmethod]

/-- An instruction at which nothing is found is no call. -/
theorem IsInstruction.head?_ne (h : IsInstruction offset (opcode :: operands))
    (hnone : invocation? offset opcode operands = none) (kind : CallKind) :
    (opcode :: operands).head? ≠ some kind.opcode := by
  intro hhead
  obtain rfl := Option.some.inj hhead
  obtain ⟨high, low, more, rfl⟩ := h.exists_operands
  simp only [invocation?, CallKind.ofOpcode?_opcode] at hnone
  cases hnone

/-- Nothing is found at an instruction that is no call. -/
theorem invocation?_eq_none (h : ∀ kind : CallKind, (opcode :: operands).head? ≠ some kind.opcode) :
    invocation? offset opcode operands = none := by
  unfold invocation?
  split
  · rename_i kind _ _ _ hkind
    exact absurd (congrArg some (CallKind.ofOpcode?_eq_some_iff.mp hkind)) (h kind)
  · rfl

/-- A step over an instruction, and what is found behind it. -/
theorem invocationsFrom_cons_append (opcode : UInt8)
    (h : operandCount offset opcode (operands ++ rest) = .ok operands.length) :
    invocationsFrom offset (opcode :: (operands ++ rest))
      = (invocationsFrom (offset + (opcode :: operands).length) rest).map
        ((invocation? offset opcode operands).toList ++ ·) := by
  have hsplit := Bytes.splitAt?_append operands rest
  have hoffset : offset + (opcode :: operands).length = offset + 1 + operands.length := by
    rw [List.length_cons]
    omega
  rw [invocationsFrom, h, hoffset]
  dsimp only
  split
  · rename_i hnone
    cases hnone.symm.trans hsplit
  · rename_i operands' rest' hsome
    obtain ⟨rfl, rfl⟩ := Prod.mk.inj (Option.some.inj (hsome.symm.trans hsplit))
    cases invocationsFrom (offset + 1 + operands'.length) rest' <;> rfl

/-- A step that goes well is over bytes that are all there. -/
theorem exists_of_invocationsFrom_cons
    (h : invocationsFrom offset (opcode :: bytes) = .ok found) :
    ∃ operands rest, bytes = operands ++ rest ∧
      operandCount offset opcode (operands ++ rest) = .ok operands.length := by
  rw [invocationsFrom] at h
  split at h
  · cases h
  · rename_i count hcount
    split at h
    · cases h
    · rename_i operands rest hsplit
      obtain ⟨rfl, rfl⟩ := Bytes.splitAt?_eq_some_iff.mp hsplit
      exact ⟨operands, rest, rfl, hcount⟩

/-- What stepping over bytes finds are the calls of complete instructions. -/
theorem exists_of_invocationsFrom (hlength : offset + bytes.length ≤ 0x100000000)
    (h : invocationsFrom offset bytes = .ok found) :
    ∃ instructions, IsBody offset instructions ∧ instructions.flatten = bytes ∧
      ListsCalls offset instructions found := by
  induction hn : bytes.length using Nat.strongRecOn generalizing offset bytes found with
  | _ n ih =>
    cases bytes with
    | nil =>
      rw [invocationsFrom] at h
      obtain rfl := Except.ok.inj h
      exact ⟨[], .nil offset, rfl, .nil offset⟩
    | cons opcode bytes =>
      obtain ⟨operands, rest, rfl, hcount⟩ := exists_of_invocationsFrom_cons h
      rw [invocationsFrom_cons_append opcode hcount] at h
      simp only [List.length_cons, List.length_append] at hlength hn
      have hinstruction := isInstruction_of_operandCount hcount
      have hoffset : offset < 0x100000000 := by omega
      cases hrest : invocationsFrom (offset + (opcode :: operands).length) rest with
      | error fault =>
        rw [hrest] at h
        cases h
      | ok later =>
        rw [hrest] at h
        obtain rfl := Except.ok.inj h
        obtain ⟨instructions, hbody, hflatten, hcalls⟩ :=
          ih rest.length (by omega) (by rw [List.length_cons]; omega) hrest rfl
        refine ⟨(opcode :: operands) :: instructions, .cons hinstruction hbody, ?_, ?_⟩
        · rw [List.flatten_cons, hflatten, List.cons_append]
        · cases hcall : invocation? offset opcode operands with
          | none => exact .other (hinstruction.head?_ne hcall) hcalls
          | some call => exact .call ((invocation?_eq_some_iff hoffset).mp hcall) hcalls

/-- The calls of complete instructions are found by stepping over their bytes. -/
theorem invocationsFrom_flatten (hbody : IsBody offset instructions)
    (hlength : offset + instructions.flatten.length ≤ 0x100000000)
    (hcalls : ListsCalls offset instructions found) :
    invocationsFrom offset instructions.flatten = .ok found := by
  induction hbody generalizing found with
  | nil offset =>
    cases hcalls
    rw [List.flatten_nil, invocationsFrom]
  | @cons offset instruction instructions hinstruction _ ih =>
    obtain ⟨opcode, operands, rfl⟩ := hinstruction.exists_cons
    rw [List.flatten_cons, List.length_append] at hlength
    have hoperands : operands.length < 0x100000000 := by
      rw [List.length_cons] at hlength
      omega
    have hoffset : offset < 0x100000000 := by
      rw [List.length_cons] at hlength
      omega
    rw [List.flatten_cons, List.cons_append, invocationsFrom_cons_append opcode
      (operandCount_append hinstruction hoperands _)]
    cases hcalls with
    | call h hrest =>
      rw [ih (by omega) hrest, (invocation?_eq_some_iff hoffset).mpr h]
      rfl
    | other h hrest =>
      rw [ih (by omega) hrest, invocation?_eq_none h]
      rfl

/-! ## One way to cut a body -/

/-- Instructions that start at the same place of a body are the same. -/
theorem IsInstruction.eq_of_append_eq {instruction' rest' : Bytes}
    (h : IsInstruction offset instruction) (h' : IsInstruction offset instruction')
    (heq : instruction ++ rest = instruction' ++ rest')
    (hlength : (instruction ++ rest).length ≤ 0x100000000) :
    instruction = instruction' ∧ rest = rest' := by
  obtain ⟨opcode, operands, rfl⟩ := h.exists_cons
  obtain ⟨opcode', operands', rfl⟩ := h'.exists_cons
  have hlength' := hlength
  rw [heq] at hlength'
  rw [List.cons_append, List.length_cons, List.length_append] at hlength hlength'
  rw [List.cons_append, List.cons_append] at heq
  obtain ⟨rfl, hoperands⟩ := List.cons.inj heq
  have hcount := operandCount_append h (by omega) rest
  rw [hoperands, operandCount_append h' (by omega) rest'] at hcount
  obtain ⟨rfl, rfl⟩ := List.append_inj hoperands (Except.ok.inj hcount).symm
  exact ⟨rfl, rfl⟩

/-- **A body is cut into complete instructions in one way only.** -/
theorem IsBody.eq_of_flatten_eq {instructions' : List Bytes} (h : IsBody offset instructions)
    (h' : IsBody offset instructions') (heq : instructions.flatten = instructions'.flatten)
    (hlength : instructions.flatten.length ≤ 0x100000000) : instructions = instructions' := by
  induction h generalizing instructions' with
  | nil offset =>
    cases h' with
    | nil => rfl
    | cons h' _ =>
      obtain ⟨opcode, operands, rfl⟩ := h'.exists_cons
      cases heq
  | @cons offset instruction instructions h _ ih =>
    cases h' with
    | nil =>
      obtain ⟨opcode, operands, rfl⟩ := h.exists_cons
      cases heq
    | @cons _ instruction' instructions' h' hbody' =>
      rw [List.flatten_cons, List.flatten_cons] at heq
      rw [List.flatten_cons] at hlength
      obtain ⟨rfl, hrest⟩ := h.eq_of_append_eq h' heq hlength
      rw [List.length_append] at hlength
      rw [ih hbody' hrest (by omega)]

/-! ## Where calls stand -/

/-- Every call that is listed is an instruction of the row. -/
theorem ListsCalls.exists_instruction {calls : List Invocation}
    (h : ListsCalls offset instructions calls) (hcall : call ∈ calls) :
    ∃ before instruction after, instructions = before ++ instruction :: after ∧
      IsCall (offset + before.flatten.length) instruction call := by
  induction h with
  | nil => cases hcall
  | @call offset instruction instructions first calls hfirst hrest ih =>
    rcases List.mem_cons.mp hcall with rfl | hcall
    · exact ⟨[], instruction, instructions, rfl, hfirst⟩
    · obtain ⟨before, later, after, rfl, hlater⟩ := ih hcall
      refine ⟨instruction :: before, later, after, rfl, ?_⟩
      rwa [List.flatten_cons, List.length_append, ← Nat.add_assoc]
  | @other offset instruction instructions calls _ hrest ih =>
    obtain ⟨before, later, after, rfl, hlater⟩ := ih hcall
    refine ⟨instruction :: before, later, after, rfl, ?_⟩
    rwa [List.flatten_cons, List.length_append, ← Nat.add_assoc]

/-! ## Whole bodies -/

/-- A whole body is stepped over exactly when it is cut into complete instructions, and what is
found are their calls. -/
theorem invocations_eq_ok_iff {body : Bytes} (hlength : body.length < 0x100000000) :
    invocations body = .ok found ↔
      ∃ instructions, Decomposes body instructions ∧ ListsCalls 0 instructions found := by
  have hzero : 0 + body.length ≤ 0x100000000 := by omega
  unfold invocations Decomposes
  constructor
  · intro h
    obtain ⟨instructions, hbody, hflatten, hcalls⟩ := exists_of_invocationsFrom hzero h
    exact ⟨instructions, ⟨hbody, hflatten⟩, hcalls⟩
  · rintro ⟨instructions, ⟨hbody, rfl⟩, hcalls⟩
    exact invocationsFrom_flatten hbody hzero hcalls

/-- Complete instructions have some list of calls. -/
theorem IsBody.exists_listsCalls (h : IsBody offset instructions)
    (hlength : offset + instructions.flatten.length ≤ 0x100000000) :
    ∃ calls, ListsCalls offset instructions calls := by
  induction h with
  | nil offset => exact ⟨[], .nil offset⟩
  | @cons offset instruction instructions h _ ih =>
    obtain ⟨opcode, operands, rfl⟩ := h.exists_cons
    rw [List.flatten_cons, List.length_append] at hlength
    obtain ⟨calls, hcalls⟩ := ih (by omega)
    have hoffset : offset < 0x100000000 := by
      rw [List.length_cons] at hlength
      omega
    cases hcall : invocation? offset opcode operands with
    | none => exact ⟨calls, .other (h.head?_ne hcall) hcalls⟩
    | some call => exact ⟨call :: calls, .call ((invocation?_eq_some_iff hoffset).mp hcall) hcalls⟩

/-- **Stepping over a body succeeds exactly when the body is a row of complete instructions.**
There is one way to cut it into them at most, and what is found are the calls among them: all of
them, in their order and each where it starts, so nothing inside of an instruction is taken for a
call. -/
theorem invocations_decompose (body : Bytes) (hlength : body.length < 0x100000000) :
    ((∃ found, invocations body = .ok found) ↔ ∃ instructions, Decomposes body instructions) ∧
    (∀ instructions instructions', Decomposes body instructions →
      Decomposes body instructions' → instructions = instructions') ∧
    (∀ found instructions, invocations body = .ok found → Decomposes body instructions →
      ListsCalls 0 instructions found ∧
      ∀ call ∈ found, ∃ before instruction after, instructions = before ++ instruction :: after ∧
        IsCall before.flatten.length instruction call) := by
  have hunique : ∀ instructions instructions', Decomposes body instructions →
      Decomposes body instructions' → instructions = instructions' := by
    rintro instructions instructions' ⟨h, rfl⟩ ⟨h', heq⟩
    exact h.eq_of_flatten_eq h' heq.symm (Nat.le_of_lt hlength)
  refine ⟨⟨?_, ?_⟩, hunique, ?_⟩
  · rintro ⟨found, h⟩
    obtain ⟨instructions, hbody, -⟩ := (invocations_eq_ok_iff hlength).mp h
    exact ⟨instructions, hbody⟩
  · rintro ⟨instructions, hbody⟩
    have hflatten : 0 + instructions.flatten.length ≤ 0x100000000 := by
      rw [hbody.2]
      omega
    obtain ⟨calls, hcalls⟩ := hbody.1.exists_listsCalls hflatten
    exact ⟨calls, (invocations_eq_ok_iff hlength).mpr ⟨instructions, hbody, hcalls⟩⟩
  · intro found instructions h hbody
    obtain ⟨others, hothers, hcalls⟩ := (invocations_eq_ok_iff hlength).mp h
    obtain rfl := hunique instructions others hbody hothers
    refine ⟨hcalls, fun call hcall => ?_⟩
    obtain ⟨before, instruction, after, hsplit, hinstruction⟩ := hcalls.exists_instruction hcall
    exact ⟨before, instruction, after, hsplit, by rwa [Nat.zero_add] at hinstruction⟩

/-- A switch with jumps for the numbers from -1 to 1 and a wide increment, all with bytes that look
like calls, and a call. -/
def switchWideCall : Bytes :=
  [0x03, 0xaa, 0x00, 0x00, 0xb6, 0xb6, 0xb6, 0xb6, 0xff, 0xff, 0xff, 0xff, 0x00, 0x00, 0x00, 0x01,
    0xb6, 0x00, 0x01, 0xb7, 0x00, 0x02, 0xb8, 0x00, 0x03, 0xb9, 0x00, 0x04, 0xc4, 0x84, 0xb8, 0x00,
    0x00, 0x01, 0xb8, 0x01, 0x02]

theorem invocations_decompose_switchWideCall :
    switchWideCall.length < 0x100000000 ∧ ∃ instructions, Decomposes switchWideCall instructions ∧
      ListsCalls 0 instructions [⟨.static, 34, 0x0102⟩] := by
  have hlength : switchWideCall.length < 0x100000000 := by decide
  have hfound : invocations switchWideCall = .ok [⟨.static, 34, 0x0102⟩] := by
    decide +kernel
  obtain ⟨hiff, -, hcalls⟩ := invocations_decompose switchWideCall hlength
  obtain ⟨instructions, hbody⟩ := hiff.mp ⟨_, hfound⟩
  exact ⟨hlength, instructions, hbody, (hcalls _ _ hfound hbody).1⟩

end AccessTransformer.Instruction
