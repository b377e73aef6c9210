import AccessTransformer.Proofs.ClassFile.Layout
import AccessTransformer.Proofs.ClassFile.UnknownAttributes

/-!
# Calls that are withheld

Declarations are read without looking into the attributes of methods, and calls by looking into
those that are method bodies.  Both ways go over the same bytes.  They fail alike up to the last
field; from there on, where a class is read, its calls are found as well, unless an attribute of
some method withholds them.

* `ConstantPool.IsText`, `ConstantPool.IsClass`, `ConstantPool.IsMethod`: what slots resolve to.
* `HasInstructions`: the instructions in the body of an attribute.
* `WrittenAttribute.Withholds`: the ways in which an attribute keeps calls from being found.
* `WrittenAttribute.exists_look_eq_ok_iff`: there are no others.
* `read_agrees_skim`: reading a class and skimming its calls, for all bytes.
-/

namespace AccessTransformer.ClassFile

/-! ## Slots -/

namespace ConstantPool

variable (pool : ConstantPool) (index : UInt16)

/-- Whether a pool keeps a text at an index. -/
def IsText (value : String) : Prop := pool.slots[index.toNat]? = some (.text value)

instance (value : String) : Decidable (pool.IsText index value) :=
  inferInstanceAs (Decidable (_ = _))

/-- Whether a pool keeps a class at an index, and the text of its name. -/
def IsClass (value : String) : Prop :=
  ∃ name, pool.slots[index.toNat]? = some (.classInfo name) ∧ pool.IsText name value

/-- Whether a pool keeps a method at an index, with the texts of its owner, name and descriptor. -/
def IsMethod (owner name descriptor : String) : Prop :=
  ∃ owned typed named described,
    pool.slots[index.toNat]? = some (.methodRef owned typed) ∧
    pool.slots[typed.toNat]? = some (.nameAndType named described) ∧
    pool.IsClass owned owner ∧ pool.IsText named name ∧ pool.IsText described descriptor

variable {pool index} {value : String}

theorem text_eq_ok_iff_isText : pool.text index = .ok value ↔ pool.IsText index value := by
  unfold text IsText
  split
  · rename_i found hfound
    rw [hfound, Except.ok.injEq, Option.some.injEq, Slot.text.injEq]
  · rename_i hother
    exact iff_of_false (fun h => nomatch h) (hother value)

theorem className_eq_ok_iff_isClass :
    pool.className index = .ok value ↔ pool.IsClass index value := by
  unfold className IsClass
  split
  · rename_i name hname
    simp only [hname, Option.some.injEq, Slot.classInfo.injEq, exists_eq_left',
      text_eq_ok_iff_isText]
  · rename_i hother
    exact iff_of_false (fun h => nomatch h) fun ⟨name, hname, _⟩ => hother name hname

theorem nameAndType_eq_ok_iff {named described : UInt16} :
    pool.nameAndType index = .ok (named, described) ↔
      pool.slots[index.toNat]? = some (.nameAndType named described) := by
  unfold nameAndType
  split
  · rename_i name descriptor hfound
    rw [hfound, Except.ok.injEq, Option.some.injEq, Slot.nameAndType.injEq, Prod.mk.injEq]
  · rename_i hother
    exact iff_of_false (fun h => nomatch h) (hother named described)

theorem method_eq_ok_iff_isMethod {owner name descriptor : String} :
    pool.method index = .ok (owner, name, descriptor) ↔
      pool.IsMethod index owner name descriptor := by
  unfold method
  split
  · rename_i owned typed hmethod
    simp only [bind_eq_ok_iff, Prod.exists, className_eq_ok_iff_isClass, text_eq_ok_iff_isText,
      nameAndType_eq_ok_iff, IsMethod, hmethod, Option.some.injEq, Slot.methodRef.injEq]
    constructor
    · rintro ⟨named, described, htyped, owner', howner, name', hname, descriptor', hdescriptor, h⟩
      obtain ⟨rfl, rfl, rfl⟩ : owner' = owner ∧ name' = name ∧ descriptor' = descriptor := by
        simpa only [Prod.mk.injEq] using Except.ok.inj h
      exact ⟨owned, typed, named, described, ⟨rfl, rfl⟩, htyped, howner, hname, hdescriptor⟩
    · rintro ⟨_, _, named, described, ⟨rfl, rfl⟩, htyped, howner, hname, hdescriptor⟩
      exact ⟨named, described, htyped, owner, howner, name, hname, descriptor, hdescriptor, rfl⟩
  · rename_i hother
    exact iff_of_false (fun h => nomatch h) fun ⟨owned, typed, _, _, h, _⟩ => hother owned typed h

end ConstantPool

open Skim Instruction

/-! ## Attributes that withhold calls -/

/-- Whether the body of an attribute has the given instructions: behind two words and their length,
with anything behind them. -/
def HasInstructions (body code : Bytes) : Prop :=
  code.length < 0x100000000 ∧ ∃ words behind, words.length = 4 ∧
    body = words ++ (Bytes.bigEndian 4 code.length ++ (code ++ behind))

/-- Whether the calls of a method cannot be found because of one of its attributes. -/
inductive WrittenAttribute.Withholds (pool : ConstantPool) (attr : WrittenAttribute) : Prop where
  /-- Its name is no text. -/
  | nameless (h : ∀ name, ¬ pool.IsText attr.name name)
  /-- It is a method body that ends before its instructions do. -/
  | cutShort (hname : pool.IsText attr.name "Code") (h : ∀ code, ¬ HasInstructions attr.body code)
  /-- It is a method body that is no row of complete instructions. -/
  | garbled {code : Bytes} (hname : pool.IsText attr.name "Code")
      (hcode : HasInstructions attr.body code) (h : ∀ instructions, ¬ Decomposes code instructions)
  /-- It is a method body with a call of what is no method. -/
  | unresolved {code : Bytes} {instructions : List Bytes} {calls : List Invocation}
      {call : Invocation} (hname : pool.IsText attr.name "Code")
      (hcode : HasInstructions attr.body code) (hbody : Decomposes code instructions)
      (hcalls : ListsCalls 0 instructions calls) (hcall : call ∈ calls)
      (h : ∀ owner name descriptor, ¬ pool.IsMethod call.method owner name descriptor)

variable {pool : ConstantPool} {attr : WrittenAttribute} {body code bytes : Bytes} {step : Step}

/-- The instructions that are found in a body are those that it has. -/
theorem within_instructions_eq_ok_iff :
    instructions.within body = .ok code ↔ HasInstructions body code := by
  constructor
  · intro h
    obtain ⟨⟨found, behind⟩, hread, rfl⟩ := map_eq_ok_iff.mp h
    obtain ⟨⟨⟩, behind₁, hskip, h₁⟩ := exists_of_bind hread
    obtain ⟨length, behind₂, hlength, htake⟩ := exists_of_bind h₁
    obtain ⟨words, rfl, hwords⟩ := exists_of_skip hskip
    obtain ⟨hlt, rfl⟩ := eq_append_of_u32 hlength
    obtain ⟨rfl, rfl⟩ := eq_append_of_take htake
    exact ⟨hlt, words, behind, hwords, rfl⟩
  · rintro ⟨hlt, words, behind, hwords, rfl⟩
    have hskip : Reads (Skim.skip 4) words () := hwords ▸ Reads.skip words
    have hread : Reads instructions _ code :=
      hskip.bind ((reads_u32 hlt).bind (reads_take code))
    rw [← List.append_assoc (Bytes.bigEndian 4 _), ← List.append_assoc]
    exact hread.within_append behind

/-- A body has one row of instructions. -/
theorem HasInstructions.unique {code' : Bytes} (h : HasInstructions body code)
    (h' : HasInstructions body code') : code = code' :=
  Except.ok.inj ((within_instructions_eq_ok_iff.mpr h).symm.trans
    (within_instructions_eq_ok_iff.mpr h'))

/-- The call sites of instructions are found if these are complete and each call is of a method. -/
theorem exists_callSites_eq_ok_iff (hlength : code.length < 0x100000000) :
    (∃ sites, callSites pool.method code = .ok sites) ↔
      ∃ instructions calls, Decomposes code instructions ∧ ListsCalls 0 instructions calls ∧
        ∀ call ∈ calls, ∃ owner name descriptor,
          pool.IsMethod call.method owner name descriptor := by
  simp only [callSites, exists_bind_eq_ok_iff, exists_mapM_eq_ok_iff, Outcome.lift_eq_ok_iff,
    invocations_eq_ok_iff hlength, Outcome.during_eq_ok_iff, Prod.exists,
    ConstantPool.method_eq_ok_iff_isMethod, pure, Except.pure, Except.ok.injEq, exists_eq',
    and_true]
  constructor
  · rintro ⟨calls, ⟨instructions, h, h'⟩, hmethods⟩
    exact ⟨instructions, calls, h, h', hmethods⟩
  · rintro ⟨instructions, calls, h, h', hmethods⟩
    exact ⟨calls, ⟨instructions, h, h'⟩, hmethods⟩

/-- The calls of a method body are found if its instructions are there and complete, and each call
is of a method. -/
theorem exists_callsInAttribute_code_iff :
    (∃ found, callsInAttribute pool step ("Code", body) = .ok found) ↔
      ∃ code instructions calls, HasInstructions body code ∧ Decomposes code instructions ∧
        ListsCalls 0 instructions calls ∧ ∀ call ∈ calls, ∃ owner name descriptor,
          pool.IsMethod call.method owner name descriptor := by
  simp only [callsInAttribute, if_true, Outcome.during_eq_ok_iff, exists_bind_eq_ok_iff,
    within_instructions_eq_ok_iff]
  constructor
  · rintro ⟨code, hcode, sites, hsites, -⟩
    obtain ⟨instructions, calls, h⟩ := (exists_callSites_eq_ok_iff hcode.1).mp ⟨sites, hsites⟩
    exact ⟨code, instructions, calls, hcode, h⟩
  · rintro ⟨code, instructions, calls, hcode, h⟩
    obtain ⟨sites, hsites⟩ := (exists_callSites_eq_ok_iff hcode.1).mpr ⟨instructions, calls, h⟩
    exact ⟨code, hcode, sites, hsites, _, rfl⟩

namespace WrittenAttribute

/-- A method body whose calls can be found does not withhold them. -/
theorem Withholds.not_exists (h : attr.Withholds pool) (hname : pool.IsText attr.name "Code") :
    ¬ ∃ found, callsInAttribute pool step ("Code", attr.body) = .ok found := by
  rw [exists_callsInAttribute_code_iff]
  rintro ⟨code, instructions, calls, hcode, hbody, hcalls, hmethods⟩
  cases h with
  | nameless h => exact h _ hname
  | cutShort _ h => exact h code hcode
  | garbled _ hcode' h =>
    obtain rfl := hcode.unique hcode'
    exact h instructions hbody
  | @unresolved _ instructions' calls' call _ hcode' hbody' hcalls' hcall h =>
    obtain rfl := hcode.unique hcode'
    have hfound := (invocations_eq_ok_iff hcode.1).mpr ⟨instructions, hbody, hcalls⟩
    have hfound' := (invocations_eq_ok_iff hcode.1).mpr ⟨instructions', hbody', hcalls'⟩
    obtain rfl := Except.ok.inj (hfound.symm.trans hfound')
    obtain ⟨owner, name, descriptor, hmethod⟩ := hmethods call hcall
    exact h owner name descriptor hmethod

/-- The calls of a method body that does not withhold them can be found. -/
theorem exists_of_not_withholds (h : ¬ attr.Withholds pool)
    (hname : pool.IsText attr.name "Code") :
    ∃ found, callsInAttribute pool step ("Code", attr.body) = .ok found := by
  rw [exists_callsInAttribute_code_iff]
  obtain ⟨code, hcode⟩ : ∃ code, HasInstructions attr.body code := by
    by_contra hnone
    exact h (.cutShort hname (not_exists.mp hnone))
  obtain ⟨instructions, hbody⟩ : ∃ instructions, Decomposes code instructions := by
    by_contra hnone
    exact h (.garbled hname hcode (not_exists.mp hnone))
  have hlength : 0 + instructions.flatten.length ≤ 0x100000000 := by
    rw [hbody.2, Nat.zero_add]
    exact hcode.1.le
  obtain ⟨calls, hcalls⟩ := hbody.1.exists_listsCalls hlength
  refine ⟨code, instructions, calls, hcode, hbody, hcalls, fun call hcall => ?_⟩
  by_contra hnone
  exact h (.unresolved hname hcode hbody hcalls hcall fun owner name descriptor hmethod =>
    hnone ⟨owner, name, descriptor, hmethod⟩)

/-- **Looking at an attribute goes well exactly if it does not withhold calls.** -/
theorem exists_look_eq_ok_iff :
    (∃ found, attr.look pool step = .ok found) ↔ ¬ attr.Withholds pool := by
  simp only [look, exists_bind_eq_ok_iff, Outcome.during_eq_ok_iff,
    ConstantPool.text_eq_ok_iff_isText]
  constructor
  · rintro ⟨name, hname, hfound⟩ hwithholds
    by_cases hcode : name = "Code"
    · exact hwithholds.not_exists (hcode ▸ hname) (hcode ▸ hfound)
    · -- an attribute of another name withholds nothing
      have hother (h : pool.IsText attr.name "Code") : False :=
        hcode (Slot.text.inj (Option.some.inj (hname.symm.trans h)))
      cases hwithholds with
      | nameless h => exact h name hname
      | cutShort h _ => exact hother h
      | garbled h _ _ => exact hother h
      | unresolved h _ _ _ _ _ => exact hother h
  · intro h
    obtain ⟨name, hname⟩ : ∃ name, pool.IsText attr.name name := by
      by_contra hnone
      exact h (.nameless (not_exists.mp hnone))
    refine ⟨name, hname, ?_⟩
    by_cases hcode : name = "Code"
    · subst hcode
      exact exists_of_not_withholds h hname
    · exact ⟨none, if_neg hcode⟩

end WrittenAttribute

/-! ## Methods -/

namespace WrittenMember

variable {member : WrittenMember} {declared : Member} {made : MethodCalls}

/-- Whether a pool keeps the given name and descriptor for a field or method. -/
def IsNamed (pool : ConstantPool) (member : WrittenMember) (names : String × String) : Prop :=
  pool.IsText member.name names.1 ∧ pool.IsText member.descriptor names.2

theorem IsNamed.unique {names names' : String × String} (h : member.IsNamed pool names)
    (h' : member.IsNamed pool names') : names = names' :=
  Prod.ext (Slot.text.inj (Option.some.inj (h.1.symm.trans h'.1)))
    (Slot.text.inj (Option.some.inj (h.2.symm.trans h'.2)))

theorem isNamed_of_resolve (h : member.resolve pool = .ok declared) :
    member.IsNamed pool (declared.name, declared.descriptor) := by
  simp only [resolve, bind_eq_ok_iff, Outcome.during_eq_ok_iff,
    ConstantPool.text_eq_ok_iff_isText] at h
  obtain ⟨name, hname, descriptor, hdescriptor, h⟩ := h
  obtain rfl := Except.ok.inj h
  exact ⟨hname, hdescriptor⟩

theorem isNamed_of_resolveCalls (h : member.resolveCalls pool = .ok made) :
    member.IsNamed pool (made.name, made.descriptor) := by
  simp only [resolveCalls, bind_eq_ok_iff, Outcome.during_eq_ok_iff,
    ConstantPool.text_eq_ok_iff_isText] at h
  obtain ⟨name, hname, descriptor, hdescriptor, found, -, h⟩ := h
  obtain rfl := Except.ok.inj h
  exact ⟨hname, hdescriptor⟩

/-- The calls of a method with a name are found exactly if no attribute withholds them. -/
theorem exists_resolveCalls_eq_ok_iff {names : String × String} (h : member.IsNamed pool names) :
    (∃ made, member.resolveCalls pool = .ok made) ↔
      ∀ attr ∈ member.attributes, ¬ attr.Withholds pool := by
  have hname := ConstantPool.text_eq_ok_iff_isText.mpr h.1
  have hdescriptor := ConstantPool.text_eq_ok_iff_isText.mpr h.2
  simp only [resolveCalls, exists_bind_eq_ok_iff, Outcome.during_eq_ok_iff]
  constructor
  · rintro ⟨name, -, descriptor, -, found, hfound, -⟩ attr hmem
    exact WrittenAttribute.exists_look_eq_ok_iff.mp <|
      exists_mapM_eq_ok_iff.mp ⟨found, hfound⟩ attr hmem
  · intro hnone
    have hlook : ∀ attr ∈ member.attributes,
        ∃ found, attr.look pool (.body names.1 names.2) = .ok found := fun attr hmem =>
      WrittenAttribute.exists_look_eq_ok_iff.mpr (hnone attr hmem)
    obtain ⟨found, hfound⟩ := exists_mapM_eq_ok_iff.mpr hlook
    exact ⟨names.1, hname, names.2, hdescriptor, found, hfound, _, rfl⟩

end WrittenMember

/-! ## Both ways over the same bytes -/

/-- The fields of a class, with all that stands in front of them. -/
def upToFields : Skim (List Member) := do
  let header ← header
  members header.pool .fields

/-- Two readers in a row fail where the first one does, or the second one behind it. -/
theorem Skim.within_bind_eq_error_iff {α β : Type} {first : Skim α} {next : α → Skim β}
    {failure : Failure} : (first >>= next).within bytes = .error failure ↔
      first.within bytes = .error failure ∨
      ∃ a behind, first bytes = .ok (a, behind) ∧ (next a).within behind = .error failure := by
  have hbind : (first >>= next) bytes = first bytes >>= fun parts => next parts.1 parts.2 := rfl
  simp only [within, hbind]
  cases first bytes with
  | error other => simp [bind, Except.bind, Except.map]
  | ok parts =>
    obtain ⟨a, behind⟩ := parts
    simp [bind, Except.bind, Except.map]

/-- Where two readers in a row fail, so do they with anything behind them. -/
theorem Skim.within_bind_bind_eq_error {α β γ : Type} {first : Skim α} {second : α → Skim β}
    {failure : Failure} (next : α → β → Skim γ)
    (h : (first >>= second).within bytes = .error failure) :
    (first >>= fun a => second a >>= next a).within bytes = .error failure := by
  simp only [within_bind_eq_error_iff] at h ⊢
  exact h.imp_right fun ⟨a, behind, hfirst, hsecond⟩ => ⟨a, behind, hfirst, .inl hsecond⟩

namespace Layout

variable (layout : Layout bytes) {declaration : ClassDeclaration} {calls : ClassCalls}

/-- Where a class is read, what skimming finds is told by its methods. -/
theorem skim_eq_ok_iff (h : ClassDeclaration.read bytes = .ok declaration) :
    ClassCalls.skim bytes = .ok calls ↔ calls.name = declaration.name ∧
      layout.methods.mapM (WrittenMember.resolveCalls layout.header.pool) = .ok calls.methods := by
  obtain ⟨hname, hfields, -⟩ := layout.members_eq_ok h
  rw [hname]
  refine ⟨layout.resolveCalls_eq_ok, fun ⟨hname, hmethods⟩ => ?_⟩
  rw [layout.skim_eq, hfields]
  exact bind_eq_ok_iff.mpr ⟨_, rfl, bind_eq_ok_iff.mpr
    ⟨calls.methods, hmethods, congrArg Except.ok (by rw [← hname])⟩⟩

/-- **Where a class is read, its calls are found exactly if no attribute withholds them.** -/
theorem exists_skim_eq_ok_iff (h : ClassDeclaration.read bytes = .ok declaration) :
    (∃ calls, ClassCalls.skim bytes = .ok calls) ↔
      ∀ method ∈ layout.methods, ∀ attr ∈ method.attributes,
        ¬ attr.Withholds layout.header.pool := by
  obtain ⟨-, -, hmethods⟩ := layout.members_eq_ok h
  have hnamed : ∀ method ∈ layout.methods, ∃ names, method.IsNamed layout.header.pool names := by
    intro method hmem
    obtain ⟨declared, hdeclared⟩ := exists_mapM_eq_ok_iff.mp ⟨_, hmethods⟩ method hmem
    exact ⟨_, WrittenMember.isNamed_of_resolve hdeclared⟩
  have hskim : (∃ calls, ClassCalls.skim bytes = .ok calls) ↔ ∃ made,
      layout.methods.mapM (WrittenMember.resolveCalls layout.header.pool) = .ok made := by
    simp only [layout.skim_eq_ok_iff h]
    exact ⟨fun ⟨calls, _, hmade⟩ => ⟨calls.methods, hmade⟩,
      fun ⟨made, hmade⟩ => ⟨⟨declaration.name, made⟩, rfl, hmade⟩⟩
  rw [hskim, exists_mapM_eq_ok_iff]
  refine forall₂_congr fun method hmem => ?_
  obtain ⟨names, hnames⟩ := hnamed method hmem
  exact WrittenMember.exists_resolveCalls_eq_ok_iff hnames

end Layout

/-- Methods have the same names whether they are read with their calls or without. -/
theorem names_eq {declaration : ClassDeclaration} {calls : ClassCalls}
    (h : ClassDeclaration.read bytes = .ok declaration) (h' : ClassCalls.skim bytes = .ok calls) :
    calls.methods.map (fun method => (method.name, method.descriptor)) =
      declaration.methods.map fun method => (method.name, method.descriptor) := by
  obtain ⟨layout⟩ := Layout.exists_of_read h
  obtain ⟨-, -, hdeclared⟩ := layout.members_eq_ok h
  obtain ⟨-, hmade⟩ := (layout.skim_eq_ok_iff h).mp h'
  have hnames := List.forall₂_map_right_iff.mpr <|
    (mapM_eq_ok_iff.mp hmade).imp fun _ _ => WrittenMember.isNamed_of_resolveCalls
  have hnames' := List.forall₂_map_right_iff.mpr <|
    (mapM_eq_ok_iff.mp hdeclared).imp fun _ _ => WrittenMember.isNamed_of_resolve
  refine eq_of_forall₂ ?_ hnames hnames'
  exact fun method names names' => WrittenMember.IsNamed.unique

/-- **Reading a class and skimming its calls agree.**  Where both go well they find one class name
and the same methods in the same order, and up to the last field they fail alike.  Where a class is
read, its bytes have a layout, and in any of their layouts what keeps its calls from being found is
an attribute of a method. -/
theorem read_agrees_skim (bytes : Bytes) :
    (∀ declaration calls, ClassDeclaration.read bytes = .ok declaration →
      ClassCalls.skim bytes = .ok calls → calls.name = declaration.name ∧
      calls.methods.map (fun method => (method.name, method.descriptor)) =
        declaration.methods.map fun method => (method.name, method.descriptor)) ∧
    (∀ failure, upToFields.within bytes = .error failure →
      ClassDeclaration.read bytes = .error failure ∧ ClassCalls.skim bytes = .error failure) ∧
    ∀ declaration, ClassDeclaration.read bytes = .ok declaration →
      Nonempty (Layout bytes) ∧ ∀ layout : Layout bytes,
        (∃ failure, ClassCalls.skim bytes = .error failure) ↔
          ∃ method ∈ layout.methods, ∃ attr ∈ method.attributes,
            attr.Withholds layout.header.pool := by
  refine ⟨fun declaration calls h h' => ?_, fun failure h => ?_, fun declaration h => ?_⟩
  · obtain ⟨layout⟩ := Layout.exists_of_read h
    exact ⟨((layout.skim_eq_ok_iff h).mp h').1, names_eq h h'⟩
  · exact ⟨within_bind_bind_eq_error _ h, within_bind_bind_eq_error _ h⟩
  · refine ⟨Layout.exists_of_read h, fun layout => ?_⟩
    have hfails : (∃ failure, ClassCalls.skim bytes = .error failure) ↔
        ¬ ∃ calls, ClassCalls.skim bytes = .ok calls := by
      cases ClassCalls.skim bytes <;> simp
    rw [hfails, layout.exists_skim_eq_ok_iff h]
    simp only [not_forall, not_not, exists_prop]

/-- A class with a field, and with a method whose body ends inside of a call. -/
def cutInCall : WrittenClass where
  minor := 0
  major := 52
  constants := [.utf8 "A", .classInfo 1, .utf8 "Code"]
  access := 0x0021
  this := 2
  super := 0
  interfaces := []
  fields := [⟨0x0002, 1, 3, [⟨3, [0xff]⟩]⟩]
  methods := [⟨0x0001, 3, 1, []⟩,
    ⟨0x0001, 1, 3, [⟨1, [0xff]⟩,
      ⟨3, [0x00, 0x00, 0x00, 0x00, 0x00, 0x00, 0x00, 0x02, 0xb6, 0x00]⟩]⟩]
  attributes := []

/-- The same class without the second method. -/
def uncut : WrittenClass := { cutInCall with methods := [⟨0x0001, 3, 1, []⟩] }

/-- The class is read, and its calls are withheld; without the method, both are found; and cut off
in its pool, the file is refused for one reason. -/
theorem read_agrees_skim_cutInCall :
    (∃ declaration calls, ClassDeclaration.read uncut.written = .ok declaration ∧
      ClassCalls.skim uncut.written = .ok calls ∧ calls.name = declaration.name ∧
      calls.methods.map (fun method => (method.name, method.descriptor)) =
        declaration.methods.map fun method => (method.name, method.descriptor)) ∧
    (∃ failure, upToFields.within (cutInCall.written.take 20) = .error failure ∧
      ClassDeclaration.read (cutInCall.written.take 20) = .error failure ∧
      ClassCalls.skim (cutInCall.written.take 20) = .error failure) ∧
    ∃ declaration, ClassDeclaration.read cutInCall.written = .ok declaration ∧
      ∃ layout : Layout cutInCall.written, ∃ method ∈ layout.methods, ∃ attr ∈ method.attributes,
        attr.Withholds layout.header.pool := by
  have hboth : ClassDeclaration.read uncut.written = .ok
        ⟨"A", 0x0021, none, [], [⟨0x0002, "A", "Code"⟩], [⟨0x0001, "Code", "A"⟩]⟩ ∧
      ClassCalls.skim uncut.written = .ok ⟨"A", [⟨"Code", "A", []⟩]⟩ := by
    decide +kernel
  have hpool : upToFields.within (cutInCall.written.take 20)
      = .error ⟨[.readPool], .classFile .outOfBounds⟩ := by
    decide +kernel
  have hread : ClassDeclaration.read cutInCall.written = .ok ⟨"A", 0x0021, none, [],
      [⟨0x0002, "A", "Code"⟩], [⟨0x0001, "Code", "A"⟩, ⟨0x0001, "A", "Code"⟩]⟩ := by
    decide +kernel
  have hskim : ClassCalls.skim cutInCall.written
      = .error ⟨[.body "A" "Code"], .instruction (.runsOver 0)⟩ := by
    decide +kernel
  obtain ⟨hagree, -, -⟩ := read_agrees_skim uncut.written
  obtain ⟨-, hfail, -⟩ := read_agrees_skim (cutInCall.written.take 20)
  obtain ⟨-, -, hwithheld⟩ := read_agrees_skim cutInCall.written
  obtain ⟨⟨layout⟩, hlayout⟩ := hwithheld _ hread
  exact ⟨⟨_, _, hboth.1, hboth.2, hagree _ _ hboth.1 hboth.2⟩, ⟨_, hpool, hfail _ hpool⟩,
    ⟨_, hread, layout, (hlayout layout).mp ⟨_, hskim⟩⟩⟩

end AccessTransformer.ClassFile
