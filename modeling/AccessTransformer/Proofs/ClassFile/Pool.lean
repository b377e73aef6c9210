import AccessTransformer.ClassFile.Constant
import AccessTransformer.ClassFile.ConstantPool
import AccessTransformer.Proofs.ClassFile.ModifiedUtf8
import AccessTransformer.Proofs.ClassFile.Reading

/-!
# Written constant pools

A constant pool is written constant by constant, and what it holds at an index depends on how many
indices the constants before it take.  Skimming such a pool finds, index by index, what was written
there.

* `Constant.written`: the bytes that write a constant.
* `ConstantPool.entries`: the constants by index.
* `ConstantPool.reads_read`: a written pool is read back.
* `ConstantPool.text_eq_ok_iff`, `ConstantPool.className_eq_ok_iff`, `ConstantPool.method_eq_ok`:
  what its indices resolve to.
* `HasText.append`, `HasClass.append`, `HasMethod.append`: more constants change none of it.
-/

namespace AccessTransformer

/-! ## Constants -/

namespace Constant

/-- Whether a constant takes two indices. -/
def isWide : Constant → Bool
  | .long _ | .double _ => true
  | _ => false

/-- The tag of a constant.  The place that is left empty has none. -/
def tag : Constant → UInt8
  | .empty => 0
  | .utf8 _ => 1
  | .integer _ => 3
  | .float _ => 4
  | .long _ => 5
  | .double _ => 6
  | .classInfo _ => 7
  | .string _ => 8
  | .fieldRef _ _ => 9
  | .methodRef _ _ => 10
  | .interfaceMethodRef _ _ => 11
  | .nameAndType _ _ => 12
  | .methodHandle _ _ => 15
  | .methodType _ => 16
  | .dynamic _ _ => 17
  | .invokeDynamic _ _ => 18
  | .module _ => 19
  | .package _ => 20

/-- The bytes behind the tag of a constant. -/
def fields : Constant → Bytes
  | .empty => []
  | .utf8 value =>
    Bytes.bigEndian 2 (ModifiedUtf8.encode value).length ++ ModifiedUtf8.encode value
  | .integer value => Bytes.bigEndian 4 (value % 0x100000000).toNat
  | .float bits => Bytes.bigEndian 4 bits
  | .long value => Bytes.bigEndian 8 (value % 0x10000000000000000).toNat
  | .double bits => Bytes.bigEndian 8 bits
  | .classInfo index | .string index | .methodType index | .module index | .package index =>
    Bytes.ofWord index
  | .fieldRef first second | .methodRef first second | .interfaceMethodRef first second
  | .nameAndType first second | .dynamic first second | .invokeDynamic first second =>
    Bytes.ofWord first ++ Bytes.ofWord second
  | .methodHandle kind reference => kind :: Bytes.ofWord reference

/-- The bytes that write a constant. -/
def written (constant : Constant) : Bytes := constant.tag :: constant.fields

/-- Whether a constant can be written: it is one, and a text is not too long. -/
def Fits : Constant → Prop
  | .empty => False
  | .utf8 value => (ModifiedUtf8.encode value).length < 0x10000
  | _ => True

instance : (constant : Constant) → Decidable constant.Fits
  | .empty => inferInstanceAs (Decidable False)
  | .utf8 _ => inferInstanceAs (Decidable (_ < _))
  | .integer _ | .float _ | .long _ | .double _ | .classInfo _ | .string _ | .fieldRef _ _
  | .methodRef _ _ | .interfaceMethodRef _ _ | .nameAndType _ _ | .methodHandle _ _
  | .methodType _ | .dynamic _ _ | .invokeDynamic _ _ | .module _ | .package _ =>
    inferInstanceAs (Decidable True)

end Constant

namespace ClassFile

open Skim

/-- What skimming keeps of a constant. -/
def slotOf : Constant → Slot
  | .utf8 value => .text value
  | .classInfo name => .classInfo name
  | .methodRef owner nameAndType | .interfaceMethodRef owner nameAndType =>
    .methodRef owner nameAndType
  | .nameAndType name descriptor => .nameAndType name descriptor
  | _ => .other

theorem slotOf_eq_text_iff {constant : Constant} {value : String} :
    slotOf constant = .text value ↔ constant = .utf8 value := by
  cases constant <;> simp [slotOf]

theorem slotOf_eq_methodRef_iff {constant : Constant} {owner typed : UInt16} :
    slotOf constant = .methodRef owner typed ↔
      constant = .methodRef owner typed ∨ constant = .interfaceMethodRef owner typed := by
  cases constant <;> simp [slotOf]

theorem slotOf_eq_nameAndType_iff {constant : Constant} {name descriptor : UInt16} :
    slotOf constant = .nameAndType name descriptor ↔ constant = .nameAndType name descriptor := by
  cases constant <;> simp [slotOf]

theorem slotOf_eq_classInfo_iff {constant : Constant} {name : UInt16} :
    slotOf constant = .classInfo name ↔ constant = .classInfo name := by
  cases constant <;> simp [slotOf]

namespace ConstantPool

/-- Constants of which nothing is kept are passed over. -/
theorem reads_skipped {count : Nat} {bytes : Bytes} (hlength : bytes.length = count)
    (wide : Bool) :
    Reads (do Skim.skip count; return (Slot.other, wide)) bytes (Slot.other, wide) := by
  rw [← hlength]
  exact (Reads.skip bytes).bind_pure fun _ => (Slot.other, wide)

theorem reads_skipped_pair (first second : UInt16) :
    Reads (do Skim.skip 4; return (Slot.other, false))
      (Bytes.ofWord first ++ Bytes.ofWord second) (Slot.other, false) := by
  have hlength : (Bytes.ofWord first ++ Bytes.ofWord second).length = 4 := rfl
  exact reads_skipped hlength false

theorem reads_pair {slot : UInt16 → UInt16 → Slot} (first second : UInt16) :
    Reads (do return (slot (← Skim.u16) (← Skim.u16), false))
      (Bytes.ofWord first ++ Bytes.ofWord second)
      (slot first second, false) :=
  (reads_u16 first).bind ((reads_u16 second).bind_pure fun second => (slot first second, false))

/-- **A constant is read back behind its tag.** -/
theorem reads_constant {constant : Constant} (h : constant.Fits) (index : Nat) :
    Reads (ConstantPool.constant index constant.tag) constant.fields
      (slotOf constant, constant.isWide) := by
  cases constant with
  | empty => exact h.elim
  | utf8 value =>
    have hdecode : (Outcome.lift .text (ModifiedUtf8.decode (ModifiedUtf8.encode value))).during
        (.textConstant index) = .ok value := by
      rw [ModifiedUtf8.decode_encode]
      rfl
    refine (reads_u16_ofNat h).bind ?_
    rw [UInt16.toNat_ofNat_of_lt' h]
    exact (reads_take _).bind_nil (Reads.lift_bind hdecode (Reads.pure _))
  | integer value => exact reads_skipped (Bytes.length_bigEndian 4 _) false
  | float bits => exact reads_skipped (Bytes.length_bigEndian 4 _) false
  | long value => exact reads_skipped (Bytes.length_bigEndian 8 _) true
  | double bits => exact reads_skipped (Bytes.length_bigEndian 8 _) true
  | classInfo name => exact (reads_u16 name).bind_pure fun name => (Slot.classInfo name, false)
  | string text => exact reads_skipped (Bytes.length_bigEndian 2 _) false
  | fieldRef owner member => exact reads_skipped_pair owner member
  | methodRef owner member => exact reads_pair owner member
  | interfaceMethodRef owner member => exact reads_pair owner member
  | nameAndType name descriptor => exact reads_pair name descriptor
  | methodHandle kind reference =>
    have hlength : (kind :: Bytes.ofWord reference).length = 3 := rfl
    exact reads_skipped hlength false
  | methodType descriptor => exact reads_skipped (Bytes.length_bigEndian 2 _) false
  | dynamic bootstrap member => exact reads_skipped_pair bootstrap member
  | invokeDynamic bootstrap member => exact reads_skipped_pair bootstrap member
  | module name => exact reads_skipped (Bytes.length_bigEndian 2 _) false
  | package name => exact reads_skipped (Bytes.length_bigEndian 2 _) false

/-! ## Pools -/

/-- The constants from some index on, by index: a place is left empty behind each of those that
take two. -/
def places : List Constant → List Constant
  | [] => []
  | constant :: constants =>
    if constant.isWide then constant :: .empty :: places constants
    else constant :: places constants

theorem places_eq_nil_iff {constants : List Constant} :
    places constants = [] ↔ constants = [] := by
  cases constants with
  | nil => simp [places]
  | cons constant constants =>
    rw [places]
    split <;> simp

/-- The constants of a pool, by index.  Index zero is left empty. -/
def entries (constants : List Constant) : List Constant := .empty :: places constants

/-- The bytes that write a pool. -/
def written (constants : List Constant) : Bytes :=
  Bytes.bigEndian 2 (entries constants).length ++ constants.flatMap Constant.written

/-- Whether a pool can be written: every constant can, and a word can count the indices. -/
structure Fits (constants : List Constant) : Prop where
  fits : ∀ constant ∈ constants, constant.Fits
  length : (entries constants).length < 0x10000

instance (constants : List Constant) : Decidable (Fits constants) :=
  decidable_of_iff ((∀ constant ∈ constants, constant.Fits) ∧ (entries constants).length < 0x10000)
    ⟨fun h => ⟨h.1, h.2⟩, fun h => ⟨h.fits, h.length⟩⟩

/-- What skimming keeps of a pool. -/
def ofConstants (constants : List Constant) : ConstantPool :=
  ⟨((entries constants).map slotOf).toArray⟩

/-- **The slots of written constants are read back, from any index on.** -/
theorem reads_slotsFrom {constants : List Constant}
    (h : ∀ constant ∈ constants, constant.Fits) (index : Nat) :
    Reads (slotsFrom index (places constants).length) (constants.flatMap Constant.written)
      ((places constants).map slotOf) := by
  induction constants generalizing index with
  | nil => exact Reads.pure []
  | cons constant constants ih =>
    obtain ⟨hfits, hconstants⟩ := List.forall_mem_cons.mp h
    have hread := reads_constant hfits index
    rw [List.flatMap_cons, places]
    show Reads _ ([constant.tag] ++ (constant.fields ++ constants.flatMap Constant.written)) _
    cases hwide : constant.isWide with
    | true =>
      rw [hwide] at hread
      rw [if_pos rfl]
      exact (reads_u8 constant.tag).bind (hread.bind ((ih hconstants (index + 2)).bind_pure _))
    | false =>
      rw [hwide] at hread
      rw [if_neg Bool.false_ne_true]
      -- the last constant of a pool is read by a case of its own
      cases hplaces : places constants with
      | nil =>
        rw [places_eq_nil_iff.mp hplaces, List.flatMap_nil, List.append_nil]
        exact (reads_u8 constant.tag).bind (hread.bind_pure fun parts => [parts.1])
      | cons next others =>
        have hrest := ih hconstants (index + 1)
        rw [hplaces] at hrest
        exact (reads_u8 constant.tag).bind (hread.bind (hrest.bind_pure _))

/-- **A written pool is read back.** -/
theorem reads_read {constants : List Constant} (h : Fits constants) :
    Reads ConstantPool.read (written constants) (ofConstants constants) := by
  refine (reads_u16_ofNat h.length).bind ?_
  rw [UInt16.toNat_ofNat_of_lt' h.length]
  exact (reads_slotsFrom h.fits 1).bind_pure fun slots =>
    ConstantPool.mk (Slot.other :: slots).toArray

/-! ## Resolving -/

variable {constants : List Constant} {index : UInt16} {value : String}

/-- Whether a pool has a text at an index. -/
def HasText (constants : List Constant) (index : UInt16) (value : String) : Prop :=
  (entries constants)[index.toNat]? = some (.utf8 value)

/-- Whether a pool has a class at an index, and the text of the class's name. -/
def HasClass (constants : List Constant) (index : UInt16) (value : String) : Prop :=
  ∃ name, (entries constants)[index.toNat]? = some (.classInfo name) ∧ HasText constants name value

/-- Whether a pool has a method at an index, of a class or of an interface, and the texts of its
owner, its name and its descriptor. -/
def HasMethod (constants : List Constant) (index : UInt16) (owner name descriptor : String) :
    Prop :=
  ∃ owned typed named described : UInt16,
    ((entries constants)[index.toNat]? = some (.methodRef owned typed) ∨
      (entries constants)[index.toNat]? = some (.interfaceMethodRef owned typed)) ∧
    (entries constants)[typed.toNat]? = some (.nameAndType named described) ∧
    HasClass constants owned owner ∧ HasText constants named name ∧
    HasText constants described descriptor

theorem getElem?_slots (constants : List Constant) (index : Nat) :
    (ofConstants constants).slots[index]? = (entries constants)[index]?.map slotOf := by
  rw [ofConstants, List.getElem?_toArray, List.getElem?_map]

/-- **The texts of a pool are those that were written.** -/
theorem text_eq_ok_iff :
    (ofConstants constants).text index = .ok value ↔ HasText constants index value := by
  have hslot : (ofConstants constants).text index = .ok value ↔
      (ofConstants constants).slots[index.toNat]? = some (.text value) := by
    unfold text
    split
    · rename_i found hfound
      rw [hfound, Except.ok.injEq, Option.some.injEq, Slot.text.injEq]
    · rename_i hother
      exact iff_of_false (fun h => nomatch h) fun h => hother value h
  rw [hslot, getElem?_slots, HasText, Option.map_eq_some_iff]
  constructor
  · rintro ⟨constant, hconstant, hvalue⟩
    rw [hconstant, slotOf_eq_text_iff.mp hvalue]
  · exact fun h => ⟨_, h, rfl⟩

/-- **The class names of a pool are those that were written.** -/
theorem className_eq_ok_iff :
    (ofConstants constants).className index = .ok value ↔ HasClass constants index value := by
  unfold className HasClass
  rw [getElem?_slots]
  cases hconstant : (entries constants)[index.toNat]? with
  | none => simp [Outcome.fail]
  | some constant =>
    rw [Option.map_some]
    split
    · rename_i name hname
      rw [slotOf_eq_classInfo_iff.mp (Option.some.inj hname), text_eq_ok_iff]
      simp
    · rename_i hother
      refine iff_of_false (by simp [Outcome.fail]) ?_
      rintro ⟨name, hname, -⟩
      rw [Option.some.inj hname] at hother
      exact hother name rfl

/-- **The methods of a pool are those that were written.** -/
theorem method_eq_ok {owner name descriptor : String}
    (h : HasMethod constants index owner name descriptor) :
    (ofConstants constants).method index = .ok (owner, name, descriptor) := by
  obtain ⟨owned, typed, named, described, hmethod, htyped, howner, hname, hdescriptor⟩ := h
  have hslot : (ofConstants constants).slots[index.toNat]? = some (.methodRef owned typed) := by
    rw [getElem?_slots]
    rcases hmethod with hmethod | hmethod
    · rw [hmethod, Option.map_some, slotOf]
    · rw [hmethod, Option.map_some, slotOf]
  have hnamed : (ofConstants constants).nameAndType typed = .ok (named, described) := by
    rw [nameAndType, getElem?_slots, htyped]
    rfl
  rw [method, hslot]
  simp only [bind, Except.bind, hnamed, className_eq_ok_iff.mpr howner, text_eq_ok_iff.mpr hname,
    text_eq_ok_iff.mpr hdescriptor]
  rfl

/-! ## More constants -/

theorem places_append (constants more : List Constant) :
    places (constants ++ more) = places constants ++ places more := by
  induction constants with
  | nil => rfl
  | cons constant constants ih =>
    rw [List.cons_append, places, places, ih]
    split <;> rfl

/-- Constants behind the others change no index. -/
theorem getElem?_entries_append {constant : Constant} {place : Nat}
    (h : (entries constants)[place]? = some constant) (more : List Constant) :
    (entries (constants ++ more))[place]? = some constant := by
  have happend : entries (constants ++ more) = entries constants ++ places more := by
    rw [entries, entries, places_append, List.cons_append]
  rw [happend, List.getElem?_append_left (List.getElem?_eq_some_iff.mp h).1, h]

theorem HasText.append (h : HasText constants index value) (more : List Constant) :
    HasText (constants ++ more) index value :=
  getElem?_entries_append h more

theorem HasClass.append (h : HasClass constants index value) (more : List Constant) :
    HasClass (constants ++ more) index value := by
  obtain ⟨name, hname, htext⟩ := h
  exact ⟨name, getElem?_entries_append hname more, htext.append more⟩

theorem HasMethod.append {owner name descriptor : String}
    (h : HasMethod constants index owner name descriptor) (more : List Constant) :
    HasMethod (constants ++ more) index owner name descriptor := by
  obtain ⟨owned, typed, named, described, hmethod, htyped, howner, hname, hdescriptor⟩ := h
  refine ⟨owned, typed, named, described, ?_, getElem?_entries_append htyped more,
    howner.append more, hname.append more, hdescriptor.append more⟩
  exact hmethod.imp (getElem?_entries_append · more) (getElem?_entries_append · more)

/-! ## One text -/

/-- An index has at most one text. -/
theorem HasText.unique {value' : String} (h : HasText constants index value)
    (h' : HasText constants index value') : value = value' :=
  Constant.utf8.inj (Option.some.inj (h.symm.trans h'))

/-- An index has at most one class name. -/
theorem HasClass.unique {value' : String} (h : HasClass constants index value)
    (h' : HasClass constants index value') : value = value' :=
  Except.ok.inj ((className_eq_ok_iff.mpr h).symm.trans (className_eq_ok_iff.mpr h'))

end ConstantPool

end ClassFile

end AccessTransformer
