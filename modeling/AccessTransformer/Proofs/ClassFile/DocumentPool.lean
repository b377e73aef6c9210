import AccessTransformer.ClassFile.DocumentCalls
import AccessTransformer.Proofs.ClassFile.Dissecting
import AccessTransformer.Proofs.ClassFile.Pool

/-!
# Dissected constant pools

Dissecting takes texts leniently and keeps every constant, skimming takes them strictly and keeps
few.  Of a pool that was written with texts in modified UTF-8, both get the same texts, classes and
method references.

* `Document.text_encode`: a text is taken for what it was written as.
* `KeepsSlots`: a dissected pool agrees with a written one on all that skimming keeps.
* `Document.exists_reads_constantPool`: dissecting a written pool gives such a pool.
* `Document.textAt_eq_ok`, `Document.classNameAt_eq_ok`, `Document.methodAt_eq_ok`: what its indices
  resolve to.
-/

namespace AccessTransformer.ClassFile

open ConstantPool

/-- Whether a dissected pool holds at every index what skimming would keep of the written one. -/
def KeepsSlots (pool : Array Constant) (constants : List Constant) : Prop :=
  pool.toList.map slotOf = (entries constants).map slotOf

namespace Document

open Dissect

/-! ## Constants -/

/-- **A text is taken for what it was written as**, whether or not its bytes are UTF-8. -/
theorem text_encode (value : String) : text (ModifiedUtf8.encode value) = .ok value := by
  unfold text
  cases hdecode : Utf8.decode? (ModifiedUtf8.encode value) with
  | none => rw [ModifiedUtf8.decode_encode]; rfl
  | some chars =>
    obtain rfl := ModifiedUtf8.eq_of_decode?_encode hdecode
    show Except.ok (String.ofList value.toList) = _
    rw [String.ofList_toList]

/-- A constant with one index behind its tag. -/
theorem reads_index {constant : UInt16 → Constant} (index : UInt16) :
    Reads (do return (constant (← u16), false)) (Bytes.ofWord index) (constant index, false) :=
  (reads_u16 index).bind_pure fun index => (constant index, false)

/-- A constant with two indices behind its tag. -/
theorem reads_indices {constant : UInt16 → UInt16 → Constant} (first second : UInt16) :
    Reads (do return (constant (← u16) (← u16), false))
      (Bytes.ofWord first ++ Bytes.ofWord second) (constant first second, false) :=
  (reads_u16 first).bind ((reads_u16 second).bind_pure fun second => (constant first second, false))

/-- **A constant is read behind its tag**, as one of which skimming would keep the same. -/
theorem exists_reads_constant {written : Constant} (h : written.Fits) :
    ∃ found, slotOf found = slotOf written ∧
      Reads (constant written.tag) written.fields (found, written.isWide) := by
  cases written with
  | empty => exact h.elim
  | utf8 value =>
    refine ⟨.utf8 value, rfl, (reads_u16_ofNat h).bind ?_⟩
    rw [UInt16.toNat_ofNat_of_lt' h]
    exact (reads_block _).bind_nil (Reads.lift_bind (text_encode value) (Reads.pure _))
  | integer value =>
    have hlt : (value % 0x100000000).toNat < 0x100000000 := by omega
    exact ⟨.integer (Int.bmod (value % 0x100000000).toNat 0x100000000), by simp only [slotOf],
      (reads_u32 hlt).bind_pure fun value : Nat =>
        (Constant.integer (Int.bmod value 0x100000000), false)⟩
  | float bits =>
    have hlength := Bytes.length_bigEndian 4 bits
    have hread := reads_block (Bytes.bigEndian 4 bits)
    rw [hlength] at hread
    exact ⟨.float (constant.number (Bytes.bigEndian 4 bits)), rfl,
      hread.bind_pure fun bytes => (Constant.float (constant.number bytes), false)⟩
  | long value =>
    obtain ⟨read, hread⟩ := exists_reads_u64 (value % 0x10000000000000000).toNat
    exact ⟨.long (Int.bmod read 0x10000000000000000), by simp only [slotOf],
      hread.bind_pure fun value : Nat =>
        (Constant.long (Int.bmod value 0x10000000000000000), true)⟩
  | double bits =>
    have hlength := Bytes.length_bigEndian 8 bits
    have hread := reads_block (Bytes.bigEndian 8 bits)
    rw [hlength] at hread
    exact ⟨.double (constant.number (Bytes.bigEndian 8 bits)), rfl,
      hread.bind_pure fun bytes => (Constant.double (constant.number bytes), true)⟩
  | classInfo name => exact ⟨_, rfl, reads_index name⟩
  | string text => exact ⟨_, rfl, reads_index text⟩
  | fieldRef owner member => exact ⟨_, rfl, reads_indices owner member⟩
  | methodRef owner member => exact ⟨_, rfl, reads_indices owner member⟩
  | interfaceMethodRef owner member => exact ⟨_, rfl, reads_indices owner member⟩
  | nameAndType name descriptor => exact ⟨_, rfl, reads_indices name descriptor⟩
  | methodHandle kind reference =>
    exact ⟨_, rfl, (reads_u8 kind).bind ((reads_u16 reference).bind_pure fun reference =>
      (Constant.methodHandle kind reference, false))⟩
  | methodType descriptor => exact ⟨_, rfl, reads_index descriptor⟩
  | dynamic bootstrap member => exact ⟨_, rfl, reads_indices bootstrap member⟩
  | invokeDynamic bootstrap member => exact ⟨_, rfl, reads_indices bootstrap member⟩
  | module name => exact ⟨_, rfl, reads_index name⟩
  | package name => exact ⟨_, rfl, reads_index name⟩

/-! ## Pools -/

/-- Written constants are read, from any index on. -/
theorem exists_reads_constants {written : List Constant}
    (h : ∀ constant ∈ written, constant.Fits) :
    ∃ found, found.map slotOf = (places written).map slotOf ∧
      Reads (constants (places written).length) (written.flatMap Constant.written) found := by
  induction written with
  | nil => exact ⟨[], rfl, Reads.pure []⟩
  | cons first written ih =>
    obtain ⟨hfits, hwritten⟩ := List.forall_mem_cons.mp h
    obtain ⟨found, hslot, hread⟩ := exists_reads_constant hfits
    obtain ⟨others, hslots, hrest⟩ := ih hwritten
    rw [List.flatMap_cons, places]
    show ∃ found, _ ∧
      Reads _ ([first.tag] ++ (first.fields ++ written.flatMap Constant.written)) found
    cases hwide : first.isWide with
    | true =>
      rw [hwide] at hread
      rw [if_pos rfl]
      refine ⟨found :: .empty :: others, by simp only [List.map_cons, hslot, hslots], ?_⟩
      exact (reads_u8 first.tag).bind (hread.bind (hrest.bind_pure _))
    | false =>
      rw [hwide] at hread
      rw [if_neg Bool.false_ne_true]
      refine ⟨found :: others, by simp only [List.map_cons, hslot, hslots], ?_⟩
      -- the last constant of a pool is read by a case of its own
      cases hplaces : places written with
      | nil =>
        rw [hplaces, List.map_nil, List.map_eq_nil_iff] at hslots
        rw [places_eq_nil_iff.mp hplaces, List.flatMap_nil, List.append_nil, hslots]
        exact (reads_u8 first.tag).bind (hread.bind_pure fun parts => [parts.1])
      | cons next others =>
        rw [hplaces] at hrest
        exact (reads_u8 first.tag).bind (hread.bind (hrest.bind_pure _))

/-- **A written pool is read**, and its slots are kept. -/
theorem exists_reads_constantPool {written : List Constant} (h : ConstantPool.Fits written) :
    ∃ pool, KeepsSlots pool written ∧ Reads constantPool (ConstantPool.written written) pool := by
  obtain ⟨found, hslots, hread⟩ := exists_reads_constants h.fits
  refine ⟨(Constant.empty :: found).toArray, ?_, (reads_u16_ofNat h.length).bind ?_⟩
  · rw [KeepsSlots, entries, List.map_cons, List.map_cons, hslots]
  · rw [UInt16.toNat_ofNat_of_lt' h.length]
    exact hread.bind_pure fun found => (Constant.empty :: found).toArray

/-! ## Resolving -/

variable {document : Document} {pool : Array Constant} {written : List Constant} {index : UInt16}
  {value : String}

/-- What a dissected pool has at an index, by what skimming keeps of it. -/
theorem exists_getElem?_pool (h : KeepsSlots pool written) {constant : Constant} {place : Nat}
    (hconstant : (entries written)[place]? = some constant) :
    ∃ found, pool[place]? = some found ∧ slotOf found = slotOf constant := by
  have hslot : (pool.toList.map slotOf)[place]? = some (slotOf constant) := by
    rw [h, List.getElem?_map, hconstant, Option.map_some]
  rw [List.getElem?_map, Option.map_eq_some_iff] at hslot
  obtain ⟨found, hfound, hslot⟩ := hslot
  exact ⟨found, by rwa [Array.getElem?_toList] at hfound, hslot⟩

theorem getElem?_pool_of_hasText (h : KeepsSlots pool written)
    (htext : HasText written index value) : pool[index.toNat]? = some (.utf8 value) := by
  obtain ⟨found, hfound, hslot⟩ := exists_getElem?_pool h htext
  rw [hfound, slotOf_eq_text_iff.mp hslot]

theorem textAt_eq_ok (h : KeepsSlots document.pool written) (htext : HasText written index value) :
    document.textAt index = .ok value := by
  rw [textAt, getElem?_pool_of_hasText h htext]

theorem classNameAt_eq_ok (h : KeepsSlots document.pool written)
    (hclass : HasClass written index value) : document.classNameAt index = .ok value := by
  obtain ⟨name, hname, htext⟩ := hclass
  obtain ⟨found, hfound, hslot⟩ := exists_getElem?_pool h hname
  rw [classNameAt, hfound, slotOf_eq_classInfo_iff.mp hslot]
  exact textAt_eq_ok h htext

/-- **The methods of a dissected pool are those that were written.** -/
theorem methodAt_eq_ok {owner name descriptor : String} (h : KeepsSlots document.pool written)
    (hmethod : HasMethod written index owner name descriptor) :
    document.methodAt index = .ok (owner, name, descriptor) := by
  obtain ⟨owned, typed, named, described, hmethod, htyped, howner, hname, hdescriptor⟩ := hmethod
  have hreference : document.methodRefAt index = .ok (owned, typed) := by
    obtain ⟨found, hfound, hslot⟩ : ∃ found, document.pool[index.toNat]? = some found ∧
        slotOf found = .methodRef owned typed := by
      rcases hmethod with hmethod | hmethod
      · exact exists_getElem?_pool h hmethod
      · exact exists_getElem?_pool h hmethod
    rcases slotOf_eq_methodRef_iff.mp hslot with rfl | rfl
    · rw [methodRefAt, hfound]
    · rw [methodRefAt, hfound]
  have htype : document.nameAndTypeAt typed = .ok (named, described) := by
    obtain ⟨found, hfound, hslot⟩ := exists_getElem?_pool h htyped
    rw [nameAndTypeAt, hfound, slotOf_eq_nameAndType_iff.mp hslot]
  rw [methodAt, hreference]
  simp only [bind, Except.bind, htype, classNameAt_eq_ok h howner, textAt_eq_ok h hname,
    textAt_eq_ok h hdescriptor, Outcome.during_ok]
  rfl

end Document

end AccessTransformer.ClassFile
