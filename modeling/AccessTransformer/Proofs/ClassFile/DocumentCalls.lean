import AccessTransformer.Proofs.ClassFile.DocumentPool
import AccessTransformer.Proofs.ClassFile.Makes

/-!
# Dissecting calls

A class file that has no attributes but method bodies can be dissected, and the calls that are found
are those that it makes.

* `Attribute.IsRead`: what is made of an attribute, wherever it stands.
* `Attribute.isRead_code`: a method body is dissected.
* `Document.exists_reads_method`, `Document.exists_reads_header`: the parts of the file.
* `Document.exists_read_of_makes`: dissecting the file gives the calls that it makes.
-/

namespace AccessTransformer.ClassFile

open ConstantPool Dissect

variable {pool : Array Constant} {constants : List Constant} {attr : WrittenAttribute}

namespace Attribute

/-! ## Attributes -/

/-- The name of an attribute. -/
theorem name_eq_ok {name : String} (hpool : KeepsSlots pool constants)
    (hname : HasText constants attr.name name) : Attribute.name pool attr.name = .ok name := by
  rw [Attribute.name, Document.getElem?_pool_of_hasText hpool hname]

/-- Whether a reader of attributes reads one, at all levels that bytes are left for. -/
def IsRead (pool : Array Constant) (attr : WrittenAttribute) (found : Attribute) : Prop :=
  ∀ levels, Reads (nested pool (levels + 1)) attr.written found

/-- Behind the count of a list, bytes are left for at least one level. -/
theorem exists_list_eq (pool : Array Constant) (attrs : List WrittenAttribute) (position : Nat)
    (rest : Bytes) :
    ∃ levels, list pool ⟨position, Bytes.ofList WrittenAttribute.written attrs ++ rest⟩
      = counted16 (nested pool (levels + 1))
        ⟨position, Bytes.ofList WrittenAttribute.written attrs ++ rest⟩ :=
  ⟨_, rfl⟩

/-- Attributes are read one by one. -/
theorem reads_list {attrs : List WrittenAttribute} {found : List Attribute}
    (h : List.Forall₂ (IsRead pool) attrs found) (hlength : attrs.length < 0x10000) :
    Reads (list pool) (Bytes.ofList WrittenAttribute.written attrs) found := by
  intro position rest
  obtain ⟨levels, hlevels⟩ := exists_list_eq pool attrs position rest
  rw [hlevels]
  exact Reads.counted16 (h.imp fun _ _ hread => hread levels) hlength position rest

/-- The instructions of a method body are found in it. -/
theorem isRead_code {code : WrittenCode} (hpool : KeepsSlots pool constants) (hfits : attr.Fits)
    (hcode : attr.IsCode constants code) : IsRead pool attr (.code code.instructions) := by
  intro levels
  have hlength : code.instructions.length < 0x100000000 :=
    Nat.lt_of_le_of_lt code.length_instructions_le (hcode.body ▸ hfits)
  have hhandlers : List.Forall₂ (fun (handler : WrittenHandler) value =>
      Reads (words 4) handler.written value) code.handlers (code.handlers.map fun _ => ()) := by
    rw [List.forall₂_map_right_iff, List.forall₂_same]
    exact fun handler _ =>
      reads_words [handler.start, handler.stop, handler.target, handler.caught]
  refine (reads_u16 attr.name).bind (Reads.lift_bind (name_eq_ok hpool hcode.name) ?_)
  refine (reads_u32 hfits).bind ?_
  rw [if_pos rfl, hcode.body, WrittenCode.written]
  refine (reads_words [code.maxStack, code.maxLocals]).bind ((reads_u32 hlength).bind ?_)
  refine (reads_block code.instructions).bind ((Reads.counted16 hhandlers hcode.handlers).bind ?_)
  exact (Reads.counted16 List.Forall₂.nil (by decide)).bind_pure _

/-- The attributes of a method are read, and the calls in its body are those that it makes. -/
theorem exists_isRead_of_bodyMakes {attrs : List WrittenAttribute} {sites : List CallSite}
    (hpool : KeepsSlots pool constants) (hfits : ∀ attr ∈ attrs, attr.Fits)
    (h : BodyMakes constants attrs sites) :
    ∃ found, List.Forall₂ (IsRead pool) attrs found ∧
      ((found.findSome? code? = none ∧ sites = []) ∨
        ∃ body, found.findSome? code? = some body ∧ body.length < 0x100000000 ∧
          MakesCalls constants body sites) := by
  cases h with
  | none => exact ⟨[], .nil, Or.inl ⟨rfl, rfl⟩⟩
  | @code attr code _ hcode h =>
    have hfit := hfits attr (List.mem_singleton_self attr)
    have hlength : code.instructions.length < 0x100000000 :=
      Nat.lt_of_le_of_lt code.length_instructions_le (hcode.body ▸ hfit)
    exact ⟨[.code code.instructions], .cons (isRead_code hpool hfit hcode) .nil,
      Or.inr ⟨code.instructions, rfl, hlength, h⟩⟩

end Attribute

namespace Document

/-! ## Members -/

/-- A field or method is dissected as its attributes are in their list. -/
theorem reads_member_of_reads_list {written : WrittenMember} {attrs : List Attribute}
    (h : Reads (Attribute.list pool) (Bytes.ofList WrittenAttribute.written written.attributes)
      attrs) :
    Reads (member pool) written.written
      ⟨written.name, written.descriptor, attrs.findSome? Attribute.code?⟩ := by
  refine (reads_words [written.access]).bind ((reads_u16 written.name).bind ?_)
  exact (reads_u16 written.descriptor).bind (h.bind_pure _)

/-- A field or method is dissected if its attributes are. -/
theorem reads_member {written : WrittenMember} {attrs : List Attribute} (hfits : written.Fits)
    (h : List.Forall₂ (Attribute.IsRead pool) written.attributes attrs) :
    Reads (member pool) written.written
      ⟨written.name, written.descriptor, attrs.findSome? Attribute.code?⟩ :=
  reads_member_of_reads_list (Attribute.reads_list h hfits.length)

/-- **A method is dissected, and its calls are found** in every document with its pool. -/
theorem exists_reads_method {written : WrittenMember} {made : MethodCalls}
    (hpool : KeepsSlots pool constants) (hfits : written.Fits) (h : written.Makes constants made) :
    ∃ found, Reads (member pool) written.written found ∧
      ∀ document : Document, document.pool = pool → document.methodCalls found = .ok made := by
  obtain ⟨attrs, hread, hbody⟩ :=
    Attribute.exists_isRead_of_bodyMakes hpool hfits.attributes h.calls
  refine ⟨_, reads_member hfits hread, fun document hdocument => ?_⟩
  subst hdocument
  have hname := textAt_eq_ok hpool h.name
  have hdescriptor := textAt_eq_ok hpool h.descriptor
  rw [methodCalls]
  simp only [bind, Except.bind, hname, hdescriptor, Outcome.during_ok]
  rcases hbody with ⟨hnone, hcalls⟩ | ⟨body, hsome, hlength, hcalls⟩
  · rw [hnone, ← hcalls]
    rfl
  · have hsites := callSites_eq_ok hlength (fun _ _ _ _ => methodAt_eq_ok hpool) hcalls
    simp only [hsome, hsites, Outcome.during_ok]
    rfl

/-- Methods are dissected one by one. -/
theorem exists_reads_methods {written : List WrittenMember} {made : List MethodCalls}
    (hpool : KeepsSlots pool constants) (hlength : written.length < 0x10000)
    (hfits : ∀ method ∈ written, method.Fits)
    (h : List.Forall₂ (WrittenMember.Makes constants) written made) :
    ∃ found, Reads (counted16 (member pool)) (Bytes.ofList WrittenMember.written written) found ∧
      ∀ document : Document, document.pool = pool →
        found.mapM document.methodCalls = .ok made := by
  obtain ⟨found, hreads, hfound⟩ : ∃ found,
      List.Forall₂ (fun (written : WrittenMember) found => Reads (member pool) written.written found)
        written found ∧
      List.Forall₂ (fun found made => ∀ document : Document, document.pool = pool →
        document.methodCalls found = .ok made) found made := by
    clear hlength
    induction h with
    | nil => exact ⟨[], .nil, .nil⟩
    | cons hfirst _ ih =>
      obtain ⟨hfit, hfits⟩ := List.forall_mem_cons.mp hfits
      obtain ⟨first, hread, hcalls⟩ := exists_reads_method hpool hfit hfirst
      obtain ⟨others, hreads, hothers⟩ := ih hfits
      exact ⟨first :: others, .cons hread hreads, .cons hcalls hothers⟩
  refine ⟨found, Reads.counted16 hreads hlength, fun document hdocument => ?_⟩
  exact mapM_eq_ok (hfound.imp fun _ _ h => h document hdocument)

/-- Fields or methods are dissected if all of their attributes are. -/
theorem exists_reads_members {written : List WrittenMember} (hlength : written.length < 0x10000)
    (hfits : ∀ member ∈ written, member.Fits)
    (h : ∀ member ∈ written, ∀ attr ∈ member.attributes, ∃ found, Attribute.IsRead pool attr found) :
    ∃ found, Reads (counted16 (member pool)) (Bytes.ofList WrittenMember.written written)
      found := by
  obtain ⟨found, hfound⟩ : ∃ found, List.Forall₂
      (fun (written : WrittenMember) found => Reads (member pool) written.written found)
      written found := by
    refine exists_forall₂ fun member hmem => ?_
    obtain ⟨attrs, hattrs⟩ := exists_forall₂ (h member hmem)
    exact ⟨_, reads_member (hfits member hmem) hattrs⟩
  exact ⟨found, Reads.counted16 hfound hlength⟩

/-! ## The header -/

/-- **What stands before the members is dissected.** -/
theorem exists_reads_header {file : WrittenClass} (hfits : file.Fits) :
    ∃ pool, KeepsSlots pool file.constants ∧ Reads header file.writtenHeader (pool, file.this) := by
  obtain ⟨pool, hpool, hread⟩ := exists_reads_constantPool hfits.constants
  have hinterfaces : List.Forall₂ (fun (index : UInt16) value =>
      Reads u16 (Bytes.ofWord index) value) file.interfaces file.interfaces :=
    List.forall₂_same.mpr fun index _ => reads_u16 index
  have hmagic : ¬magic ≠ 0xCAFEBABE := not_not_intro rfl
  refine ⟨pool, hpool, (reads_u32 (by decide)).bind ?_⟩
  rw [if_neg hmagic]
  refine (reads_words [file.minor, file.major]).bind (hread.bind ?_)
  refine (reads_words [file.access]).bind ((reads_u16 file.this).bind ?_)
  exact (reads_words [file.super]).bind
    ((Reads.counted16 hinterfaces hfits.interfaces).bind_pure fun _ => (pool, file.this))

/-! ## The whole file -/

/-- A file that is dissected to its end is dissected. -/
theorem read_eq_ok {bytes : Bytes} {document : Document} (h : Reads upToEnd bytes document) :
    read bytes = .ok document := by
  have hread := h 0 []
  rw [List.append_nil] at hread
  rw [read, Place.start, hread]
  rfl

/-- **Dissecting a class file with no attributes but method bodies succeeds**, and gives the calls
that it makes. -/
theorem exists_read_of_makes {file : WrittenClass} {made : ClassCalls} (hplain : file.IsPlain)
    (h : file.Makes made) :
    ∃ document, read file.written = .ok document ∧ document.classCalls = .ok made := by
  have hfits := hplain.fits
  obtain ⟨pool, hpool, hheader⟩ := exists_reads_header hfits
  obtain ⟨fields, hfields⟩ :=
    exists_reads_members hfits.fields_length hfits.fields fun field hmem attr hattr =>
      absurd (hplain.fields field hmem ▸ hattr) List.not_mem_nil
  obtain ⟨methods, hmethods, hcalls⟩ :=
    exists_reads_methods hpool hfits.methods_length hfits.methods h.methods
  have hattributes : Reads (Attribute.list pool)
      (Bytes.ofList WrittenClassAttribute.written file.attributes) [] := by
    rw [hplain.attributes, WrittenClassAttribute.ofList_written]
    exact Attribute.reads_list .nil (by decide)
  refine ⟨⟨pool, file.this, methods⟩, read_eq_ok ?_, ?_⟩
  · exact hheader.bind (hfields.bind (hmethods.bind (hattributes.bind_pure _)))
  · rw [classCalls, classNameAt_eq_ok hpool h.name, hcalls _ rfl]
    rfl

end Document

end AccessTransformer.ClassFile
