import AccessTransformer.Proofs.ClassFile.Declaration
import AccessTransformer.Proofs.ClassFile.DocumentCalls

/-!
# Attributes of unknown names

Compilers and tools add attributes of their own to class files, at the class and at any field or
method.  Dissecting does not know their forms and gives up at the first of them.  Skimming passes
over them, and finds the calls that the file would make without them.

* `WrittenClass.Extends`: one class file is another one with attributes of unknown names.
* `Document.exists_read_eq_unmatchedAttribute`: dissecting gives up at such an attribute.
* `reads_callsInAttributes`, `forall₂_reads_methodCalls`: skimming finds the calls of methods between
  such attributes.
-/

namespace AccessTransformer.ClassFile

open ConstantPool

/-! ## Attributes that are added -/

namespace Attribute

/-- The names of attributes whose forms are known. -/
def knownNames : List String :=
  ["ConstantValue", "SourceFile", "Signature", "NestHost", "EnclosingMethod", "Synthetic",
    "Deprecated", "Exceptions", "NestMembers", "PermittedSubclasses", "LineNumberTable",
    "LocalVariableTable", "LocalVariableTypeTable", "InnerClasses", "BootstrapMethods",
    "MethodParameters", "RuntimeVisibleAnnotations", "RuntimeInvisibleAnnotations",
    "RuntimeVisibleParameterAnnotations", "AnnotationDefault", "RuntimeVisibleTypeAnnotations",
    "StackMapTable", "Code", "Record"]

/-- No other name has a form. -/
theorem form?_eq_none {name : String} (h : name ∉ knownNames) (length : Nat) :
    form? name length = none := by
  unfold form?
  split <;> first | rfl | exact absurd (by simp only [knownNames, List.mem_cons, true_or, or_true]) h

end Attribute

/-- Whether the name of an attribute is unknown. -/
def WrittenAttribute.IsUnknown (constants : List Constant) (attr : WrittenAttribute) : Prop :=
  ∃ name, HasText constants attr.name name ∧ name ∉ Attribute.knownNames

/-- Whether the second list is the first one with attributes of unknown names anywhere in between. -/
inductive Inserted (constants : List Constant) :
    List WrittenAttribute → List WrittenAttribute → Prop where
  | nil : Inserted constants [] []
  | keep {attrs attrs' : List WrittenAttribute} (attr : WrittenAttribute)
      (h : Inserted constants attrs attrs') : Inserted constants (attr :: attrs) (attr :: attrs')
  | insert {attrs attrs' : List WrittenAttribute} {attr : WrittenAttribute}
      (hunknown : attr.IsUnknown constants) (h : Inserted constants attrs attrs') :
      Inserted constants attrs (attr :: attrs')

/-- Whether the second field or method is the first one with attributes of unknown names. -/
structure WrittenMember.Extends (constants : List Constant) (member extended : WrittenMember) :
    Prop where
  access : extended.access = member.access
  name : extended.name = member.name
  descriptor : extended.descriptor = member.descriptor
  attributes : Inserted constants member.attributes extended.attributes

namespace WrittenClass

/-- All attributes of a class file, but for those in others. -/
def allAttributes (file : WrittenClass) : List WrittenAttribute :=
  file.fields.flatMap (·.attributes) ++ (file.methods.flatMap (·.attributes) ++
    file.attributes.map WrittenClassAttribute.plain)

/-- Whether the second class file is the first one with attributes of unknown names, at least one of
them.  For their names there may be more constants behind the others. -/
structure Extends (file extended : WrittenClass) : Prop where
  minor : extended.minor = file.minor
  major : extended.major = file.major
  constants : ∃ more, extended.constants = file.constants ++ more
  access : extended.access = file.access
  this : extended.this = file.this
  super : extended.super = file.super
  interfaces : extended.interfaces = file.interfaces
  fields : List.Forall₂ (WrittenMember.Extends extended.constants) file.fields extended.fields
  methods : List.Forall₂ (WrittenMember.Extends extended.constants) file.methods extended.methods
  attributes : Inserted extended.constants (file.attributes.map WrittenClassAttribute.plain)
    (extended.attributes.map WrittenClassAttribute.plain)
  exists_unknown : ∃ attr ∈ extended.allAttributes, attr.IsUnknown extended.constants

end WrittenClass

variable {pool : Array Constant} {constants : List Constant} {attr : WrittenAttribute}
  {attrs attrs' : List WrittenAttribute}

/-- An attribute is of an unknown name, or it was there before. -/
theorem Inserted.isUnknown_or_mem (h : Inserted constants attrs attrs') (hmem : attr ∈ attrs') :
    attr.IsUnknown constants ∨ attr ∈ attrs := by
  induction h with
  | nil => cases hmem
  | keep first _ ih =>
    rcases List.mem_cons.mp hmem with rfl | hmem
    · exact Or.inr List.mem_cons_self
    · exact (ih hmem).imp_right (List.mem_cons_of_mem _)
  | insert hunknown _ ih =>
    rcases List.mem_cons.mp hmem with rfl | hmem
    · exact Or.inl hunknown
    · exact ih hmem

/-! ## Dissecting them -/

section Dissecting

open Dissect

/-- Whether every attribute of a list is of an unknown name or can be read. -/
def Attribute.IsReadUpToUnknown (pool : Array Constant) (constants : List Constant)
    (attrs : List WrittenAttribute) : Prop :=
  ∀ attr ∈ attrs, attr.IsUnknown constants ∨ ∃ found, IsRead pool attr found

/-- An attribute of an unknown name is refused. -/
theorem Attribute.refuses_nested (hpool : KeepsSlots pool constants) (hfits : attr.Fits)
    (h : attr.IsUnknown constants) (levels : Nat) :
    Refuses (nested pool (levels + 1)) attr.written := by
  obtain ⟨name, hname, hunknown⟩ := h
  have hcode : name ≠ "Code" := fun heq => hunknown (by rw [heq]; decide)
  have hrecord : name ≠ "Record" := fun heq => hunknown (by rw [heq]; decide)
  refine (reads_u16 attr.name).bind_refuses ?_
  refine Refuses.lift_bind (name_eq_ok hpool hname) ((reads_u32 hfits).bind_refuses ?_)
  rw [if_neg hcode, if_neg hrecord, form?_eq_none hunknown]
  exact fun position rest => ⟨name, rfl⟩

/-- Attributes with one of an unknown name are refused, if all others can be read. -/
theorem Attribute.refuses_list (hpool : KeepsSlots pool constants)
    (hfits : ∀ attr ∈ attrs, attr.Fits) (hlength : attrs.length < 0x10000)
    (hread : IsReadUpToUnknown pool constants attrs)
    (h : ∃ attr ∈ attrs, attr.IsUnknown constants) :
    Refuses (list pool) (Bytes.ofList WrittenAttribute.written attrs) := by
  intro position rest
  obtain ⟨levels, hlevels⟩ := exists_list_eq pool attrs position rest
  rw [hlevels]
  refine Refuses.counted16 (fun attr hmem hknown => ?_) (fun attr hmem hunknown => ?_) h hlength
    position rest
  · obtain ⟨found, hfound⟩ := (hread attr hmem).resolve_left hknown
    exact ⟨found, hfound levels⟩
  · exact refuses_nested hpool (hfits attr hmem) hunknown levels

namespace Document

/-- A field or method with an attribute of an unknown name is refused. -/
theorem refuses_member {written : WrittenMember} (hpool : KeepsSlots pool constants)
    (hfits : written.Fits)
    (hread : Attribute.IsReadUpToUnknown pool constants written.attributes)
    (h : ∃ attr ∈ written.attributes, attr.IsUnknown constants) :
    Refuses (member pool) written.written := by
  have hlist := Attribute.refuses_list hpool hfits.attributes hfits.length hread h
  refine (reads_words [written.access]).bind_refuses ((reads_u16 written.name).bind_refuses ?_)
  exact (reads_u16 written.descriptor).bind_refuses (hlist.bind_nil _)

/-- Fields or methods are refused, or there is no attribute of an unknown name and they are read. -/
theorem refuses_or_reads_members {written : List WrittenMember} (hpool : KeepsSlots pool constants)
    (hlength : written.length < 0x10000) (hfits : ∀ member ∈ written, member.Fits)
    (hread : ∀ member ∈ written, Attribute.IsReadUpToUnknown pool constants member.attributes) :
    Refuses (counted16 (member pool)) (Bytes.ofList WrittenMember.written written) ∨
    (¬∃ attr ∈ written.flatMap (·.attributes), attr.IsUnknown constants) ∧
      ∃ found, Reads (counted16 (member pool)) (Bytes.ofList WrittenMember.written written)
        found := by
  have hknown : ∀ member ∈ written, (¬∃ attr ∈ member.attributes, attr.IsUnknown constants) →
      ∀ attr ∈ member.attributes, ∃ found, Attribute.IsRead pool attr found := by
    intro member hmem hnone attr hattr
    exact (hread member hmem attr hattr).resolve_left fun hunknown => hnone ⟨attr, hattr, hunknown⟩
  by_cases hsome : ∃ member ∈ written, ∃ attr ∈ member.attributes, attr.IsUnknown constants
  · refine Or.inl (Refuses.counted16 (fun member hmem hnone => ?_) (fun member hmem => ?_) hsome
      hlength)
    · obtain ⟨found, hfound⟩ := exists_forall₂ (hknown member hmem hnone)
      exact ⟨_, reads_member (hfits member hmem) hfound⟩
    · exact refuses_member hpool (hfits member hmem) (hread member hmem)
  · refine Or.inr ⟨?_, exists_reads_members hlength hfits fun member hmem => ?_⟩
    · rintro ⟨attr, hattr, hunknown⟩
      obtain ⟨member, hmem, hattr⟩ := List.mem_flatMap.mp hattr
      exact hsome ⟨member, hmem, attr, hattr, hunknown⟩
    · exact hknown member hmem fun h => hsome ⟨member, hmem, h⟩

/-- **Dissecting a class file gives up at an attribute of an unknown name**, if all others can be
read. -/
theorem exists_read_eq_unmatchedAttribute {file : WrittenClass} (hfits : file.Fits)
    (hread : ∀ pool, KeepsSlots pool file.constants →
      Attribute.IsReadUpToUnknown pool file.constants file.allAttributes)
    (h : ∃ attr ∈ file.allAttributes, attr.IsUnknown file.constants) :
    ∃ name, read file.written = .error (.unmatchedAttribute name) := by
  have hrefuses : Refuses upToEnd file.written := by
    obtain ⟨pool, hpool, hheader⟩ := exists_reads_header hfits
    have hread := hread pool hpool
    simp only [Attribute.IsReadUpToUnknown, WrittenClass.allAttributes, List.forall_mem_append,
      List.forall_mem_flatMap] at hread
    obtain ⟨hreadFields, hreadMethods, hreadClass⟩ := hread
    simp only [WrittenClass.allAttributes, List.mem_append, or_and_right, exists_or] at h
    refine hheader.bind_refuses ?_
    rcases refuses_or_reads_members hpool hfits.fields_length hfits.fields hreadFields with
      hrefuses | ⟨hfields, fields, hreads⟩
    · exact hrefuses.bind _ _
    refine hreads.bind_refuses ?_
    rcases refuses_or_reads_members hpool hfits.methods_length hfits.methods hreadMethods with
      hrefuses | ⟨hmethods, methods, hreads⟩
    · exact hrefuses.bind _ _
    refine hreads.bind_refuses ?_
    have hclass := (h.resolve_left hfields).resolve_left hmethods
    rw [WrittenClassAttribute.ofList_written]
    refine (Attribute.refuses_list hpool ?_ ?_ hreadClass hclass).bind_nil _
    · exact List.forall_mem_map.mpr fun attr hmem => (hfits.attributes attr hmem).plain
    · rw [List.length_map]
      exact hfits.attributes_length
  obtain ⟨name, hname⟩ := hrefuses 0 []
  rw [List.append_nil] at hname
  refine ⟨name, ?_⟩
  rw [read, Place.start, hname]
  rfl

end Document

end Dissecting

/-! ## Skimming them -/

section Skimming

open Skim

variable {sites : List CallSite}

/-- Nothing is found in an attribute of an unknown name. -/
theorem reads_callsInAttributes_unknown {count : Nat} {bytes : Bytes} {calls : List CallSite}
    (hfits : attr.Fits) (h : attr.IsUnknown constants) (step : Step)
    (hrest : Reads (callsInAttributes (ofConstants constants) step calls count) bytes sites) :
    Reads (callsInAttributes (ofConstants constants) step calls (count + 1))
      (attr.written ++ bytes) sites := by
  obtain ⟨name, hname, hunknown⟩ := h
  have hcode : name ≠ "Code" := fun heq => hunknown (by rw [heq]; decide)
  have hnone : callsInAttribute (ofConstants constants) step (name, attr.body) = .ok none := by
    rw [callsInAttribute, if_neg hcode]
  exact (reads_namedBody hfits hname).bind (Reads.lift_bind hnone hrest)

/-- The instructions of a method body are found in it. -/
theorem within_instructions {code : WrittenCode} (hlength : code.instructions.length < 0x100000000) :
    instructions.within code.written = .ok code.instructions := by
  have hskip : Reads (Skim.skip 4) ([code.maxStack, code.maxLocals].flatMap Bytes.ofWord) () :=
    Reads.skip ([code.maxStack, code.maxLocals].flatMap Bytes.ofWord)
  have hread : Reads instructions _ code.instructions :=
    hskip.bind ((reads_u32 hlength).bind (reads_take code.instructions))
  rw [WrittenCode.written, ← List.append_assoc (Bytes.bigEndian 4 _), ← List.append_assoc]
  exact Reads.within_append hread _

/-- The calls of a method body are found in its attribute. -/
theorem callsInAttribute_code {code : WrittenCode} (hfits : attr.Fits)
    (hcode : attr.IsCode constants code) (h : MakesCalls constants code.instructions sites)
    (step : Step) :
    callsInAttribute (ofConstants constants) step ("Code", attr.body) = .ok (some sites) := by
  have hlength : code.instructions.length < 0x100000000 :=
    Nat.lt_of_le_of_lt code.length_instructions_le (hcode.body ▸ hfits)
  have hsites := callSites_eq_ok hlength (fun _ _ _ _ => method_eq_ok) h
  rw [callsInAttribute, if_pos rfl, hcode.body, within_instructions hlength]
  show Outcome.during step (callSites _ code.instructions >>= fun sites => pure (some sites)) = _
  rw [hsites]
  rfl

/-- Attributes of unknown names leave the calls as they are. -/
theorem reads_callsInAttributes_nil (hfits : ∀ attr ∈ attrs', attr.Fits)
    (h : Inserted constants [] attrs') (step : Step) (calls : List CallSite) :
    Reads (callsInAttributes (ofConstants constants) step calls attrs'.length)
      (attrs'.flatMap WrittenAttribute.written) calls := by
  generalize hattrs : ([] : List WrittenAttribute) = attrs at h
  induction h with
  | nil => exact Reads.pure calls
  | keep => cases hattrs
  | insert hunknown _ ih =>
    obtain ⟨hfit, hfits⟩ := List.forall_mem_cons.mp hfits
    rw [List.flatMap_cons]
    exact reads_callsInAttributes_unknown hfit hunknown step (ih hfits hattrs)

/-- **Between attributes of unknown names, the calls of a method are found.** -/
theorem reads_callsInAttributes (hfits : ∀ attr ∈ attrs', attr.Fits)
    (hinserted : Inserted constants attrs attrs') (h : BodyMakes constants attrs sites)
    (step : Step) :
    Reads (callsInAttributes (ofConstants constants) step [] attrs'.length)
      (attrs'.flatMap WrittenAttribute.written) sites := by
  induction hinserted with
  | nil =>
    cases h
    exact Reads.pure []
  | keep attr hrest _ =>
    obtain ⟨hfit, hfits⟩ := List.forall_mem_cons.mp hfits
    rw [List.flatMap_cons]
    cases h with
    | code hcode h =>
      refine (reads_namedBody hfit hcode.name).bind ?_
      refine Reads.lift_bind (callsInAttribute_code hfit hcode h step) ?_
      exact reads_callsInAttributes_nil hfits hrest step sites
  | insert hunknown _ ih =>
    obtain ⟨hfit, hfits⟩ := List.forall_mem_cons.mp hfits
    rw [List.flatMap_cons]
    exact reads_callsInAttributes_unknown hfit hunknown step (ih hfits h)

/-- A method is skimmed, and its calls are found. -/
theorem reads_methodCalls {method extended : WrittenMember} {made : MethodCalls}
    (hfits : extended.Fits) (hextends : method.Extends constants extended)
    (h : method.Makes constants made) :
    Reads (methodCalls (ofConstants constants)) extended.written made := by
  obtain ⟨name, descriptor, sites⟩ := made
  obtain ⟨hname, hdescriptor, hcalls⟩ := h
  rw [← hextends.name] at hname
  rw [← hextends.descriptor] at hdescriptor
  refine (Reads.skip (Bytes.ofWord extended.access)).bind ?_
  refine (reads_textReference hname _).bind ((reads_textReference hdescriptor _).bind ?_)
  refine (reads_u16_ofNat hfits.length).bind ?_
  rw [UInt16.toNat_ofNat_of_lt' hfits.length]
  exact (reads_callsInAttributes hfits.attributes hextends.attributes hcalls _).bind_pure _

/-- Methods are skimmed one by one. -/
theorem forall₂_reads_methodCalls {methods extended : List WrittenMember}
    {made : List MethodCalls} (hfits : ∀ method ∈ extended, method.Fits)
    (hextends : List.Forall₂ (WrittenMember.Extends constants) methods extended)
    (h : List.Forall₂ (WrittenMember.Makes constants) methods made) :
    List.Forall₂ (fun (written : WrittenMember) made =>
      Reads (methodCalls (ofConstants constants)) written.written made) extended made := by
  induction hextends generalizing made with
  | nil =>
    cases h
    exact .nil
  | cons hfirst _ ih =>
    obtain ⟨hfit, hfits⟩ := List.forall_mem_cons.mp hfits
    cases h with
    | cons hmade h => exact .cons (reads_methodCalls hfit hfirst hmade) (ih hfits h)

end Skimming

end AccessTransformer.ClassFile
