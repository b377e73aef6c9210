import AccessTransformer.Proofs.ClassFile.UnknownAttributes

/-!
# Reading calls

The calls in a class file are read by dissecting it, or by skimming it if that meets an attribute of
an unknown name.  It makes no difference: a class file to which such attributes were added makes the
calls that it would make without them.

* `WrittenClass.skim_eq_ok`: skimming a file with such attributes gives the calls of the file
  without.
* `WrittenClass.read_eq_read_of_extends`: reading the one gives the same as reading the other.
-/

namespace AccessTransformer.ClassFile

open ConstantPool

namespace WrittenClass

variable {file extended : WrittenClass} {made : ClassCalls}

/-! ## The same indices -/

/-- What the constants of a file resolve to, more constants do as well. -/
theorem Extends.hasText (h : file.Extends extended) {index : UInt16} {value : String}
    (htext : HasText file.constants index value) : HasText extended.constants index value := by
  obtain ⟨more, hmore⟩ := h.constants
  exact hmore ▸ htext.append more

theorem Extends.hasClass (h : file.Extends extended) {index : UInt16} {value : String}
    (hclass : HasClass file.constants index value) : HasClass extended.constants index value := by
  obtain ⟨more, hmore⟩ := h.constants
  exact hmore ▸ hclass.append more

/-- The members of the file with more attributes have the names and descriptors of those without. -/
theorem exists_declares_extended {constants : List Constant} {members extended : List WrittenMember}
    (hextends : List.Forall₂ (WrittenMember.Extends constants) members extended)
    (h : ∀ member ∈ members, (∃ name, HasText constants member.name name) ∧
      ∃ descriptor, HasText constants member.descriptor descriptor) :
    ∃ declared, List.Forall₂ (WrittenMember.Declares constants) extended declared := by
  refine exists_declares_members fun member hmem => ?_
  obtain ⟨old, hold, hextends⟩ := exists_of_forall₂_of_mem hextends hmem
  rw [hextends.name, hextends.descriptor]
  exact h old hold

/-! ## Skimming -/

/-- **Skimming a class file with attributes of unknown names gives the calls that the file without
them makes.** -/
theorem skim_eq_ok (hplain : file.IsPlain) (hextends : file.Extends extended)
    (hfits : extended.Fits) (h : file.Makes made) : ClassCalls.skim extended.written = .ok made := by
  have hresolves := hplain.resolves
  obtain ⟨superclass, hnone, hsome⟩ := exists_superclass hresolves
  obtain ⟨interfaces, hinterfaces⟩ := exists_forall₂ hresolves.interfaces
  obtain ⟨fields, hfields⟩ := exists_declares_extended hextends.fields fun field hmem =>
    (hresolves.fields field hmem).imp (fun ⟨name, hname⟩ => ⟨name, hextends.hasText hname⟩)
      fun ⟨descriptor, hdescriptor⟩ => ⟨descriptor, hextends.hasText hdescriptor⟩
  have hmethods := forall₂_reads_methodCalls hfits.methods hextends.methods <|
    h.methods.imp fun method made hmade => by
      obtain ⟨more, hmore⟩ := hextends.constants
      exact hmore ▸ hmade.append more
  have hheader : Skim.Reads header extended.writtenHeader
      ⟨ofConstants extended.constants, extended.access, made.name, superclass, interfaces⟩ :=
    reads_header hfits (hextends.this ▸ hextends.hasClass h.name) (hextends.super ▸ hnone)
      (fun name hname => hextends.super ▸ hextends.hasClass (hsome name hname))
      (hextends.interfaces ▸ hinterfaces.imp fun _ _ => hextends.hasClass)
  have hread : Skim.Reads classCalls _ made := hheader.bind
    ((reads_members hfits.fields_length hfits.fields hfields .fields).bind
      ((Skim.Reads.counted hmethods hfits.methods_length).bind_pure _))
  rw [ClassCalls.skim, written, ← List.append_assoc (Bytes.ofList _ extended.fields),
    ← List.append_assoc]
  exact hread.within_append _

/-! ## Dissecting -/

/-- All attributes that were there before can be read. -/
theorem Extends.isReadUpToUnknown (hextends : file.Extends extended) (hplain : file.IsPlain)
    (hfits : extended.Fits) {pool : Array Constant} (hpool : KeepsSlots pool extended.constants) :
    Attribute.IsReadUpToUnknown pool extended.constants extended.allAttributes := by
  simp only [Attribute.IsReadUpToUnknown, allAttributes, List.forall_mem_append,
    List.forall_mem_flatMap]
  refine ⟨fun field hmem attr hattr => ?_, fun method hmem attr hattr => ?_, fun attr hattr => ?_⟩
  · obtain ⟨old, hold, hfield⟩ := exists_of_forall₂_of_mem hextends.fields hmem
    refine (hfield.attributes.isUnknown_or_mem hattr).imp_right fun hmem => ?_
    rw [hplain.fields old hold] at hmem
    cases hmem
  · obtain ⟨old, hold, hmethod⟩ := exists_of_forall₂_of_mem hextends.methods hmem
    refine (hmethod.attributes.isUnknown_or_mem hattr).imp_right fun hmem' => ?_
    rcases hplain.methods old hold with hnone | ⟨body, code, hbody, hcode, -⟩
    · rw [hnone] at hmem'
      cases hmem'
    · rw [hbody] at hmem'
      obtain rfl := List.mem_singleton.mp hmem'
      obtain ⟨more, hmore⟩ := hextends.constants
      exact ⟨_, Attribute.isRead_code hpool ((hfits.methods method hmem).attributes attr hattr)
        (hmore ▸ hcode.append more)⟩
  · refine (hextends.attributes.isUnknown_or_mem hattr).imp_right fun hmem => ?_
    rw [hplain.attributes] at hmem
    cases hmem

/-- The message of an unknown name says so. -/
theorem isUnmatchedAttribute_unmatchedAttribute (name : String) :
    (FormFault.unmatchedAttribute name).isUnmatchedAttribute = true := by
  have hmessage : (FormFault.unmatchedAttribute name).message
      = "I/O Error: " ++ "unmatched attribute" ++ (": " ++ name) := by
    rw [← String.append_assoc]
    rfl
  rw [FormFault.isUnmatchedAttribute, String.contains_string_iff, hmessage, String.toList_append,
    String.toList_append]
  exact List.infix_append _ _ _

/-! ## Reading -/

/-- Reading a class file with no attributes but method bodies gives the calls that it makes. -/
theorem IsPlain.read_eq_ok (hplain : file.IsPlain) (h : file.Makes made) :
    ClassCalls.read file.written = .ok made := by
  obtain ⟨document, hread, hcalls⟩ := Document.exists_read_of_makes hplain h
  rw [ClassCalls.read, hread]
  exact hcalls

/-- **Attributes of unknown names change no calls.**  A class file with no attributes but method
bodies makes one list of calls; this is what is read from it, by dissecting it.  It is also what is
read when attributes of unknown names are added anywhere, although dissecting then fails and the
file is skimmed. -/
theorem read_eq_read_of_extends (hplain : file.IsPlain) (hextends : file.Extends extended)
    (hfits : extended.Fits) :
    ∃ calls, file.Makes calls ∧ (∀ other, file.Makes other → other = calls) ∧
      ClassCalls.read file.written = .ok calls ∧
      ClassCalls.read extended.written = .ok calls ∧
      (∃ document, Document.read file.written = .ok document) ∧
      (∃ name, Document.read extended.written = .error (.unmatchedAttribute name)) ∧
      ClassCalls.skim extended.written = .ok calls := by
  obtain ⟨calls, hcalls⟩ := hplain.exists_makes
  obtain ⟨document, hdocument, -⟩ := Document.exists_read_of_makes hplain hcalls
  obtain ⟨name, hname⟩ := Document.exists_read_eq_unmatchedAttribute hfits
    (fun _ hpool => hextends.isReadUpToUnknown hplain hfits hpool) hextends.exists_unknown
  have hskim := skim_eq_ok hplain hextends hfits hcalls
  refine ⟨calls, hcalls, fun other hother => ?_, hplain.read_eq_ok hcalls, ?_,
    ⟨document, hdocument⟩, ⟨name, hname⟩, hskim⟩
  · exact Except.ok.inj ((hplain.read_eq_ok hother).symm.trans (hplain.read_eq_ok hcalls))
  · rw [ClassCalls.read, hname]
    simp only [isUnmatchedAttribute_unmatchedAttribute, if_true, hskim, Outcome.during_ok]

/-- A switch with calls in its padding, a call of either kind of method, and an exception table. -/
def twoCallsBody : WrittenCode where
  maxStack := 2
  maxLocals := 1
  instructions := [0x03, 0xaa, 0xb6, 0xb6, 0x00, 0x00, 0x00, 0x00, 0x00, 0x00, 0x00, 0x01, 0x00,
    0x00, 0x00, 0x00, 0xb9, 0x00, 0x07, 0x01, 0x00, 0xb8, 0x00, 0x0a, 0xb1]
  handlers := [⟨0, 16, 21, 0⟩]

/-- A class whose name is no UTF-8 as it is written, with a field, a method without a body, and one
with two calls. -/
def twoCalls : WrittenClass where
  minor := 0
  major := 52
  constants := [.utf8 "p/\u0000😀", .classInfo 1, .utf8 "Code", .utf8 "run", .utf8 "()V",
    .nameAndType 4 5, .interfaceMethodRef 2 6, .long (-1), .methodRef 2 6]
  access := 0x0001
  this := 2
  super := 0
  interfaces := [2]
  fields := [⟨0x0002, 4, 5, []⟩]
  methods := [⟨0x0400, 4, 5, []⟩, ⟨0x0001, 4, 5, [⟨3, twoCallsBody.written⟩]⟩]
  attributes := []

/-- The same class with attributes of an unknown name at the class, at the field, and before and
behind the body of the method. -/
def twoCallsExtended : WrittenClass :=
  { twoCalls with
    constants := twoCalls.constants ++ [.utf8 "x.Unknown"]
    fields := [⟨0x0002, 4, 5, [⟨11, [1, 2, 3]⟩]⟩]
    methods := [⟨0x0400, 4, 5, []⟩,
      ⟨0x0001, 4, 5, [⟨11, []⟩, ⟨3, twoCallsBody.written⟩, ⟨11, [0xb8]⟩]⟩]
    attributes := [.other ⟨11, [0xff]⟩] }

/-- The calls that it makes. -/
def twoCallsMade : ClassCalls where
  name := "p/\u0000😀"
  methods := [⟨"run", "()V", []⟩,
    ⟨"run", "()V", [⟨16, .interface, "p/\u0000😀", "run", "()V"⟩,
      ⟨21, .static, "p/\u0000😀", "run", "()V"⟩]⟩]

theorem makesCalls_twoCallsBody : MakesCalls twoCalls.constants twoCallsBody.instructions
    [⟨16, .interface, "p/\u0000😀", "run", "()V"⟩, ⟨21, .static, "p/\u0000😀", "run", "()V"⟩] := by
  have hclass : HasClass twoCalls.constants 2 "p/\u0000😀" := ⟨1, rfl, rfl⟩
  have hinterface : HasMethod twoCalls.constants 7 "p/\u0000😀" "run" "()V" :=
    ⟨2, 6, 4, 5, Or.inr rfl, rfl, hclass, rfl, rfl⟩
  have hstatic : HasMethod twoCalls.constants 10 "p/\u0000😀" "run" "()V" :=
    ⟨2, 6, 4, 5, Or.inl rfl, rfl, hclass, rfl, rfl⟩
  have hfound : Instruction.invocations twoCallsBody.instructions
      = .ok [⟨.interface, 16, 7⟩, ⟨.static, 21, 10⟩] := by
    decide +kernel
  exact (makesCalls_iff (by decide)).mpr
    ⟨_, hfound, .cons ⟨rfl, rfl, hinterface⟩ (.cons ⟨rfl, rfl, hstatic⟩ .nil)⟩

theorem isCode_twoCallsBody :
    WrittenAttribute.IsCode twoCalls.constants ⟨3, twoCallsBody.written⟩ twoCallsBody :=
  ⟨rfl, rfl, by decide⟩

theorem makes_twoCalls : twoCalls.Makes twoCallsMade :=
  ⟨⟨1, rfl, rfl⟩, .cons ⟨rfl, rfl, .none⟩
    (.cons ⟨rfl, rfl, .code isCode_twoCallsBody makesCalls_twoCallsBody⟩ .nil)⟩

theorem extends_twoCallsExtended : twoCalls.Extends twoCallsExtended := by
  have hunknown : ∀ body, WrittenAttribute.IsUnknown twoCallsExtended.constants ⟨11, body⟩ :=
    fun body => ⟨"x.Unknown", rfl, by decide⟩
  exact
    { minor := rfl
      major := rfl
      constants := ⟨_, rfl⟩
      access := rfl
      this := rfl
      super := rfl
      interfaces := rfl
      fields := .cons ⟨rfl, rfl, rfl, .insert (hunknown _) .nil⟩ .nil
      methods := .cons ⟨rfl, rfl, rfl, .nil⟩
        (.cons ⟨rfl, rfl, rfl, .insert (hunknown _) (.keep _ (.insert (hunknown _) .nil))⟩ .nil)
      attributes := .insert (hunknown _) .nil
      exists_unknown := ⟨⟨11, [1, 2, 3]⟩, List.mem_cons_self, hunknown _⟩ }

theorem isPlain_twoCalls : twoCalls.IsPlain := by
  have hname : (∃ name, HasText twoCalls.constants 4 name) ∧
      ∃ descriptor, HasText twoCalls.constants 5 descriptor :=
    ⟨⟨"run", rfl⟩, "()V", rfl⟩
  have hresolves : twoCalls.Resolves := by
    refine ⟨⟨_, makes_twoCalls.name⟩, fun h => absurd rfl h, ?_, ?_, ?_, by simp [twoCalls]⟩
    · simp only [twoCalls, List.forall_mem_cons]
      exact ⟨⟨_, makes_twoCalls.name⟩, by simp⟩
    · simp only [twoCalls, List.forall_mem_cons]
      exact ⟨hname, by simp⟩
    · simp only [twoCalls, List.forall_mem_cons]
      exact ⟨hname, hname, by simp⟩
  refine ⟨by decide, hresolves, by decide, ?_, rfl⟩
  refine List.forall_mem_cons.mpr ⟨Or.inl rfl, List.forall_mem_cons.mpr ⟨Or.inr ?_, by simp⟩⟩
  exact ⟨_, twoCallsBody, rfl, isCode_twoCallsBody,
    makesCalls_twoCallsBody.resolvable (by decide)⟩

theorem read_eq_read_of_extends_twoCalls :
    twoCalls.IsPlain ∧ twoCalls.Extends twoCallsExtended ∧ twoCallsExtended.Fits ∧
      ClassCalls.read twoCalls.written = .ok twoCallsMade ∧
      ClassCalls.read twoCallsExtended.written = .ok twoCallsMade := by
  have hfits : twoCallsExtended.Fits := by decide
  obtain ⟨calls, -, hunique, hread, hextended, -⟩ :=
    read_eq_read_of_extends isPlain_twoCalls extends_twoCallsExtended hfits
  rw [← hunique _ makes_twoCalls] at hread hextended
  exact ⟨isPlain_twoCalls, extends_twoCallsExtended, hfits, hread, hextended⟩

end WrittenClass

end AccessTransformer.ClassFile
