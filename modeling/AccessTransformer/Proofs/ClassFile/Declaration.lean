import AccessTransformer.Proofs.ClassFile.Declares
import Mathlib

/-!
# Reading class declarations

Reading a written class file gives the class that it declares: no constant of any size, no skipped
attribute and no list shifts what comes behind it.

* `reads_header`, `reads_members`, `exists_reads_effectiveAccess`: the parts of the file.
* `WrittenClass.read_written`: a written class file is read back.
-/

namespace AccessTransformer.ClassFile

open Skim ConstantPool

variable {constants : List Constant} {index : UInt16} {name : String}

/-! ## References -/

theorem reads_classReference (h : HasClass constants index name) (step : Step) :
    Reads (classReference (ofConstants constants) step) (Bytes.ofWord index) name := by
  have hname : ((ofConstants constants).className index).during step = .ok name := by
    rw [className_eq_ok_iff.mpr h, Outcome.during_ok]
  exact (reads_u16 index).bind_nil (Reads.lift hname)

theorem reads_textReference (h : HasText constants index name) (step : Step) :
    Reads (textReference (ofConstants constants) step) (Bytes.ofWord index) name := by
  have hname : ((ofConstants constants).text index).during step = .ok name := by
    rw [text_eq_ok_iff.mpr h, Outcome.during_ok]
  exact (reads_u16 index).bind_nil (Reads.lift hname)

/-! ## Members -/

/-- Attributes of members are passed over, whatever their names and bodies. -/
theorem reads_skipAttribute {attr : WrittenAttribute} (h : attr.Fits) :
    Reads skipAttribute attr.written () := by
  have hname : Reads (Skim.skip 2) (Bytes.ofWord attr.name) () :=
    Reads.skip (Bytes.ofWord attr.name)
  exact hname.bind ((reads_u32 h).bind (Reads.skip attr.body))

theorem reads_member {written : WrittenMember} {declared : Member} (hfits : written.Fits)
    (h : written.Declares constants declared) :
    Reads (member (ofConstants constants)) written.written declared := by
  obtain ⟨access, name, descriptor⟩ := declared
  obtain ⟨rfl, hname, hdescriptor⟩ := h
  have hattributes : List.Forall₂ (fun (attr : WrittenAttribute) value =>
      Reads skipAttribute attr.written value) written.attributes
      (written.attributes.map fun _ => ()) := by
    rw [List.forall₂_map_right_iff, List.forall₂_same]
    exact fun attr hmem => reads_skipAttribute (hfits.attributes attr hmem)
  refine (reads_u16 written.access).bind ?_
  refine (reads_textReference hname _).bind ?_
  refine (reads_textReference hdescriptor _).bind ?_
  exact (Reads.counted hattributes hfits.length).bind_pure _

/-- **Members are read in order**, whatever their attributes. -/
theorem reads_members {written : List WrittenMember} {declared : List Member}
    (hlength : written.length < 0x10000) (hfits : ∀ member ∈ written, member.Fits)
    (h : List.Forall₂ (WrittenMember.Declares constants) written declared) (step : Step) :
    Reads (members (ofConstants constants) step) (Bytes.ofList WrittenMember.written written)
      declared := by
  refine (Reads.counted ?_ hlength).during step
  refine List.forall₂_iff_zip.mpr ⟨h.length_eq, fun {member declared} hzip => ?_⟩
  exact reads_member (hfits member (List.of_mem_zip hzip).1) (List.forall₂_zip h hzip)

/-! ## The header -/

/-- **The header is read behind a pool of any constants.** -/
theorem reads_header {file : WrittenClass} (hfits : file.Fits) {superclass : Option String}
    {interfaces : List String} (hname : HasClass file.constants file.this name)
    (hnone : superclass = none ↔ file.super = 0)
    (hsome : ∀ name, superclass = some name → HasClass file.constants file.super name)
    (hinterfaces : List.Forall₂ (HasClass file.constants) file.interfaces interfaces) :
    Reads header file.writtenHeader
      ⟨ofConstants file.constants, file.access, name, superclass, interfaces⟩ := by
  have hthis : ((ofConstants file.constants).className file.this).during .className = .ok name := by
    rw [className_eq_ok_iff.mpr hname, Outcome.during_ok]
  have hsuper : superclassName (ofConstants file.constants) file.super = .ok superclass := by
    unfold superclassName
    cases superclass with
    | none => rw [if_pos (hnone.mp rfl)]
    | some super =>
      have hindex : file.super ≠ 0 := fun hzero => nomatch hnone.mpr hzero
      rw [if_neg hindex, className_eq_ok_iff.mpr (hsome super rfl)]
      rfl
  have hversion : Reads (Skim.skip 4) (Bytes.ofWord file.minor ++ Bytes.ofWord file.major) () :=
    Reads.skip (Bytes.ofWord file.minor ++ Bytes.ofWord file.major)
  refine (reads_u32 (by decide)).bind ?_
  rw [if_neg (not_not_intro rfl)]
  refine hversion.bind (((reads_read hfits.constants).during .readPool).bind ?_)
  refine (reads_u16 file.access).bind ((reads_u16 file.this).bind ((reads_u16 file.super).bind ?_))
  refine Reads.lift_bind hthis (Reads.lift_bind hsuper ?_)
  refine (Reads.counted (hinterfaces.imp fun index name h => ?_) hfits.interfaces).bind_pure _
  exact reads_classReference h .interfaceName

/-! ## Flags -/

/-- The last flags of entries in a row. -/
theorem flagsOf_append (name : String) (before after : List (String × UInt16)) :
    flagsOf name (before ++ after) = (flagsOf name after).or (flagsOf name before) := by
  rw [flagsOf, flagsOf, flagsOf, List.filter_append, List.getLast?_append]
  cases ((after.filter (·.1 = name)).getLast?) <;> rfl

/-- The flags of one entry in front of others count if those give none. -/
theorem flagsOf_cons (name : String) (first : String × UInt16) (others : List (String × UInt16)) :
    flagsOf name (first :: others)
      = (flagsOf name others).or (if first.1 = name then some first.2 else none) := by
  have hfirst : flagsOf name [first] = if first.1 = name then some first.2 else none := by
    by_cases hname : first.1 = name
    · simp [flagsOf, hname]
    · simp [flagsOf, hname]
  rw [← hfirst]
  exact flagsOf_append name [first] others

/-- What is resolved of an entry for a nested class. -/
def WrittenInnerClass.Resolves (constants : List Constant) (entry : WrittenInnerClass)
    (resolved : String × UInt16) : Prop :=
  HasClass constants entry.inner resolved.1 ∧ resolved.2 = entry.access

theorem reads_innerClass {entry : WrittenInnerClass} {resolved : String × UInt16}
    (h : entry.Resolves constants resolved) :
    Reads (innerClass (ofConstants constants)) entry.written resolved := by
  obtain ⟨name, access⟩ := resolved
  obtain ⟨hname, rfl⟩ := h
  have hskip : Reads (Skim.skip 4) (Bytes.ofWord entry.outer ++ Bytes.ofWord entry.name) () :=
    Reads.skip (Bytes.ofWord entry.outer ++ Bytes.ofWord entry.name)
  refine (reads_u16 entry.inner).bind (hskip.bind ((reads_u16 entry.access).bind_nil ?_))
  exact Reads.lift_bind (className_eq_ok_iff.mpr hname) (Reads.pure _)

/-- An attribute with a name is split into the name and the body. -/
theorem reads_namedBody {attr : WrittenAttribute} (hfits : attr.Fits)
    (hname : HasText constants attr.name name) :
    Reads (namedBody (ofConstants constants)) attr.written (name, attr.body) :=
  (reads_textReference hname _).bind ((reads_u32 hfits).bind ((reads_take attr.body).bind_pure _))

/-- An attribute of a class gives the flags of the last of its entries that is for the class. -/
theorem exists_flagsInAttribute {attr : WrittenClassAttribute} (hfits : attr.Fits)
    (h : attr.Resolves constants) (className : String) :
    ∃ name resolved, HasText constants attr.plain.name name ∧
      List.Forall₂ (WrittenInnerClass.Resolves constants) attr.entries resolved ∧
      flagsInAttribute (ofConstants constants) className (name, attr.plain.body)
        = .ok (flagsOf className resolved) := by
  cases attr with
  | innerClasses index entries =>
    obtain ⟨hname, hentries⟩ := h
    have hresolved : ∃ resolved,
        List.Forall₂ (WrittenInnerClass.Resolves constants) entries resolved := by
      refine exists_forall₂ fun entry hmem => ?_
      obtain ⟨name, hname⟩ := hentries entry hmem
      exact ⟨(name, entry.access), hname, rfl⟩
    obtain ⟨resolved, hresolved⟩ := hresolved
    refine ⟨"InnerClasses", resolved, hname, hresolved, ?_⟩
    have hread := (Reads.counted (hresolved.imp fun _ _ => reads_innerClass) hfits.entries).within
    have hbody : (WrittenClassAttribute.innerClasses index entries).plain.body
        = Bytes.ofList WrittenInnerClass.written entries := rfl
    rw [flagsInAttribute, if_pos rfl, hbody, hread, Outcome.during_ok]
    rfl
  | other attr =>
    obtain ⟨name, hname, hother⟩ := h
    refine ⟨name, [], hname, .nil, ?_⟩
    rw [flagsInAttribute, if_neg hother]
    rfl

/-- **The flags of a class are those of the last entry for it, over all attributes.** -/
theorem exists_reads_effectiveAccess {attrs : List WrittenClassAttribute}
    (hfits : ∀ attr ∈ attrs, attr.Fits) (h : ∀ attr ∈ attrs, attr.Resolves constants)
    (className : String) :
    ∃ resolved, List.Forall₂ (WrittenInnerClass.Resolves constants)
        (attrs.flatMap WrittenClassAttribute.entries) resolved ∧
      ∀ access, Reads (effectiveAccess (ofConstants constants) className access attrs.length)
        (attrs.flatMap WrittenClassAttribute.written)
        ((flagsOf className resolved).getD access) := by
  induction attrs with
  | nil => exact ⟨[], .nil, fun access => Reads.pure access⟩
  | cons attr attrs ih =>
    obtain ⟨hfit, hfits⟩ := List.forall_mem_cons.mp hfits
    obtain ⟨hresolves, h⟩ := List.forall_mem_cons.mp h
    obtain ⟨name, first, hname, hfirst, hflags⟩ := exists_flagsInAttribute hfit hresolves className
    obtain ⟨others, hothers, hread⟩ := ih hfits h
    refine ⟨first ++ others, List.rel_append hfirst hothers, fun access => ?_⟩
    have haccess : (flagsOf className (first ++ others)).getD access
        = (flagsOf className others).getD ((flagsOf className first).getD access) := by
      rw [flagsOf_append]
      cases flagsOf className others <;> rfl
    rw [List.flatMap_cons, haccess]
    refine (reads_namedBody hfit.plain hname).bind ?_
    exact Reads.lift_bind hflags (hread _)

/-- Resolved entries either give no flags to the class, or those of the last entry for it. -/
theorem flagsOf_cases {entries : List WrittenInnerClass} {resolved : List (String × UInt16)}
    (h : List.Forall₂ (WrittenInnerClass.Resolves constants) entries resolved) (name : String) :
    (flagsOf name resolved = none ∧ ∀ entry ∈ entries, ¬HasClass constants entry.inner name) ∨
    ∃ before entry after, entries = before ++ entry :: after ∧
      HasClass constants entry.inner name ∧
      (∀ later ∈ after, ¬HasClass constants later.inner name) ∧
      flagsOf name resolved = some entry.access := by
  induction h with
  | nil => exact Or.inl ⟨rfl, by simp⟩
  | @cons entry first entries others hfirst _ ih =>
    rcases ih with ⟨hnone, hentries⟩ | ⟨before, last, after, rfl, hlast, hafter, hflags⟩
    · by_cases hname : first.1 = name
      · refine Or.inr ⟨[], entry, entries, rfl, hname ▸ hfirst.1, hentries, ?_⟩
        rw [flagsOf_cons, hnone, if_pos hname, ← hfirst.2]
        rfl
      · refine Or.inl ⟨?_, List.forall_mem_cons.mpr ⟨fun h => ?_, hentries⟩⟩
        · rw [flagsOf_cons, hnone, if_neg hname]
          rfl
        · exact hname (hfirst.1.unique h)
    · refine Or.inr ⟨entry :: before, last, after, rfl, hlast, hafter, ?_⟩
      rw [flagsOf_cons, hflags]
      rfl

/-! ## The whole file -/

namespace WrittenClass

/-- The flags that are read are those that the file gives to the class. -/
theorem givesAccess_flagsOf {file : WrittenClass} {resolved : List (String × UInt16)}
    (h : List.Forall₂ (WrittenInnerClass.Resolves file.constants) file.innerClasses resolved)
    (name : String) : file.GivesAccess name ((flagsOf name resolved).getD file.access) := by
  rcases flagsOf_cases h name with ⟨hnone, hentries⟩ | ⟨before, last, after, hsplit, hlast, hafter,
    hflags⟩
  · refine Or.inr ⟨hentries, ?_⟩
    rw [hnone, Option.getD_none]
  · refine Or.inl ⟨before, last, after, hsplit, hlast, hafter, ?_⟩
    rw [hflags, Option.getD_some]

/-- A class file whose indices stand for names declares members with these names. -/
theorem exists_declares_members {members : List WrittenMember}
    (h : ∀ member ∈ members, (∃ name, HasText constants member.name name) ∧
      ∃ descriptor, HasText constants member.descriptor descriptor) :
    ∃ declared, List.Forall₂ (WrittenMember.Declares constants) members declared := by
  refine exists_forall₂ fun member hmem => ?_
  obtain ⟨⟨name, hname⟩, descriptor, hdescriptor⟩ := h member hmem
  exact ⟨⟨member.access, name, descriptor⟩, rfl, hname, hdescriptor⟩

/-- The superclass of a class file whose indices stand for names. -/
theorem exists_superclass {file : WrittenClass} (h : file.Resolves) :
    ∃ superclass : Option String, (superclass = none ↔ file.super = 0) ∧
      ∀ name, superclass = some name → HasClass file.constants file.super name := by
  by_cases hzero : file.super = 0
  · exact ⟨none, iff_of_true rfl hzero, fun name hname => nomatch hname⟩
  · obtain ⟨name, hname⟩ := h.super hzero
    refine ⟨some name, iff_of_false (fun h => nomatch h) hzero, fun other hother => ?_⟩
    rwa [← Option.some.inj hother]

/-- A written class file is read back as something that it declares. -/
theorem exists_read_written {file : WrittenClass} (hfits : file.Fits) (h : file.Resolves) :
    ∃ declaration, file.Declares declaration ∧
      ClassDeclaration.read file.written = .ok declaration := by
  obtain ⟨name, hname⟩ := h.this
  obtain ⟨superclass, hnone, hsome⟩ := exists_superclass h
  obtain ⟨interfaces, hinterfaces⟩ := exists_forall₂ h.interfaces
  obtain ⟨fields, hfields⟩ := exists_declares_members h.fields
  obtain ⟨methods, hmethods⟩ := exists_declares_members h.methods
  obtain ⟨resolved, hresolved, haccess⟩ :=
    exists_reads_effectiveAccess hfits.attributes h.attributes name
  refine ⟨⟨name, (flagsOf name resolved).getD file.access, superclass, interfaces, fields, methods⟩,
    ⟨hname, hnone, hsome, hinterfaces, hfields, hmethods, givesAccess_flagsOf hresolved name⟩, ?_⟩
  refine Reads.within ?_
  refine (reads_header hfits hname hnone hsome hinterfaces).bind ?_
  refine (reads_members hfits.fields_length hfits.fields hfields _).bind ?_
  refine (reads_members hfits.methods_length hfits.methods hmethods _).bind ?_
  refine (reads_u16_ofNat hfits.attributes_length).bind ?_
  rw [UInt16.toNat_ofNat_of_lt' hfits.attributes_length]
  exact (haccess file.access).bind_pure _

/-- **A written class file is read back**: reading it succeeds, and gives just what it declares. -/
theorem read_written (file : WrittenClass) (hfits : file.Fits) (h : file.Resolves) :
    (∃ declaration, ClassDeclaration.read file.written = .ok declaration) ∧
      ∀ declaration, ClassDeclaration.read file.written = .ok declaration ↔
        file.Declares declaration := by
  obtain ⟨declaration, hdeclares, hread⟩ := exists_read_written hfits h
  refine ⟨⟨declaration, hread⟩, fun other => ⟨fun hother => ?_, fun hother => ?_⟩⟩
  · rwa [← Except.ok.inj (hread.symm.trans hother)]
  · rwa [hother.unique hdeclares]

end WrittenClass

namespace WrittenClass

/-- A nested class that two attributes list, behind constants of all sizes and a field with an
attribute that nothing names. -/
def listedTwice : WrittenClass where
  minor := 0
  major := 52
  constants := [.utf8 "a/😀", .classInfo 1, .long (-1), .utf8 "InnerClasses", .double 0, .utf8 "x",
    .utf8 "J", .methodHandle 1 2]
  access := 0x0001
  this := 2
  super := 0
  interfaces := []
  fields := [⟨0x0002, 8, 9, [⟨999, [1, 2, 3]⟩]⟩]
  methods := []
  attributes := [.innerClasses 5 [⟨2, 0, 0, 0x0008⟩], .other ⟨8, [255]⟩,
    .innerClasses 5 [⟨2, 0, 0, 0x000A⟩]]

theorem read_written_listedTwice :
    listedTwice.Fits ∧ listedTwice.Resolves ∧
      listedTwice.Declares ⟨"a/😀", 0x000A, none, [], [⟨0x0002, "x", "J"⟩], []⟩ := by
  have hconstants : ∀ constant ∈ listedTwice.constants, constant.Fits := by
    simp only [listedTwice, List.forall_mem_cons, Constant.Fits]
    exact ⟨by decide, trivial, trivial, by decide, trivial, by decide, by decide, trivial, by simp⟩
  have hattribute : WrittenAttribute.Fits ⟨999, [1, 2, 3]⟩ := by decide
  have hfields : ∀ field ∈ listedTwice.fields, field.Fits := by
    rintro field hmem
    rw [List.mem_singleton.mp hmem]
    exact ⟨by decide, fun attr hattr => List.mem_singleton.mp hattr ▸ hattribute⟩
  have hattributes : ∀ attr ∈ listedTwice.attributes, attr.Fits := by
    simp only [listedTwice, List.forall_mem_cons]
    exact ⟨⟨by decide, by decide⟩, ⟨by decide, by decide⟩, ⟨by decide, by decide⟩, by simp⟩
  have hfits : listedTwice.Fits :=
    ⟨⟨hconstants, by decide⟩, by decide, by decide, hfields, by decide, by simp [listedTwice],
      by decide, hattributes⟩
  have hclass : HasClass listedTwice.constants 2 "a/😀" := ⟨1, rfl, rfl⟩
  have hresolves : listedTwice.Resolves := by
    refine ⟨⟨_, hclass⟩, fun h => absurd rfl h, by simp [listedTwice], ?_, by simp [listedTwice],
      ?_⟩
    · rintro field hmem
      rw [List.mem_singleton.mp hmem]
      exact ⟨⟨"x", rfl⟩, "J", rfl⟩
    · simp only [listedTwice, List.forall_mem_cons]
      have hentry : ∀ access, ∀ entry ∈ [WrittenInnerClass.mk 2 0 0 access],
          ∃ name, HasClass listedTwice.constants entry.inner name := by
        rintro access entry hmem
        rw [List.mem_singleton.mp hmem]
        exact ⟨_, hclass⟩
      exact ⟨⟨rfl, hentry 0x0008⟩, ⟨"x", rfl, by decide⟩, ⟨rfl, hentry 0x000A⟩, by simp⟩
  have hread : ClassDeclaration.read listedTwice.written
      = .ok ⟨"a/😀", 0x000A, none, [], [⟨0x0002, "x", "J"⟩], []⟩ := by
    cbv
  exact ⟨hfits, hresolves, ((read_written listedTwice hfits hresolves).2 _).mp hread⟩

end WrittenClass

end AccessTransformer.ClassFile
