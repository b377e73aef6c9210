import AccessTransformer.Proofs.ClassFile.Written
import AccessTransformer.Proofs.Partners

/-!
# What a class file declares

The indices of a written class file stand for names, and so the file declares a class, its fields
and its methods.  It declares one class at most, and one if all of its indices that count resolve.

* `WrittenClass.Resolves`: whether the indices that count stand for names.
* `WrittenClass.Declares`: whether a class file declares a class.
* `WrittenClass.Declares.unique`: there is no other one.
-/

namespace AccessTransformer

attribute [ext] Member ClassDeclaration

namespace ClassFile

open ConstantPool

variable {constants : List Constant} {name : String}

/-! ## Declarations -/

/-- Whether the file says so of the field or method. -/
structure WrittenMember.Declares (constants : List Constant) (written : WrittenMember)
    (member : Member) : Prop where
  access : member.access = written.access
  name : HasText constants written.name member.name
  descriptor : HasText constants written.descriptor member.descriptor

/-- Whether the names of an attribute of a class can be told.  An attribute that lists nested
classes goes by its name, and all others have other names. -/
def WrittenClassAttribute.Resolves (constants : List Constant) : WrittenClassAttribute → Prop
  | .innerClasses index entries =>
    HasText constants index "InnerClasses" ∧
      ∀ entry ∈ entries, ∃ name, HasClass constants entry.inner name
  | .other attr => ∃ name, HasText constants attr.name name ∧ name ≠ "InnerClasses"

namespace WrittenClass

/-- The nested classes that a class file lists, over all of its attributes. -/
def innerClasses (file : WrittenClass) : List WrittenInnerClass :=
  file.attributes.flatMap WrittenClassAttribute.entries

/-- Whether the indices of a class file that stand for names do so. -/
structure Resolves (file : WrittenClass) : Prop where
  this : ∃ name, HasClass file.constants file.this name
  super : file.super ≠ 0 → ∃ name, HasClass file.constants file.super name
  interfaces : ∀ index ∈ file.interfaces, ∃ name, HasClass file.constants index name
  fields : ∀ field ∈ file.fields, (∃ name, HasText file.constants field.name name) ∧
    ∃ descriptor, HasText file.constants field.descriptor descriptor
  methods : ∀ method ∈ file.methods, (∃ name, HasText file.constants method.name name) ∧
    ∃ descriptor, HasText file.constants method.descriptor descriptor
  attributes : ∀ attr ∈ file.attributes, attr.Resolves file.constants

/-- Whether a class file gives the flags to the class of the given name: the last of its entries for
nested classes that is for this class does so, or else the header. -/
def GivesAccess (file : WrittenClass) (name : String) (access : UInt16) : Prop :=
  (∃ before entry after, file.innerClasses = before ++ entry :: after ∧
    HasClass file.constants entry.inner name ∧
    (∀ later ∈ after, ¬HasClass file.constants later.inner name) ∧ access = entry.access) ∨
  ((∀ entry ∈ file.innerClasses, ¬HasClass file.constants entry.inner name) ∧
    access = file.access)

/-- Whether a class file declares a class. -/
structure Declares (file : WrittenClass) (declaration : ClassDeclaration) : Prop where
  name : HasClass file.constants file.this declaration.name
  superclass_none : declaration.superclass = none ↔ file.super = 0
  superclass_some : ∀ name, declaration.superclass = some name →
    HasClass file.constants file.super name
  interfaces : List.Forall₂ (HasClass file.constants) file.interfaces declaration.interfaces
  fields : List.Forall₂ (WrittenMember.Declares file.constants) file.fields declaration.fields
  methods : List.Forall₂ (WrittenMember.Declares file.constants) file.methods declaration.methods
  access : file.GivesAccess declaration.name declaration.access

end WrittenClass

/-! ## One declaration -/

/-- A list has one last entry of a kind. -/
theorem eq_of_append_eq_append {α : Type} {P : α → Prop} {a a' : α}
    {before after before' after' : List α}
    (h : before ++ a :: after = before' ++ a' :: after') (ha : P a) (ha' : P a')
    (hafter : ∀ later ∈ after, ¬P later) (hafter' : ∀ later ∈ after', ¬P later) : a = a' := by
  rcases List.append_eq_append_iff.mp h with ⟨between, -, hrest⟩ | ⟨between, -, hrest⟩
  · cases between with
    | nil => exact (List.cons.inj hrest).1
    | cons first between =>
      refine absurd ha' (hafter a' ?_)
      rw [(List.cons.inj hrest).2]
      exact List.mem_append_right _ List.mem_cons_self
  · cases between with
    | nil => exact (List.cons.inj hrest).1.symm
    | cons first between =>
      refine absurd ha (hafter' a ?_)
      rw [(List.cons.inj hrest).2]
      exact List.mem_append_right _ List.mem_cons_self

/-- A field or method is declared in one way only. -/
theorem WrittenMember.Declares.unique {written : WrittenMember} {member member' : Member}
    (h : written.Declares constants member) (h' : written.Declares constants member') :
    member = member' := by
  refine Member.ext ?_ (h.name.unique h'.name) (h.descriptor.unique h'.descriptor)
  rw [h.access, h'.access]

namespace WrittenClass

/-- A class file gives one set of flags to a class. -/
theorem GivesAccess.unique {file : WrittenClass} {access access' : UInt16}
    (h : file.GivesAccess name access) (h' : file.GivesAccess name access') :
    access = access' := by
  rcases h with ⟨before, entry, after, hsplit, hentry, hafter, rfl⟩ | ⟨hentries, rfl⟩
  · rcases h' with ⟨before', entry', after', hsplit', hentry', hafter', rfl⟩ | ⟨hentries', -⟩
    · rw [eq_of_append_eq_append (hsplit.symm.trans hsplit') hentry hentry' hafter hafter']
    · refine absurd hentry (hentries' entry ?_)
      rw [hsplit]
      exact List.mem_append_right _ List.mem_cons_self
  · rcases h' with ⟨before', entry', after', hsplit', hentry', -, -⟩ | ⟨-, rfl⟩
    · refine absurd hentry' (hentries entry' ?_)
      rw [hsplit']
      exact List.mem_append_right _ List.mem_cons_self
    · rfl

/-- **A class file declares at most one class.** -/
theorem Declares.unique {file : WrittenClass} {declaration declaration' : ClassDeclaration}
    (h : file.Declares declaration) (h' : file.Declares declaration') :
    declaration = declaration' := by
  have hsuper : declaration.superclass = declaration'.superclass := by
    cases hsome : declaration.superclass with
    | none => exact (h'.superclass_none.mpr (h.superclass_none.mp hsome)).symm
    | some super =>
      cases hsome' : declaration'.superclass with
      | none =>
        have hnone := h.superclass_none.mpr (h'.superclass_none.mp hsome')
        exact nomatch hsome.symm.trans hnone
      | some super' =>
        rw [(h.superclass_some super hsome).unique (h'.superclass_some super' hsome')]
  have hclass : ∀ (index : UInt16) name name', HasClass file.constants index name →
      HasClass file.constants index name' → name = name' := fun _ _ _ => HasClass.unique
  have hmember : ∀ (written : WrittenMember) member member',
      written.Declares file.constants member → written.Declares file.constants member' →
        member = member' := fun _ _ _ => WrittenMember.Declares.unique
  have hname : declaration.name = declaration'.name := h.name.unique h'.name
  have haccess : file.GivesAccess declaration'.name declaration.access := hname ▸ h.access
  exact ClassDeclaration.ext hname (haccess.unique h'.access) hsuper
    (eq_of_forall₂ hclass h.interfaces h'.interfaces) (eq_of_forall₂ hmember h.fields h'.fields)
    (eq_of_forall₂ hmember h.methods h'.methods)

end WrittenClass

end ClassFile

end AccessTransformer
