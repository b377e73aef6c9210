import AccessTransformer.ClassFile.Declaration
import AccessTransformer.Proofs.ClassFile.Pool

/-!
# Written class files

A class file as a value: constants, and indices into them.  Attributes of fields and methods are
bytes with a name that may be any index, and so are those attributes of the class that do not list
nested classes.  Such a value is written in one way; it can be written if all lengths fit into the
words that count them.

* `WrittenClass`: class files as values.
* `WrittenClass.written`: the bytes of a class file.
* `WrittenClass.Fits`: the limits of the format.
-/

namespace AccessTransformer.ClassFile

open Skim ConstantPool

/-! ## Parts -/

/-- An attribute whose body is just bytes. -/
structure WrittenAttribute where
  name : UInt16
  body : Bytes
  deriving DecidableEq, Repr

/-- A field or method. -/
structure WrittenMember where
  access : UInt16
  name : UInt16
  descriptor : UInt16
  attributes : List WrittenAttribute
  deriving DecidableEq, Repr

/-- An entry for a nested class. -/
structure WrittenInnerClass where
  inner : UInt16
  outer : UInt16
  name : UInt16
  access : UInt16
  deriving DecidableEq, Repr

/-- An attribute of a class: one that lists nested classes, or another one. -/
inductive WrittenClassAttribute where
  | innerClasses (name : UInt16) (entries : List WrittenInnerClass)
  | other (attr : WrittenAttribute)
  deriving DecidableEq, Repr

/-- A class file. -/
structure WrittenClass where
  minor : UInt16
  major : UInt16
  constants : List Constant
  access : UInt16
  this : UInt16
  super : UInt16
  interfaces : List UInt16
  fields : List WrittenMember
  methods : List WrittenMember
  attributes : List WrittenClassAttribute
  deriving DecidableEq, Repr

/-! ## Bytes -/

namespace WrittenAttribute

/-- The bytes of an attribute: its name, the length of its body, and the body. -/
def written (attr : WrittenAttribute) : Bytes :=
  Bytes.ofWord attr.name ++ (Bytes.bigEndian 4 attr.body.length ++ attr.body)

/-- The length of the body fits into its four bytes. -/
def Fits (attr : WrittenAttribute) : Prop := attr.body.length < 0x100000000

instance (attr : WrittenAttribute) : Decidable attr.Fits := inferInstanceAs (Decidable (_ < _))

end WrittenAttribute

namespace WrittenMember

/-- The bytes of a field or method. -/
def written (member : WrittenMember) : Bytes :=
  Bytes.ofWord member.access ++ (Bytes.ofWord member.name ++ (Bytes.ofWord member.descriptor ++
    Bytes.ofList WrittenAttribute.written member.attributes))

/-- Whether the attributes of a field or method can be counted and written. -/
structure Fits (member : WrittenMember) : Prop where
  length : member.attributes.length < 0x10000
  attributes : ∀ attr ∈ member.attributes, attr.Fits

instance (member : WrittenMember) : Decidable member.Fits :=
  decidable_of_iff (member.attributes.length < 0x10000 ∧ ∀ attr ∈ member.attributes, attr.Fits)
    ⟨fun h => ⟨h.1, h.2⟩, fun h => ⟨h.length, h.attributes⟩⟩

end WrittenMember

/-- The bytes of an entry for a nested class. -/
def WrittenInnerClass.written (entry : WrittenInnerClass) : Bytes :=
  Bytes.ofWord entry.inner ++ ((Bytes.ofWord entry.outer ++ Bytes.ofWord entry.name) ++
    Bytes.ofWord entry.access)

namespace WrittenClassAttribute

/-- The attribute as any reader sees it that does not look into it. -/
def plain : WrittenClassAttribute → WrittenAttribute
  | .innerClasses name entries => ⟨name, Bytes.ofList WrittenInnerClass.written entries⟩
  | .other attr => attr

/-- The nested classes that the attribute lists. -/
def entries : WrittenClassAttribute → List WrittenInnerClass
  | .innerClasses _ entries => entries
  | .other _ => []

/-- The bytes of an attribute of a class. -/
def written (attr : WrittenClassAttribute) : Bytes := attr.plain.written

/-- To whom does not look into them, the attributes of a class are written like all others. -/
theorem ofList_written (attrs : List WrittenClassAttribute) :
    Bytes.ofList written attrs = Bytes.ofList WrittenAttribute.written (attrs.map plain) := by
  rw [Bytes.ofList, Bytes.ofList, List.length_map, List.flatMap_map]
  rfl

/-- Whether an attribute of a class can be written, and its entries be counted. -/
structure Fits (attr : WrittenClassAttribute) : Prop where
  plain : attr.plain.Fits
  entries : attr.entries.length < 0x10000

instance (attr : WrittenClassAttribute) : Decidable attr.Fits :=
  decidable_of_iff (attr.plain.Fits ∧ attr.entries.length < 0x10000)
    ⟨fun h => ⟨h.1, h.2⟩, fun h => ⟨h.plain, h.entries⟩⟩

end WrittenClassAttribute

namespace WrittenClass

/-- What stands in the file before the members. -/
def writtenHeader (file : WrittenClass) : Bytes :=
  Bytes.bigEndian 4 magic ++ ((Bytes.ofWord file.minor ++ Bytes.ofWord file.major) ++
    (ConstantPool.written file.constants ++ (Bytes.ofWord file.access ++ (Bytes.ofWord file.this ++
      (Bytes.ofWord file.super ++ Bytes.ofList Bytes.ofWord file.interfaces)))))

/-- The bytes of a class file. -/
def written (file : WrittenClass) : Bytes :=
  file.writtenHeader ++ (Bytes.ofList WrittenMember.written file.fields ++
    (Bytes.ofList WrittenMember.written file.methods ++
      Bytes.ofList WrittenClassAttribute.written file.attributes))

/-- Whether a class file keeps to the limits of the format. -/
structure Fits (file : WrittenClass) : Prop where
  constants : ConstantPool.Fits file.constants
  interfaces : file.interfaces.length < 0x10000
  fields_length : file.fields.length < 0x10000
  fields : ∀ field ∈ file.fields, field.Fits
  methods_length : file.methods.length < 0x10000
  methods : ∀ method ∈ file.methods, method.Fits
  attributes_length : file.attributes.length < 0x10000
  attributes : ∀ attr ∈ file.attributes, attr.Fits

instance (file : WrittenClass) : Decidable file.Fits :=
  decidable_of_iff (ConstantPool.Fits file.constants ∧ file.interfaces.length < 0x10000 ∧
      (file.fields.length < 0x10000 ∧ ∀ field ∈ file.fields, field.Fits) ∧
      (file.methods.length < 0x10000 ∧ ∀ method ∈ file.methods, method.Fits) ∧
      file.attributes.length < 0x10000 ∧ ∀ attr ∈ file.attributes, attr.Fits)
    ⟨fun ⟨h₁, h₂, ⟨h₃, h₄⟩, ⟨h₅, h₆⟩, h₇, h₈⟩ => ⟨h₁, h₂, h₃, h₄, h₅, h₆, h₇, h₈⟩,
      fun ⟨h₁, h₂, h₃, h₄, h₅, h₆, h₇, h₈⟩ => ⟨h₁, h₂, ⟨h₃, h₄⟩, ⟨h₅, h₆⟩, h₇, h₈⟩⟩

end WrittenClass

end AccessTransformer.ClassFile
