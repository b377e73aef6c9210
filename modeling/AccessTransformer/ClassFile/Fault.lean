import AccessTransformer.ClassFile.Constant

/-!
# Faults of class files

There are two ways to read a class file.  One skims it: it knows the members, skips every attribute
by its written length and looks into few.  The other dissects it: it reads every attribute by that
attribute's own form.  They notice different things, and so each has faults of its own;
`ClassFile.Fault` are those of skimming and of resolving constants, `ClassFile.FormFault` those of
dissecting.
-/

namespace AccessTransformer.ClassFile

/-- The constants that others refer to. -/
inductive Entry where
  | utf8
  | classInfo
  | methodRef
  | nameAndType
  deriving DecidableEq, Repr

/-- What messages call a constant that others refer to. -/
def Entry.name : Entry → String
  | .utf8 => "utf8 entry"
  | .classInfo => "class entry"
  | .methodRef => "method ref entry"
  | .nameAndType => "name and type entry"

/-- Why skimming a class file or resolving one of its constants fails. -/
inductive Fault where
  /-- The file ends too early. -/
  | outOfBounds
  /-- The file does not start like a class file. -/
  | badMagic
  /-- No constant has this tag. -/
  | unsupportedTag (tag : UInt8)
  /-- The pool has no such constant at this index. -/
  | missing (entry : Entry) (index : UInt16)
  /-- The pool ends before the index of the constant. -/
  | absent (entry : Entry)
  /-- The pool has another constant in the place. -/
  | unexpected (entry : Entry)
  deriving DecidableEq, Repr

/-- The wording of a fault. -/
def Fault.message : Fault → String
  | .outOfBounds => "class file out of bounds"
  | .badMagic => "invalid class file magic"
  | .unsupportedTag tag => s!"unsupported constant pool tag: {tag}"
  | .missing entry index => s!"missing {entry.name} #{index}"
  | .absent entry => s!"missing {entry.name}"
  | .unexpected entry => s!"unexpected {entry.name}"

/-- Why dissecting a class file fails.  Positions count from the start of the file. -/
inductive FormFault where
  /-- The file does not start like a class file. -/
  | notClassFile
  /-- A number that starts at `position` is cut off by the end of the file. -/
  | numberCut (position length : Nat)
  /-- A block that goes up to `stop` is cut off by the end of the file. -/
  | blockCut (stop length : Nat)
  /-- No constant has this tag. -/
  | unmatchedTag (tag : UInt8)
  /-- A text constant is no text. -/
  | notText
  /-- The pool ends before the index of an attribute's name. -/
  | noElement (index : UInt16)
  /-- An attribute's name is another constant than a text. -/
  | notUtf8 (constant : Constant)
  /-- No form is known for an attribute of this name. -/
  | unmatchedAttribute (name : String)
  /-- No annotation value has this tag. -/
  | elementTag (tag : UInt8)
  /-- No type annotation has this target. -/
  | targetType (target : UInt8)
  /-- No stack frame has this type. -/
  | frameType (type : UInt8)
  /-- No verification type has this tag. -/
  | verificationTag (tag : UInt8)
  /-- The class ends before the file does. -/
  | leftover (length position : Nat)
  deriving DecidableEq, Repr

/-- The wording of a fault. -/
def FormFault.message : FormFault → String
  | .notClassFile => "InvalidInput Error: Not a valid class-file"
  | .numberCut position length =>
    s!"I/O Error: overflow : attempt to read from {position} whereas len is {length}"
  | .blockCut stop length => s!"I/O Error: Index out of bounds: {stop} of {length}"
  | .unmatchedTag tag => s!"I/O Error: unmatched tag: {tag}"
  | .notText => "I/O Error: could not convert CESU-8 data to UTF-8"
  | .noElement index => s!"I/O Error: element not found at index {index}"
  | .notUtf8 constant => s!"I/O Error: element type is not Uint8 but {constant.describe}"
  | .unmatchedAttribute name => s!"I/O Error: unmatched attribute: {name}"
  | .elementTag tag => s!"I/O Error: Unsupported element tag: {tag}"
  | .targetType target => s!"I/O Error: Invalid target_type: {target}"
  | .frameType type => s!"I/O Error: Unsupported frame_type: {type}"
  | .verificationTag tag => s!"I/O Error: tag {tag} is not valid"
  | .leftover length position =>
    s!"I/O Error: Not all was read : data.len() is {length}, start_from is {position}"

end AccessTransformer.ClassFile
