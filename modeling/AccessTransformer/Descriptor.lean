/-!
# Field descriptors

A field's descriptor spells its type: a letter for a primitive type, `L`, a class name and `;` for
a class, and `[` before either for each array dimension.  A field type is named by the class for a
class type, and by the descriptor itself for all others.

Only the start of a descriptor has to be a type.  What follows a complete type is ignored, with
one exception: since the name of a class type is cut from the whole text, that text has to end in
the `;` which closes a class name.
-/

namespace AccessTransformer.Descriptor

/-- Why a text is no field descriptor. -/
inductive Fault where
  /-- A type is missing. -/
  | endOfInput
  /-- No `;` closes the class name. -/
  | missingSemicolon
  /-- An array has more than 255 dimensions. -/
  | tooManyDimensions
  /-- An array has a closing parenthesis for its elements. -/
  | invalidElement
  /-- A closing parenthesis stands for the type. -/
  | missingType
  /-- No type starts with this character. -/
  | unrecognized
  /-- The text of a class type goes on behind its `;`, and not up to another one. -/
  | openObject
  deriving DecidableEq, Repr

/-- The wording of a fault. -/
def Fault.message : Fault → String
  | .endOfInput => "parse field descriptor: Unexpected end of input."
  | .missingSemicolon =>
    "parse field descriptor: Invalid descriptor: Missing semicolon in class name descriptor."
  | .tooManyDimensions => "parse field descriptor: Array has too many dimensions."
  | .invalidElement => "parse field descriptor: Invalid descriptor: Invalid descriptor."
  | .missingType => "parse field descriptor: Invalid descriptor: Missing return type."
  | .unrecognized =>
    "parse field descriptor: Invalid descriptor: Unrecognized type descriptor."
  | .openObject => "malformed object descriptor"

/-- What a descriptor's first type is. -/
inductive Shape where
  /-- A class or interface. -/
  | object
  /-- A primitive type or an array. -/
  | other
  deriving DecidableEq, Repr

/-- The letters of the primitive types, with that of a method without result. -/
def primitives : List Char := ['Z', 'B', 'C', 'S', 'I', 'J', 'F', 'D', 'V']

/-- The shape of the type that starts a text and is no array.  `onClose` is the fault of a closing
parenthesis in its place. -/
def elementShape (onClose : Fault) : List Char → Except Fault Shape
  | [] => .error .endOfInput
  | first :: text =>
    if first ∈ primitives then .ok .other
    else if first = 'L' then
      if ';' ∈ text then .ok .object else .error .missingSemicolon
    else if first = ')' then .error onClose
    else .error .unrecognized

/-- The shape of the type that starts a text. -/
def shape (text : List Char) : Except Fault Shape :=
  let dimensions := (text.takeWhile (· = '[')).length
  if dimensions = 0 then elementShape .missingType text
  else if 255 < dimensions then .error .tooManyDimensions
  else (elementShape .invalidElement (text.drop dimensions)).map fun _ => .other

/-- The name of the class between `L` and the last `;`. -/
def objectName? (text : List Char) : Option (List Char) :=
  if text.getLast? = some ';' then some text.tail.dropLast else none

/-- The name of the type of a field with the given descriptor. -/
def typeName (descriptor : String) : Except Fault String :=
  match shape descriptor.toList with
  | .error fault => .error fault
  | .ok .other => .ok descriptor
  | .ok .object =>
    match objectName? descriptor.toList with
    | some name => .ok (String.ofList name)
    | none => .error .openObject

end AccessTransformer.Descriptor
