import AccessTransformer.ClassFile.Dissect

/-!
# Annotations and stack frames

The parts of attributes that have a form of their own: annotations with their values, the targets
of type annotations, and the frames of a stack map.  They hold no calls, so they are read to find
where they end.

Annotations nest.  Each level takes at least the byte that opens it, so the number of bytes behind
a place bounds the levels there: `elementValue` counts the levels down, and its last one is a value
that no byte is left for.
-/

namespace AccessTransformer.ClassFile.Dissect

/-! ## Annotations -/

/-- The tags of the values that take a word. -/
def wordTags : List Char := ['B', 'C', 'D', 'F', 'I', 'J', 'S', 'Z', 's', 'c']

/-- A value of an annotation, of at most so many levels. -/
def elementValue : Nat → Dissect Unit
  | 0 => do
    let _ ← u8
  | levels + 1 => do
    let tag ← u8
    let letter := Char.ofNat tag.toNat
    if letter ∈ wordTags then words 1
    else if letter = 'e' then words 2
    else if letter = '@' then
      words 1
      let _ ← counted16 do
        words 1
        elementValue levels
    else if letter = '[' then
      let _ ← counted16 (elementValue levels)
    else fail (.elementTag tag)

/-- A value of an annotation. -/
def annotationValue : Dissect Unit := do
  elementValue (← get).rest.length

/-- An annotation: its type, and its named values. -/
def annotation : Dissect Unit := do
  words 1
  let _ ← counted16 do
    words 1
    annotationValue

/-- What a type annotation is about: a target, with what its kind tells of the place. -/
def annotationTarget : Dissect Unit := do
  let target ← u8
  let kind := target.toNat
  if kind ∈ [0x00, 0x01, 0x16] then
    let _ ← u8
  else if kind ∈ [0x10, 0x17, 0x42, 0x43, 0x44, 0x45, 0x46] then words 1
  else if kind ∈ [0x11, 0x12] then
    let _ ← times u8 2
  else if kind ∈ [0x13, 0x14, 0x15] then pure ()
  else if kind ∈ [0x40, 0x41] then
    let _ ← counted16 (words 3)
  else if kind ∈ [0x47, 0x48, 0x49, 0x4a, 0x4b] then
    words 1
    let _ ← u8
  else fail (.targetType target)

/-- A type annotation: its target, the path into the type, and the annotation. -/
def typeAnnotation : Dissect Unit := do
  annotationTarget
  let _ ← counted8 (times u8 2)
  annotation

/-! ## Stack maps -/

/-- A verification type. -/
def verificationType : Dissect Unit := do
  let tag ← u8
  if tag.toNat ≤ 6 then pure ()
  else if tag.toNat ≤ 8 then words 1
  else fail (.verificationTag tag)

/-- A frame of a stack map. -/
def stackFrame : Dissect Unit := do
  let type ← u8
  let kind := type.toNat
  if kind ≤ 63 then pure ()
  else if kind ≤ 127 then verificationType
  else if kind ≤ 246 then fail (.frameType type)
  else if kind = 247 then
    words 1
    verificationType
  else if kind ≤ 251 then words 1
  else if kind ≤ 254 then
    words 1
    let _ ← times verificationType (kind - 251)
  else
    words 1
    let _ ← counted16 verificationType
    let _ ← counted16 verificationType

end AccessTransformer.ClassFile.Dissect
