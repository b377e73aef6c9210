import AccessTransformer.Proofs.Descriptor
import Mathlib.Data.List.Basic
import Mathlib.Tactic.Tauto
import Mathlib.Tactic.SplitIfs

/-!
# Which texts are read as field descriptors

Only the start of a text is read as a type, and what is read there is more than a field can have:
void, and a class whose name is empty or has a dot or a bracket in it.  So besides the field
descriptors there are texts that are misread as such.  A class is named by all that stands between
`L` and the last `;`, so nothing is ignored behind the name of a class, but what is named may have a
`;` in it then.

Since a text starts with one type at most, a misread text is never a field descriptor.

* `IsMisread`: the texts that are read as field descriptors and are none.
* `typeName_eq_ok_iff`: what a text is read as.
* `FieldType.WellFormed.typeName_descriptor`: every field type has a name.
* `exists_typeName_eq_ok_iff`, `not_isMisread`: which texts are read.
-/

namespace AccessTransformer.Descriptor

/-- The descriptor of the class with the given name. -/
def classDescriptor (name : String) : String := "L" ++ name ++ ";"

/-- Whether a text is read as a field descriptor though it is none: it is the descriptor of a class
that cannot exist, or a primitive type or an array stands in front of something else or is no type
of a field. -/
def IsMisread (text : String) : Prop :=
  (∃ name, ¬IsClassName name ∧ text = classDescriptor name) ∨
    ∃ type : FieldType, ∃ rest, type.Readable ∧ ¬type.IsClass ∧
      (rest ≠ "" ∨ ¬type.WellFormed) ∧ text = type.descriptor ++ rest

variable {type other : FieldType} {element element' : ElementType} {name descriptor : String}
  {text rest rest' : List Char} {letter : Char}

theorem mem_primitives_iff : letter ∈ primitives ↔ letter ∈ 'V' :: fieldLetters := by
  simp only [primitives, fieldLetters, List.mem_cons, List.not_mem_nil, or_false]
  tauto

theorem text_object (name : String) :
    FieldType.text ⟨0, .object name⟩ = (classDescriptor name).toList := by
  simp [classDescriptor, FieldType.text, ElementType.text]

theorem descriptor_object (name : String) :
    FieldType.descriptor ⟨0, .object name⟩ = classDescriptor name := by
  rw [FieldType.descriptor, text_object, String.ofList_toList]

theorem toList_descriptor_append (type : FieldType) (rest : String) :
    (type.descriptor ++ rest).toList = type.text ++ rest.toList := by
  rw [String.toList_append, FieldType.descriptor, String.toList_ofList]

namespace FieldType

/-- The shape of a field type. -/
def shape : FieldType → Shape
  | ⟨0, .object _⟩ => .object
  | _ => .other

theorem shape_eq_object_iff : type.shape = .object ↔ type.IsClass := by
  obtain ⟨_ | dimensions, _ | name⟩ := type <;> simp [shape, IsClass]

theorem shape_eq_other_iff : type.shape = .other ↔ ¬type.IsClass := by
  obtain ⟨_ | dimensions, _ | name⟩ := type <;> simp [shape, IsClass]

end FieldType

/-! ## What is read at the start of a text -/

/-- The type that starts a text without brackets. -/
theorem elementShape_eq_ok_iff {onClose : Fault} {found : Shape} :
    elementShape onClose text = .ok found ↔ ∃ element rest, ElementType.Readable element ∧
      text = element.text ++ rest ∧ found = FieldType.shape ⟨0, element⟩ := by
  constructor
  · intro h
    cases text with
    | nil => cases h
    | cons first text =>
      rw [elementShape] at h
      split_ifs at h with hprimitive hobject hclosed hparen
      · obtain rfl := Except.ok.inj h
        exact ⟨.primitive first, text, mem_primitives_iff.mp hprimitive, rfl, rfl⟩
      · obtain rfl := Except.ok.inj h
        obtain ⟨name, rest, rfl, hname⟩ := List.eq_append_cons_of_mem hclosed
        refine ⟨.object (String.ofList name), rest, ?_, ?_, rfl⟩
        · rwa [ElementType.Readable, String.toList_ofList]
        · simp [ElementType.text, hobject]
  · rintro ⟨element, rest, hreadable, rfl, rfl⟩
    cases element with
    | primitive letter =>
      show elementShape onClose (letter :: rest) = _
      rw [elementShape, if_pos (mem_primitives_iff.mpr hreadable)]
      rfl
    | object name =>
      show elementShape onClose ('L' :: (name.toList ++ [';'] ++ rest)) = _
      rw [elementShape, if_neg (by decide), if_pos rfl, if_pos (by simp)]
      rfl

/-- The brackets in front of a text are the dimensions, and the element type is behind them. -/
theorem eq_replicate_append_drop (text : List Char) :
    text = List.replicate (text.takeWhile (· = '[')).length '['
      ++ text.drop (text.takeWhile (· = '[')).length := by
  have hbrackets : text.takeWhile (· = '[')
      = List.replicate (text.takeWhile (· = '[')).length '[' := by
    refine List.eq_replicate_of_mem fun c hc => ?_
    simpa using List.all_eq_true.mp (List.all_takeWhile (p := (· = '['))) c hc
  rw [← hbrackets]
  conv_lhs => rw [← List.take_append_drop (text.takeWhile (· = '[')).length text,
    ← List.prefix_iff_eq_take.mp (List.takeWhile_prefix (· = '['))]

/-- The type that starts a text. -/
theorem shape_eq_ok_iff {found : Shape} : shape text = .ok found ↔
    ∃ type rest, FieldType.Readable type ∧ text = type.text ++ rest ∧ found = type.shape := by
  constructor
  · intro h
    have hsplit := eq_replicate_append_drop text
    rw [shape] at h
    generalize (text.takeWhile (· = '[')).length = dimensions at h hsplit
    split_ifs at h with hzero hmany
    · obtain ⟨element, rest, hreadable, htext, rfl⟩ := elementShape_eq_ok_iff.mp h
      exact ⟨⟨0, element⟩, rest, ⟨Nat.zero_le _, hreadable⟩, htext, rfl⟩
    · rcases helement : elementShape .invalidElement (text.drop dimensions) with _ | found'
      · rw [helement] at h
        cases h
      · rw [helement] at h
        obtain rfl := Except.ok.inj h
        obtain ⟨element, rest, hreadable, htext, -⟩ := elementShape_eq_ok_iff.mp helement
        obtain ⟨dimensions, rfl⟩ := Nat.exists_eq_succ_of_ne_zero hzero
        refine ⟨⟨dimensions + 1, element⟩, rest, ⟨Nat.not_lt.mp hmany, hreadable⟩, ?_, rfl⟩
        rw [hsplit, htext, FieldType.text, List.append_assoc]
  · rintro ⟨type, rest, hreadable, rfl, rfl⟩
    have hdimensions : ((type.text ++ rest).takeWhile (· = '[')).length = type.dimensions := by
      rw [hreadable.takeWhile_text_append, List.length_replicate]
    have hdrop : (type.text ++ rest).drop type.dimensions = type.element.text ++ rest := by
      rw [FieldType.text, List.append_assoc, List.drop_left' (by simp)]
    have helement : ∀ onClose, elementShape onClose (type.element.text ++ rest)
        = .ok (FieldType.shape ⟨0, type.element⟩) := fun _ =>
      elementShape_eq_ok_iff.mpr ⟨type.element, rest, hreadable.2, rfl, rfl⟩
    obtain ⟨_ | dimensions, element⟩ := type
    · rw [shape, hdimensions, if_pos rfl]
      exact helement _
    · rw [shape, hdimensions, if_neg (Nat.succ_ne_zero _),
        if_neg (Nat.not_lt.mpr hreadable.1), hdrop, helement]
      rfl

/-! ## What a text is read as -/

theorem objectName?_eq_some_iff {found : List Char} : objectName? ('L' :: text) = some found ↔
    text = found ++ [';'] := by
  rw [objectName?, List.tail_cons]
  constructor
  · intro h
    split_ifs at h with hlast
    obtain rfl := Option.some.inj h
    cases text with
    | nil => cases hlast
    | cons c text =>
      rw [List.getLast?_cons_cons] at hlast
      exact (List.dropLast_append_getLast? ';' hlast).symm
  · rintro rfl
    rw [← List.cons_append, List.getLast?_concat, if_pos rfl, List.dropLast_concat]

/-- A descriptor of a class has a name that ends somewhere. -/
theorem exists_readable_of_classDescriptor (name : String) :
    ∃ type rest, FieldType.Readable type ∧ (classDescriptor name).toList = type.text ++ rest ∧
      type.IsClass := by
  have hends : ';' ∈ name.toList ++ [';'] := by simp
  obtain ⟨front, rest, hsplit, hfront⟩ := List.eq_append_cons_of_mem hends
  refine ⟨⟨0, .object (String.ofList front)⟩, rest, ⟨Nat.zero_le _, ?_⟩, ?_, ⟨_, rfl⟩⟩
  · show ';' ∉ (String.ofList front).toList
    rwa [String.toList_ofList]
  · have htext : (classDescriptor name).toList = 'L' :: (name.toList ++ [';']) := by
      simp [classDescriptor]
    rw [htext, hsplit]
    simp [FieldType.text, ElementType.text]

/-- A text that starts with something else than a class is no descriptor of a class. -/
theorem ne_classDescriptor {type : FieldType} {rest : List Char} (hreadable : type.Readable)
    (hclass : ¬type.IsClass) (name : String) (h : name.toList = type.text ++ rest)
    (className : String) : name ≠ classDescriptor className := by
  rintro rfl
  obtain ⟨other, rest', hreadable', htext, hclass'⟩ := exists_readable_of_classDescriptor className
  obtain ⟨rfl, -⟩ := hreadable'.eq_of_append_eq hreadable (htext.symm.trans h)
  exact hclass hclass'

/-- **What a text is read as.**  The descriptor of a class is read as the name in it, and a text
that starts with another type as itself. -/
theorem typeName_eq_ok_iff : typeName descriptor = .ok name ↔
    descriptor = classDescriptor name ∨ name = descriptor ∧
      ∃ type rest, FieldType.Readable type ∧ ¬type.IsClass ∧
        descriptor.toList = type.text ++ rest := by
  constructor
  · intro h
    rw [typeName] at h
    split at h
    · cases h
    · rename_i hshape
      obtain ⟨type, rest, hreadable, htext, hother⟩ := shape_eq_ok_iff.mp hshape
      exact Or.inr ⟨(Except.ok.inj h).symm, type, rest, hreadable,
        FieldType.shape_eq_other_iff.mp hother.symm, htext⟩
    · rename_i hshape
      obtain ⟨type, rest, -, htext, hobject⟩ := shape_eq_ok_iff.mp hshape
      obtain ⟨className, rfl⟩ := FieldType.shape_eq_object_iff.mp hobject.symm
      split at h
      · rename_i found hfound
        obtain rfl := Except.ok.inj h
        rw [htext] at hfound
        have hbehind := objectName?_eq_some_iff.mp hfound
        refine Or.inl (String.toList_inj.mp ?_)
        rw [htext, classDescriptor]
        simpa [FieldType.text, ElementType.text] using hbehind
      · cases h
  · rintro (rfl | ⟨rfl, type, rest, hreadable, hclass, htext⟩)
    · obtain ⟨type, rest, hreadable, htext, hclass⟩ := exists_readable_of_classDescriptor name
      have hshape : shape (classDescriptor name).toList = .ok .object := shape_eq_ok_iff.mpr
        ⟨type, rest, hreadable, htext, (FieldType.shape_eq_object_iff.mpr hclass).symm⟩
      have hname : objectName? (classDescriptor name).toList = some name.toList := by
        rw [show (classDescriptor name).toList = 'L' :: (name.toList ++ [';']) by
          simp [classDescriptor]]
        exact objectName?_eq_some_iff.mpr rfl
      rw [typeName, hshape, hname]
      exact congrArg Except.ok String.ofList_toList
    · have hshape : shape name.toList = .ok .other := shape_eq_ok_iff.mpr
        ⟨type, rest, hreadable, htext, (FieldType.shape_eq_other_iff.mpr hclass).symm⟩
      rw [typeName, hshape]

/-- **Every field type has a name.** -/
theorem FieldType.WellFormed.typeName_descriptor (h : type.WellFormed) :
    typeName type.descriptor = .ok type.name := by
  by_cases hclass : type.IsClass
  · obtain ⟨className, rfl⟩ := hclass
    exact typeName_eq_ok_iff.mpr (Or.inl (descriptor_object className))
  · rw [FieldType.name_eq_descriptor hclass]
    have htext : type.descriptor.toList = type.text ++ [] := by
      rw [FieldType.descriptor, String.toList_ofList, List.append_nil]
    exact typeName_eq_ok_iff.mpr (Or.inr ⟨rfl, type, [], h.readable, hclass, htext⟩)

/-! ## Which texts are read -/

/-- **The texts that are read are the field descriptors and those that are misread.** -/
theorem exists_typeName_eq_ok_iff : (∃ name, typeName descriptor = .ok name) ↔
    IsFieldDescriptor descriptor ∨ IsMisread descriptor := by
  constructor
  · rintro ⟨name, h⟩
    rcases typeName_eq_ok_iff.mp h with rfl | ⟨-, type, rest, hreadable, hclass, htext⟩
    · by_cases hname : IsClassName name
      · exact Or.inl ⟨⟨0, .object name⟩, ⟨Nat.zero_le _, hname⟩, descriptor_object name⟩
      · exact Or.inr (Or.inl ⟨name, hname, rfl⟩)
    · have heq : descriptor = type.descriptor ++ String.ofList rest := by
        rw [← String.toList_inj, toList_descriptor_append, htext, String.toList_ofList]
      by_cases hfield : rest = [] ∧ type.WellFormed
      · refine Or.inl ⟨type, hfield.2, ?_⟩
        rw [heq, hfield.1, String.ofList_nil, String.append_empty]
      · refine Or.inr (Or.inr ⟨type, String.ofList rest, hreadable, hclass, ?_, heq⟩)
        rwa [not_and_or, ← String.ofList_inj, String.ofList_nil] at hfield
  · rintro (⟨type, htype, rfl⟩ | ⟨name, -, rfl⟩ | ⟨type, rest, hreadable, hclass, -, rfl⟩)
    · exact ⟨type.name, htype.typeName_descriptor⟩
    · exact ⟨name, typeName_eq_ok_iff.mpr (Or.inl rfl)⟩
    · exact ⟨_, typeName_eq_ok_iff.mpr
        (Or.inr ⟨rfl, type, _, hreadable, hclass, toList_descriptor_append type rest⟩)⟩

/-- **No field descriptor is misread.** -/
theorem IsFieldDescriptor.not_isMisread (h : IsFieldDescriptor descriptor) :
    ¬IsMisread descriptor := by
  obtain ⟨type, htype, rfl⟩ := h
  rintro (⟨name, hname, heq⟩ | ⟨other, rest, hreadable, hclass, hstray, heq⟩)
  · by_cases hclass : type.IsClass
    · obtain ⟨className, rfl⟩ := hclass
      rw [descriptor_object] at heq
      obtain rfl : className = name := Except.ok.inj
        ((typeName_eq_ok_iff.mpr (Or.inl rfl)).symm.trans (typeName_eq_ok_iff.mpr (Or.inl heq)))
      exact hname htype.2
    · have htext : type.descriptor.toList = type.text ++ [] := by
        rw [FieldType.descriptor, String.toList_ofList, List.append_nil]
      exact ne_classDescriptor htype.readable hclass _ htext _ heq
  · have htext : type.text ++ [] = other.text ++ rest.toList := by
      rw [← toList_descriptor_append, ← heq, FieldType.descriptor, String.toList_ofList,
        List.append_nil]
    obtain ⟨rfl, hrest⟩ := htype.readable.eq_of_append_eq hreadable htext
    rcases hstray with hrest' | hformed
    · exact hrest' (String.toList_inj.mp hrest.symm)
    · exact hformed htype

end AccessTransformer.Descriptor
