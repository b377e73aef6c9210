import AccessTransformer.Descriptor
import Mathlib.Data.List.Basic

/-!
# Field types

The types that fields have in class files, and how they are spelled: a letter for a primitive type,
a class between `L` and `;`, and brackets in front of either for an array.  What a field type is
named by tells most of them apart, but not all: the letter of a primitive type is also the name of a
class in the default package.

More can be read as a type than a field can have, void for one.  Even so no type goes on where
another one ends, so a text starts with one type at most, and a spelling has one type.

* `FieldType.descriptor`, `IsFieldDescriptor`: the spelling of field types.
* `FieldType.Readable.eq_of_append_eq`: a text starts with one type at most.
* `FieldType.WellFormed.name_eq_iff`: the names of two field types are equal only if the types are,
  or if one is a primitive type and the other the class that has its letter as name.
-/

namespace AccessTransformer.Descriptor

/-- The letters of the primitive types of fields. -/
def fieldLetters : List Char := ['B', 'C', 'D', 'F', 'I', 'J', 'S', 'Z']

/-- A type that is no array. -/
inductive ElementType where
  | primitive (letter : Char)
  | object (name : String)
  deriving DecidableEq, Repr

/-- An element type in so many dimensions, none for a type that is no array. -/
structure FieldType where
  dimensions : Nat
  element : ElementType
  deriving DecidableEq, Repr

/-- Whether a text can stand for a class in a descriptor. -/
def IsClassName (name : String) : Prop := name ≠ "" ∧ ∀ c ∈ name.toList, c ∉ [';', '[', '.']

-- decided among the characters of the name, and not among all characters there are
instance (name : String) : Decidable (IsClassName name) :=
  have := List.decidableBAll (· ∉ [';', '[', '.']) name.toList
  inferInstanceAs (Decidable (_ ∧ _))

namespace ElementType

/-- Whether a field can have elements of the type. -/
def WellFormed : ElementType → Prop
  | .primitive letter => letter ∈ fieldLetters
  | .object name => IsClassName name

instance : (type : ElementType) → Decidable type.WellFormed
  | .primitive letter => inferInstanceAs (Decidable (letter ∈ fieldLetters))
  | .object name => inferInstanceAs (Decidable (IsClassName name))

/-- The spelling of an element type. -/
def text : ElementType → List Char
  | .primitive letter => [letter]
  | .object name => 'L' :: (name.toList ++ [';'])

end ElementType

namespace FieldType

/-- Whether a field can have the type. -/
def WellFormed (type : FieldType) : Prop := type.dimensions ≤ 255 ∧ type.element.WellFormed

instance (type : FieldType) : Decidable type.WellFormed := inferInstanceAs (Decidable (_ ∧ _))

/-- The spelling of a field type. -/
def text (type : FieldType) : List Char :=
  List.replicate type.dimensions '[' ++ type.element.text

/-- The descriptor of a field type. -/
def descriptor (type : FieldType) : String := String.ofList type.text

/-- What a field type is named by: a class by its name, and everything else by its descriptor. -/
def name : FieldType → String
  | ⟨0, .object name⟩ => name
  | type => type.descriptor

/-- Whether a field type is a class or interface. -/
def IsClass (type : FieldType) : Prop := ∃ name, type = ⟨0, .object name⟩

end FieldType

/-- Whether a text is a field descriptor. -/
def IsFieldDescriptor (text : String) : Prop :=
  ∃ type : FieldType, type.WellFormed ∧ type.descriptor = text

/-- Whether the first type is primitive, and the second the class that is named by its letter. -/
def FieldType.IsNamesake (type other : FieldType) : Prop :=
  ∃ letter ∈ fieldLetters,
    type = ⟨0, .primitive letter⟩ ∧ other = ⟨0, .object (String.singleton letter)⟩

/-! ## Types that are read -/

/-- Whether an element type is read: any letter of a type, that of void included, and a class
with any name that can be told from what follows. -/
def ElementType.Readable : ElementType → Prop
  | .primitive letter => letter ∈ 'V' :: fieldLetters
  | .object name => ';' ∉ name.toList

instance : (type : ElementType) → Decidable type.Readable
  | .primitive letter => inferInstanceAs (Decidable (letter ∈ 'V' :: fieldLetters))
  | .object name => inferInstanceAs (Decidable (';' ∉ name.toList))

/-- Whether a field type is read. -/
def FieldType.Readable (type : FieldType) : Prop := type.dimensions ≤ 255 ∧ type.element.Readable

instance (type : FieldType) : Decidable type.Readable := inferInstanceAs (Decidable (_ ∧ _))

variable {type other : FieldType} {element element' : ElementType} {text rest rest' : List Char}

namespace ElementType

theorem WellFormed.readable (h : element.WellFormed) : element.Readable := by
  cases element with
  | primitive letter => exact List.mem_cons_of_mem _ h
  | object name => exact fun hmem => h.2 ';' hmem (by decide)

/-- No readable element type starts with the bracket of an array. -/
theorem Readable.exists_text_eq_cons (h : element.Readable) :
    ∃ first rest, element.text = first :: rest ∧ first ≠ '[' := by
  cases element with
  | primitive letter =>
    refine ⟨letter, [], rfl, ?_⟩
    rintro rfl
    have hbracket : '[' ∉ 'V' :: fieldLetters := by decide
    exact absurd h hbracket
  | object name => exact ⟨'L', _, rfl, by decide⟩

/-- No element type goes on where another one ends. -/
theorem Readable.eq_of_append_eq (h : element.Readable) (h' : element'.Readable)
    (heq : element.text ++ rest = element'.text ++ rest') : element = element' ∧ rest = rest' := by
  have hletter : 'L' ∉ 'V' :: fieldLetters := by decide
  cases element with
  | primitive letter =>
    cases element' with
    | primitive letter' =>
      obtain ⟨rfl, rfl⟩ := List.cons.inj heq
      exact ⟨rfl, rfl⟩
    | object name' =>
      obtain ⟨rfl, -⟩ := List.cons.inj heq
      exact absurd h hletter
  | object name =>
    cases element' with
    | primitive letter' =>
      obtain ⟨rfl, -⟩ := List.cons.inj heq
      exact absurd h' hletter
    | object name' =>
      have htail : name.toList ++ [';'] ++ rest = name'.toList ++ [';'] ++ rest' :=
        (List.cons.inj heq).2
      rw [List.append_assoc, List.append_assoc, List.singleton_append, List.singleton_append]
        at htail
      obtain rfl : name = name' := by
        have hends : ∀ {name : String}, ';' ∉ name.toList → ∀ rest,
            (name.toList ++ ';' :: rest).takeWhile (· ≠ ';') = name.toList := by
          intro name hname rest
          have hother : ∀ c ∈ name.toList, decide (c ≠ ';') = true := fun c hc =>
            decide_eq_true (ne_of_mem_of_not_mem hc hname)
          rw [List.takeWhile_append_of_pos hother, List.takeWhile_cons_of_neg (by simp),
            List.append_nil]
        rw [← String.toList_inj, ← hends h rest, htail, hends h']
      exact ⟨rfl, (List.cons.inj (List.append_cancel_left htail)).2⟩

end ElementType

namespace FieldType

theorem WellFormed.readable (h : type.WellFormed) : type.Readable := ⟨h.1, h.2.readable⟩

/-- The brackets in front of a text that starts with a type are those of its dimensions. -/
theorem Readable.takeWhile_text_append (h : type.Readable) (rest : List Char) :
    (type.text ++ rest).takeWhile (· = '[') = List.replicate type.dimensions '[' := by
  obtain ⟨first, behind, htext, hfirst⟩ := h.2.exists_text_eq_cons
  rw [text, htext, List.append_assoc, List.takeWhile_append_of_pos (by simp), List.cons_append,
    List.takeWhile_cons_of_neg (by simpa), List.append_nil]

/-- **A text starts with one type at most.** -/
theorem Readable.eq_of_append_eq (h : type.Readable) (h' : other.Readable)
    (heq : type.text ++ rest = other.text ++ rest') : type = other ∧ rest = rest' := by
  have hdimensions : type.dimensions = other.dimensions := by
    have hbrackets := congrArg (List.takeWhile (· = '[')) heq
    rw [h.takeWhile_text_append, h'.takeWhile_text_append] at hbrackets
    simpa using congrArg List.length hbrackets
  obtain ⟨dimensions, element⟩ := type
  obtain ⟨dimensions', element'⟩ := other
  obtain rfl : dimensions = dimensions' := hdimensions
  rw [text, text, List.append_assoc, List.append_assoc] at heq
  obtain ⟨rfl, rfl⟩ := h.2.eq_of_append_eq h'.2 (List.append_cancel_left heq)
  exact ⟨rfl, rfl⟩

/-- A field type has one spelling, and a spelling one field type. -/
theorem WellFormed.eq_of_descriptor_eq (h : type.WellFormed) (h' : other.WellFormed)
    (heq : type.descriptor = other.descriptor) : type = other :=
  (h.readable.eq_of_append_eq h'.readable
    (congrArg (· ++ []) (String.ofList_inj.mp heq))).1

/-! ## Names -/

/-- A field type that is no class is named by its descriptor. -/
theorem name_eq_descriptor (h : ¬type.IsClass) : type.name = type.descriptor := by
  unfold name
  split
  · exact absurd ⟨_, rfl⟩ h
  · rfl

/-- A class has the name of another field type only if that is the primitive type of its letter. -/
theorem isNamesake_of_descriptor_eq {className : String} (hclass : IsClassName className)
    (h : type.WellFormed) (hnot : ¬type.IsClass) (heq : type.descriptor = className) :
    type.IsNamesake ⟨0, .object className⟩ := by
  obtain ⟨dimensions, element⟩ := type
  cases dimensions with
  | zero =>
    cases element with
    | primitive letter => exact ⟨letter, h.2, rfl, by rw [← heq]; rfl⟩
    | object name => exact absurd ⟨name, rfl⟩ hnot
  | succ dimensions =>
    have hbracket : '[' ∈ className.toList := by
      rw [← heq, descriptor, String.toList_ofList, text, List.replicate_succ]
      exact List.mem_cons_self
    exact absurd (hclass.2 '[' hbracket) (by decide)

/-- **The names of two field types are equal only if the types are, or if one is a primitive type
and the other the class that has its letter as name.** -/
theorem WellFormed.name_eq_iff (h : type.WellFormed) (h' : other.WellFormed) :
    type.name = other.name ↔ type = other ∨ type.IsNamesake other ∨ other.IsNamesake type := by
  constructor
  · intro heq
    by_cases hclass : type.IsClass
    · obtain ⟨className, rfl⟩ := hclass
      by_cases hclass' : other.IsClass
      · obtain ⟨className', rfl⟩ := hclass'
        obtain rfl : className = className' := heq
        exact Or.inl rfl
      · rw [name_eq_descriptor hclass'] at heq
        exact Or.inr (Or.inr (isNamesake_of_descriptor_eq h.2 h' hclass' heq.symm))
    · rw [name_eq_descriptor hclass] at heq
      by_cases hclass' : other.IsClass
      · obtain ⟨className', rfl⟩ := hclass'
        exact Or.inr (Or.inl (isNamesake_of_descriptor_eq h'.2 h hclass heq))
      · rw [name_eq_descriptor hclass'] at heq
        exact Or.inl (h.eq_of_descriptor_eq h' heq)
  · rintro (rfl | ⟨letter, -, rfl, rfl⟩ | ⟨letter, -, rfl, rfl⟩)
    · rfl
    · rfl
    · rfl

end FieldType

end AccessTransformer.Descriptor
