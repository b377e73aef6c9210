import AccessTransformer.Proofs.Descriptor.Reading
import AccessTransformer.Proofs.Rules.Meaning

/-!
# Methods by what they return

A predicate asks for the class that a method returns by the end of the method's descriptor: a
closing parenthesis, `L`, the name, and `;`.  Nothing is parsed, and the name can be any text.

This is exact all the same.  The descriptor of a method has a single closing parenthesis unless the
name of a class has one, so the end can only start where the return type does, and then it is all of
the return type.

* `MethodType`: the types of methods, and how they are spelled.
* `MethodType.descriptor_eq_append_iff`: which ends a descriptor has.
* `MethodPredicate.selects_returns_iff`: the methods that are selected by what they return.
-/

namespace AccessTransformer

namespace Descriptor

/-- The types that the parameters of a method have, and the one that it returns, if any. -/
structure MethodType where
  parameters : List FieldType
  result : Option FieldType
  deriving DecidableEq, Repr

/-- Whether a type is no class with a closing parenthesis in its name. -/
def ElementType.IsUnclosed : ElementType → Prop
  | .primitive _ => True
  | .object name => ')' ∉ name.toList

instance : (type : ElementType) → Decidable type.IsUnclosed
  | .primitive _ => inferInstanceAs (Decidable True)
  | .object name => inferInstanceAs (Decidable (')' ∉ name.toList))

namespace MethodType

/-- All types that are part of a method type. -/
def types (type : MethodType) : List FieldType := type.parameters ++ type.result.toList

/-- Whether a method can have the type. -/
def WellFormed (type : MethodType) : Prop := ∀ part ∈ type.types, part.WellFormed

/-- Whether no class in the type has a closing parenthesis in its name. -/
def IsUnclosed (type : MethodType) : Prop := ∀ part ∈ type.types, part.element.IsUnclosed

instance (type : MethodType) : Decidable type.WellFormed :=
  inferInstanceAs (Decidable (∀ part ∈ type.types, part.WellFormed))

instance (type : MethodType) : Decidable type.IsUnclosed :=
  inferInstanceAs (Decidable (∀ part ∈ type.types, part.element.IsUnclosed))

/-- The spelling of what a method returns, which is `V` if it returns nothing. -/
def returnDescriptor (type : MethodType) : String :=
  (type.result.map FieldType.descriptor).getD "V"

/-- The spelling of the parameters, in order. -/
def parameterText (type : MethodType) : List Char := type.parameters.flatMap FieldType.text

/-- The descriptor of a method: its parameters in parentheses, and what it returns. -/
def descriptor (type : MethodType) : String :=
  "(" ++ String.ofList type.parameterText ++ ")" ++ type.returnDescriptor

end MethodType

variable {type : MethodType} {className : String}

/-- The spelling of a type has no closing parenthesis of its own. -/
theorem FieldType.WellFormed.notMem_text {part : FieldType} (hformed : part.WellFormed)
    (h : part.element.IsUnclosed) : ')' ∉ part.text := by
  obtain ⟨dimensions, element⟩ := part
  rw [text, List.mem_append, List.mem_replicate, not_or]
  refine ⟨fun hbracket => absurd hbracket.2 (by decide), ?_⟩
  cases element with
  | primitive letter =>
    have hletters : ')' ∉ fieldLetters := by decide
    rw [ElementType.text, List.mem_singleton]
    rintro rfl
    exact hletters hformed.2
  | object name =>
    have hname : ')' ∉ name.toList := h
    simp [ElementType.text, hname]

/-- The only field type with the descriptor of a class is that class. -/
theorem FieldType.WellFormed.descriptor_eq_classDescriptor_iff {part : FieldType}
    (h : part.WellFormed) :
    part.descriptor = classDescriptor className ↔ part = ⟨0, .object className⟩ := by
  constructor
  · intro heq
    by_cases hclass : part.IsClass
    · obtain ⟨name, rfl⟩ := hclass
      rw [descriptor_object] at heq
      rw [Except.ok.inj ((typeName_eq_ok_iff.mpr (.inl rfl)).symm.trans
        (typeName_eq_ok_iff.mpr (.inl heq)))]
    · have htext : part.descriptor.toList = part.text ++ [] := by
        rw [FieldType.descriptor, String.toList_ofList, List.append_nil]
      exact absurd heq (ne_classDescriptor h.readable hclass _ htext _)
  · rintro rfl
    exact descriptor_object className

namespace MethodType

theorem toList_descriptor (type : MethodType) :
    type.descriptor.toList
      = ('(' :: type.parameterText) ++ ')' :: type.returnDescriptor.toList := by
  simp [descriptor]

/-- There is no closing parenthesis in front of the one behind the parameters. -/
theorem IsUnclosed.notMem_parameters (h : type.IsUnclosed) (hformed : type.WellFormed) :
    ')' ∉ '(' :: type.parameterText := by
  rw [List.mem_cons, parameterText, List.mem_flatMap]
  rintro (hopen | ⟨part, hpart, hmem⟩)
  · exact absurd hopen (by decide)
  · have htypes : part ∈ type.types := List.mem_append_left _ hpart
    exact (hformed part htypes).notMem_text (h part htypes) hmem

/-- There is no closing parenthesis in what a method returns. -/
theorem IsUnclosed.notMem_returnDescriptor (h : type.IsUnclosed) (hformed : type.WellFormed) :
    ')' ∉ type.returnDescriptor.toList := by
  cases hresult : type.result with
  | none =>
    rw [returnDescriptor, hresult]
    decide
  | some part =>
    have htypes : part ∈ type.types := List.mem_append_right _ (by simp [hresult])
    rw [returnDescriptor, hresult, Option.map_some, Option.getD_some, FieldType.descriptor,
      String.toList_ofList]
    exact (hformed part htypes).notMem_text (h part htypes)

/-- **A closing parenthesis in a descriptor stands in front of what the method returns.** -/
theorem descriptor_eq_append_iff (hformed : type.WellFormed) (h : type.IsUnclosed)
    {behind : String} :
    (∃ front, type.descriptor = front ++ ")" ++ behind) ↔ type.returnDescriptor = behind := by
  constructor
  · rintro ⟨front, hfront⟩
    have hsplit : ('(' :: type.parameterText) ++ ')' :: type.returnDescriptor.toList
        = front.toList ++ ')' :: behind.toList := by
      rw [← toList_descriptor, hfront]
      simp
    -- the parenthesis is in neither part of the descriptor, so both are cut at the same one
    rw [List.append_cons_inj_of_notMem (h.notMem_parameters hformed)
      (h.notMem_returnDescriptor hformed)] at hsplit
    exact String.toList_inj.mp hsplit.2.2
  · rintro rfl
    exact ⟨_, rfl⟩

/-- The return type that is spelled like a class is that class. -/
theorem returnDescriptor_eq_classDescriptor_iff (hformed : type.WellFormed) :
    type.returnDescriptor = classDescriptor className ↔
      type.result = some ⟨0, .object className⟩ := by
  cases hresult : type.result with
  | none =>
    rw [returnDescriptor, hresult, Option.map_none, Option.getD_none]
    refine iff_of_false (fun heq => ?_) nofun
    have hfirst := congrArg (fun text : String => text.toList.head?) heq
    simp [classDescriptor] at hfirst
  | some part =>
    have hpart : part.WellFormed :=
      hformed part (List.mem_append_right _ (by simp [hresult]))
    rw [returnDescriptor, hresult, Option.map_some, Option.getD_some, Option.some.injEq,
      hpart.descriptor_eq_classDescriptor_iff]

end MethodType

end Descriptor

namespace Rules

open Descriptor

/-- **A method is selected by the class that it returns exactly if its return type is this class**:
the descriptor of the class is all that stands behind the parameters.  A text that is no class name
selects no method. -/
theorem MethodPredicate.selects_returns_iff {type : MethodType} (hformed : type.WellFormed)
    (hunclosed : type.IsUnclosed) {method : Member} (hmethod : method.descriptor = type.descriptor)
    (className : String) :
    (MethodPredicate.selects (.test (.returns className)) method = true ↔
      type.returnDescriptor = "L" ++ className ++ ";") ∧
    (MethodPredicate.selects (.test (.returns className)) method = true ↔
      type.result = some ⟨0, .object className⟩) ∧
    (MethodPredicate.selects (.test (.returns className)) method = true →
      IsClassName className) := by
  have hselects : MethodPredicate.selects (.test (.returns className)) method = true ↔
      type.returnDescriptor = classDescriptor className := by
    rw [← MethodType.descriptor_eq_append_iff hformed hunclosed, ← hmethod]
    refine (MethodTest.passes_eq_true_iff (.returns className)).trans (exists_congr fun front => ?_)
    have hend : front ++ ")L" ++ className ++ ";" = front ++ ")" ++ classDescriptor className := by
      simp [classDescriptor, ← String.toList_inj]
    rw [hend]
  have hresult := hselects.trans (MethodType.returnDescriptor_eq_classDescriptor_iff hformed)
  refine ⟨hselects, hresult, fun h => ?_⟩
  have hclass : FieldType.WellFormed ⟨0, .object className⟩ :=
    hformed _ (List.mem_append_right _ (by simp [hresult.mp h]))
  exact hclass.2

/-- A method with parameters of the class that it returns, and of an array of that class. -/
def copied : MethodType :=
  ⟨[⟨0, .primitive 'I'⟩, ⟨0, .object "a/C"⟩, ⟨1, .object "a/C"⟩], some ⟨0, .object "a/C"⟩⟩

theorem selects_returns_iff_copied :
    copied.WellFormed ∧ copied.IsUnclosed ∧ copied.descriptor = "(ILa/C;[La/C;)La/C;" ∧
      MethodPredicate.selects (.test (.returns "a/C")) ⟨1, "copy", "(ILa/C;[La/C;)La/C;"⟩ = true ∧
      MethodPredicate.selects (.test (.returns "C")) ⟨1, "copy", "(ILa/C;[La/C;)La/C;"⟩
        = false := by
  have hformed : copied.WellFormed := by decide
  have hunclosed : copied.IsUnclosed := by decide
  have hdescriptor : copied.descriptor = "(ILa/C;[La/C;)La/C;" := by decide
  have hmethod : (⟨1, "copy", "(ILa/C;[La/C;)La/C;"⟩ : Member).descriptor = copied.descriptor :=
    hdescriptor.symm
  refine ⟨hformed, hunclosed, hdescriptor, ?_, ?_⟩
  · exact (MethodPredicate.selects_returns_iff hformed hunclosed hmethod "a/C").2.1.mpr rfl
  · rw [← Bool.not_eq_true,
      (MethodPredicate.selects_returns_iff hformed hunclosed hmethod "C").2.1]
    decide

end Rules

end AccessTransformer
