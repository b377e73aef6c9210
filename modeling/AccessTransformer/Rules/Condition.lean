/-!
# Conditions

A condition is put together from tests with the usual connectives.  What can be tested is a matter
of what the condition is about: classes, methods and fields have tests of their own, and the same
conditions over them.  A condition on nothing, all of none, holds; any of none does not.
-/

namespace AccessTransformer.Rules

/-- A combination of tests. -/
inductive Condition (α : Type) where
  /-- Holds of everything. -/
  | always
  /-- A single test. -/
  | test (test : α)
  /-- Holds if all of the conditions do. -/
  | all (conditions : List (Condition α))
  /-- Holds if one of the conditions does. -/
  | any (conditions : List (Condition α))
  /-- Holds if the condition does not. -/
  | negation (condition : Condition α)
  deriving Repr

namespace Condition

variable {α : Type}

mutual

/-- Whether a condition holds, given the result of each test. -/
def holds (result : α → Bool) : Condition α → Bool
  | .always => true
  | .test a => result a
  | .all conditions => allHold result conditions
  | .any conditions => anyHolds result conditions
  | .negation condition => !holds result condition

/-- Whether all of the conditions hold. -/
def allHold (result : α → Bool) : List (Condition α) → Bool
  | [] => true
  | condition :: conditions => holds result condition && allHold result conditions

/-- Whether one of the conditions holds. -/
def anyHolds (result : α → Bool) : List (Condition α) → Bool
  | [] => false
  | condition :: conditions => holds result condition || anyHolds result conditions

end

theorem allHold_eq_all (result : α → Bool) (conditions : List (Condition α)) :
    allHold result conditions = conditions.all (holds result) := by
  induction conditions with
  | nil => rfl
  | cons condition conditions ih => simp [allHold, ih]

theorem anyHolds_eq_any (result : α → Bool) (conditions : List (Condition α)) :
    anyHolds result conditions = conditions.any (holds result) := by
  induction conditions with
  | nil => rfl
  | cons condition conditions ih => simp [anyHolds, ih]

end Condition

end AccessTransformer.Rules
