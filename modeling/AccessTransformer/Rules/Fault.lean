/-!
# Faults of rule groups

A rule group widens classes, methods or fields.  A group for methods selects them by a predicate on
methods, one for fields by a predicate on fields, and one for classes has neither.  This module
names the kinds of groups and everything that can be wrong with a group before it is applied, and
the one thing that can be wrong with its result: that there is none.
-/

namespace AccessTransformer.Rules

/-- What a rule group emits lines for. -/
inductive Kind where
  | classes
  | methods
  | fields
  deriving DecidableEq, Repr

/-- The name of a kind, in rules files and in messages. -/
def Kind.name : Kind → String
  | .classes => "class"
  | .methods => "method"
  | .fields => "field"

/-- The member predicates that a rule group can have. -/
inductive MemberKey where
  | methods
  | fields
  deriving DecidableEq, Repr

/-- The name of a member predicate, in rules files and in messages. -/
def MemberKey.name : MemberKey → String
  | .methods => "methods"
  | .fields => "fields"

/-- Why a rule group is rejected. -/
inductive Fault where
  /-- The modifier's name is blank. -/
  | emptyModifierName
  /-- No access flag satisfies the modifier. -/
  | emptyFlagSet (modifier : String)
  /-- The name stands for no modifier. -/
  | unknownModifier (name : String)
  /-- The group's name is blank. -/
  | emptyGroupName
  /-- An earlier group has the same name. -/
  | duplicateGroup (name : String)
  /-- The group lacks the predicate that its kind selects by. -/
  | missingMemberPredicate (name : String) (kind : Kind) (expected : MemberKey)
  /-- The group has a predicate that its kind does not select by. -/
  | unexpectedMemberPredicate (name : String) (kind : Kind) (unexpected : MemberKey)
  /-- The group emits no line. -/
  | emptyGroup (name : String)
  deriving DecidableEq, Repr

/-- The wording of a fault. -/
def Fault.message : Fault → String
  | .emptyModifierName => "modifier name must not be empty"
  | .emptyFlagSet modifier => s!"modifier '{modifier}' accepts no access flags"
  | .unknownModifier name =>
    s!"unknown modifier '{name}', expected \"public\", \"protected\" or an explicit definition"
  | .emptyGroupName => "rule group name must not be empty"
  | .duplicateGroup name => s!"duplicate rule group '{name}'"
  | .missingMemberPredicate name kind expected =>
    s!"{kind.name} group '{name}' requires a '{expected.name}' predicate"
  | .unexpectedMemberPredicate name kind unexpected =>
    s!"{kind.name} group '{name}' must not declare a '{unexpected.name}' predicate"
  | .emptyGroup name => s!"generated AT group '{name}' found no entries"

end AccessTransformer.Rules
