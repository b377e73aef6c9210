import AccessTransformer.Rules.Modifier
import AccessTransformer.Rules.Predicate

/-!
# Rule groups

A rule group selects classes, or methods or fields of classes, and asks for a modifier.  An entry
of a rules file says so with a kind and up to two member predicates, of which the kind allows
exactly one or none; a group has the one that its kind selects by.

The entries of a rules file become groups in order.  The first entry with a fault decides, and
within an entry the modifier comes first, then the member predicates, then the entry's own name,
then the names of the entries before it.
-/

namespace AccessTransformer.Rules

/-- What a group selects within the classes that it selects. -/
inductive Target where
  /-- The class itself. -/
  | classes
  | methods (predicate : MethodPredicate)
  | fields (predicate : FieldPredicate)

/-- A named selection with the modifier that it asks for. -/
structure Group where
  name : String
  modifier : Modifier
  classes : ClassPredicate
  target : Target

/-- A group as a rules file has it. -/
structure GroupEntry where
  name : String
  modifier : ModifierEntry
  kind : Kind
  classes : ClassPredicate
  methods : Option MethodPredicate
  fields : Option FieldPredicate

/-- What a rules file holds. -/
structure RulesFile where
  groups : List GroupEntry

/-- The kind of what a target selects. -/
def Target.kind : Target → Kind
  | .classes => .classes
  | .methods _ => .methods
  | .fields _ => .fields

namespace GroupEntry

/-- The target of an entry, if it has just the member predicate that its kind selects by. -/
def target (entry : GroupEntry) : Except Fault Target :=
  match entry.kind, entry.methods, entry.fields with
  | .classes, none, none => .ok .classes
  | .classes, some _, _ => .error (.unexpectedMemberPredicate entry.name .classes .methods)
  | .classes, none, some _ => .error (.unexpectedMemberPredicate entry.name .classes .fields)
  | .methods, some methods, none => .ok (.methods methods)
  | .methods, some _, some _ => .error (.unexpectedMemberPredicate entry.name .methods .fields)
  | .methods, none, _ => .error (.missingMemberPredicate entry.name .methods .methods)
  | .fields, none, some fields => .ok (.fields fields)
  | .fields, some _, some _ => .error (.unexpectedMemberPredicate entry.name .fields .methods)
  | .fields, _, none => .error (.missingMemberPredicate entry.name .fields .fields)

/-- The group that an entry stands for. -/
def group (entry : GroupEntry) : Except Fault Group := do
  let modifier ← entry.modifier.modifier
  let target ← entry.target
  if Text.isBlank entry.name then .error .emptyGroupName
  else return { name := entry.name, modifier, classes := entry.classes, target }

/-- The groups that entries stand for, behind groups with the given names. -/
def groups (names : List String) : List GroupEntry → Except Fault (List Group)
  | [] => .ok []
  | entry :: entries => do
    let group ← entry.group
    if group.name ∈ names then .error (.duplicateGroup group.name)
    else return group :: (← groups (group.name :: names) entries)

end GroupEntry

/-- The groups of a rules file. -/
def RulesFile.resolve (file : RulesFile) : Except Fault (List Group) :=
  GroupEntry.groups [] file.groups

end AccessTransformer.Rules
