import AccessTransformer.Json.Shape
import AccessTransformer.Json.Value
import AccessTransformer.Rules.Group

/-!
# The spelling of rules

Rules are written in JSON.  A rules file is an object whose only field is the list of groups; a
group is an object too, with its member predicates left out where it has none.  Both may also be
arrays of their fields in order.  No other field is allowed in either, and none twice.

A condition is an alternative: its connectives have names of their own, and every kind of test
brings names for its tests, its vocabulary.

A modifier is a string or an object.  Since its first character does not tell whether it is one or
the other, it is gone through as a whole before it is taken to be either, and then the fields of
the object that mean nothing are passed over.
-/

namespace AccessTransformer.Rules

open Json (Tree Tail Value)

/-! ## Conditions -/

/-- The names of tests, with what goes with each. -/
structure Vocabulary (α : Type) where
  /-- How to read what goes with a name. -/
  read? : String → Option (Tree → Except Json.Fault α)
  /-- The name of a test, and what goes with it. -/
  write : α → String × Value

namespace Condition

variable {α : Type}

mutual

/-- The condition that a tree stands for. -/
def ofTree (vocabulary : Vocabulary α) : Tree → Except Json.Fault (Condition α)
  | .scalar (.string name) => if name = "match_any" then .ok .always else .error .mismatched
  | .object ((key, payload) :: more) tail =>
    if key = "match_any" then do
      payload.null
      Tree.loneMember more tail
      return .always
    else if key = "all" then do
      let conditions ← listOfTree vocabulary payload
      Tree.loneMember more tail
      return .all conditions
    else if key = "any_of" then do
      let conditions ← listOfTree vocabulary payload
      Tree.loneMember more tail
      return .any conditions
    else if key = "not" then do
      let condition ← ofTree vocabulary payload
      Tree.loneMember more tail
      return .negation condition
    else
      match vocabulary.read? key with
      | some read => do
        let test ← read payload
        Tree.loneMember more tail
        return .test test
      | none => .error .mismatched
  | tree => .error tree.choiceFault

/-- The conditions that a tree stands for. -/
def listOfTree (vocabulary : Vocabulary α) : Tree → Except Json.Fault (List (Condition α))
  | .array items tail => do
    let conditions ← ofItems vocabulary items
    tail.check
    return conditions
  | .gap gap => .error gap.fault
  | _ => .error .mismatched

/-- The conditions that the items of an array stand for. -/
def ofItems (vocabulary : Vocabulary α) : List Tree → Except Json.Fault (List (Condition α))
  | [] => .ok []
  | item :: items => do
    let condition ← ofTree vocabulary item
    return condition :: (← ofItems vocabulary items)

end

mutual

/-- How a condition is written. -/
def toValue (vocabulary : Vocabulary α) : Condition α → Value
  | .always => .string "match_any"
  | .test a => .object [vocabulary.write a]
  | .all conditions => .object [("all", .array (toValues vocabulary conditions))]
  | .any conditions => .object [("any_of", .array (toValues vocabulary conditions))]
  | .negation condition => .object [("not", toValue vocabulary condition)]

/-- How conditions are written. -/
def toValues (vocabulary : Vocabulary α) : List (Condition α) → List Value
  | [] => []
  | condition :: conditions => toValue vocabulary condition :: toValues vocabulary conditions

end

end Condition

/-! ## Predicates -/

/-- The names of the tests on classes. -/
def ClassTest.vocabulary : Vocabulary ClassTest where
  read? name :=
    if name = "named" then some fun tree => tree.string.map .named
    else if name = "has_superclass" then some fun tree => tree.string.map .hasSuperclass
    else if name = "inner_class_of" then some fun tree => tree.string.map .innerClassOf
    else none
  write
    | .named name => ("named", .string name)
    | .hasSuperclass name => ("has_superclass", .string name)
    | .innerClassOf outer => ("inner_class_of", .string outer)

/-- The predicate on classes that a tree stands for. -/
def ClassPredicate.ofTree : Tree → Except Json.Fault ClassPredicate :=
  Condition.ofTree ClassTest.vocabulary

/-- How a predicate on classes is written. -/
def ClassPredicate.toValue : ClassPredicate → Value :=
  Condition.toValue ClassTest.vocabulary

/-- The names of the tests on methods. -/
def MethodTest.vocabulary : Vocabulary MethodTest where
  read? name :=
    if name = "named" then some fun tree => tree.string.map .named
    else if name = "returns" then some fun tree => tree.string.map .returns
    else if name = "descriptor" then some fun tree => tree.string.map .descriptor
    else none
  write
    | .named name => ("named", .string name)
    | .returns className => ("returns", .string className)
    | .descriptor text => ("descriptor", .string text)

/-- The predicate on methods that a tree stands for. -/
def MethodPredicate.ofTree : Tree → Except Json.Fault MethodPredicate :=
  Condition.ofTree MethodTest.vocabulary

/-- How a predicate on methods is written. -/
def MethodPredicate.toValue : MethodPredicate → Value :=
  Condition.toValue MethodTest.vocabulary

/-- The names of the tests on fields. -/
def FieldTest.vocabulary : Vocabulary FieldTest where
  read? name :=
    if name = "named" then some fun tree => tree.string.map .named
    else if name = "of_type" then some fun tree => (ClassPredicate.ofTree tree).map .ofType
    else none
  write
    | .named name => ("named", .string name)
    | .ofType type => ("of_type", type.toValue)

/-- The predicate on fields that a tree stands for. -/
def FieldPredicate.ofTree : Tree → Except Json.Fault FieldPredicate :=
  Condition.ofTree FieldTest.vocabulary

/-- How a predicate on fields is written. -/
def FieldPredicate.toValue : FieldPredicate → Value :=
  Condition.toValue FieldTest.vocabulary

/-! ## Modifiers -/

namespace ModifierEntry

/-- The values of the members with the given key. -/
def valuesOf (key : String) (members : List (String × Tree)) : List Tree :=
  (members.filter fun member => member.1 = key).map (·.2)

/-- The access flags that an item stands for. -/
def flags : Tree → Except Json.Fault UInt16
  | .scalar (.number (.natural n)) =>
    if n < 0x10000 then .ok (UInt16.ofNat n) else .error .mismatched
  | _ => .error .mismatched

/-- The definition that the members of an object stand for. -/
def ofMembers (members : List (String × Tree)) : Except Json.Fault ModifierEntry :=
  match valuesOf "name" members, valuesOf "requires_final" members,
    valuesOf "acceptable_flags" members with
  | [.scalar (.string name)], [], [.array items _] =>
    (items.mapM flags).map (.explicit name false)
  | [.scalar (.string name)], [.scalar (.bool requiresFinal)], [.array items _] =>
    (items.mapM flags).map (.explicit name requiresFinal)
  | _, _, _ => .error .mismatched

/-- The modifier that a tree stands for. -/
def ofTree (tree : Tree) : Except Json.Fault ModifierEntry := do
  tree.check
  match tree with
  | .scalar (.string name) => return .preset name
  | .object members _ => ofMembers members
  | _ => .error .mismatched

/-- How a modifier is written. -/
def toValue : ModifierEntry → Value
  | .preset name => .string name
  | .explicit name requiresFinal acceptableFlags =>
    .object [("name", .string name), ("requires_final", .bool requiresFinal),
      ("acceptable_flags", .array (acceptableFlags.map fun flags => .natural flags.toNat))]

end ModifierEntry

/-! ## Groups -/

/-- The kind with the given name. -/
def Kind.ofName? (name : String) : Option Kind :=
  if name = "class" then some .classes
  else if name = "method" then some .methods
  else if name = "field" then some .fields
  else none

namespace GroupEntry

/-- The fields of a group that have been read. -/
structure Draft where
  name : Option String := none
  modifier : Option ModifierEntry := none
  kind : Option Kind := none
  classes : Option ClassPredicate := none
  methods : Option (Option MethodPredicate) := none
  fields : Option (Option FieldPredicate) := none

/-- A field that was not read before. -/
def fresh {α : Type} (old : Option α) (read : Tree → Except Json.Fault α) (tree : Tree) :
    Except Json.Fault α :=
  match old with
  | some _ => .error .mismatched
  | none => read tree

/-- The draft with one more member. -/
def Draft.put (draft : Draft) (key : String) (tree : Tree) : Except Json.Fault Draft :=
  if key = "name" then do
    return { draft with name := some (← fresh draft.name Tree.string tree) }
  else if key = "modifier" then do
    return { draft with modifier := some (← fresh draft.modifier ModifierEntry.ofTree tree) }
  else if key = "kind" then do
    return { draft with kind := some (← fresh draft.kind (Tree.name Kind.ofName?) tree) }
  else if key = "classes" then do
    return { draft with classes := some (← fresh draft.classes ClassPredicate.ofTree tree) }
  else if key = "methods" then do
    return { draft with
      methods := some (← fresh draft.methods (Tree.orNull MethodPredicate.ofTree) tree) }
  else if key = "fields" then do
    return { draft with
      fields := some (← fresh draft.fields (Tree.orNull FieldPredicate.ofTree) tree) }
  else .error .mismatched

/-- The draft with the members of an object. -/
def Draft.putAll (draft : Draft) : List (String × Tree) → Except Json.Fault Draft
  | [] => .ok draft
  | (key, tree) :: members => do
    let draft ← draft.put key tree
    draft.putAll members

/-- The group with the fields of a draft. -/
def Draft.finish (draft : Draft) : Except Json.Fault GroupEntry := do
  return {
    name := ← Tree.required draft.name
    modifier := ← Tree.required draft.modifier
    kind := ← Tree.required draft.kind
    classes := ← Tree.required draft.classes
    methods := draft.methods.join
    fields := draft.fields.join }

/-- The group whose fields are the items of an array. -/
def ofItems (items : List Tree) (tail : Tail) : Except Json.Fault GroupEntry := do
  let (name, items) ← Tree.nextItem Tree.string tail items
  let name ← Tree.required name
  let (modifier, items) ← Tree.nextItem ModifierEntry.ofTree tail items
  let modifier ← Tree.required modifier
  let (kind, items) ← Tree.nextItem (Tree.name Kind.ofName?) tail items
  let kind ← Tree.required kind
  let (classes, items) ← Tree.nextItem ClassPredicate.ofTree tail items
  let classes ← Tree.required classes
  let (methods, items) ← Tree.nextItem (Tree.orNull MethodPredicate.ofTree) tail items
  let (fields, items) ← Tree.nextItem (Tree.orNull FieldPredicate.ofTree) tail items
  Tree.lastItem tail items
  return { name, modifier, kind, classes, methods := methods.join, fields := fields.join }

/-- The group that a tree stands for. -/
def ofTree : Tree → Except Json.Fault GroupEntry
  | .array items tail => ofItems items tail
  | .object members tail => do
    let draft ← ({} : Draft).putAll members
    tail.check
    draft.finish
  | .gap gap => .error gap.fault
  | .scalar _ => .error .mismatched

/-- How a group is written. -/
def toValue (entry : GroupEntry) : Value :=
  .object ([("name", .string entry.name), ("modifier", entry.modifier.toValue),
    ("kind", .string entry.kind.name), ("classes", entry.classes.toValue)]
    ++ (entry.methods.map fun methods => ("methods", methods.toValue)).toList
    ++ (entry.fields.map fun fields => ("fields", fields.toValue)).toList)

end GroupEntry

/-! ## Rules files -/

namespace RulesFile

/-- The groups that the members of an object give, behind those that were read. -/
def groupsOf (groups : Option (List GroupEntry)) :
    List (String × Tree) → Except Json.Fault (Option (List GroupEntry))
  | [] => .ok groups
  | (key, tree) :: members =>
    if key = "groups" then do
      let groups ← GroupEntry.fresh groups (Tree.list GroupEntry.ofTree) tree
      groupsOf (some groups) members
    else .error .mismatched

/-- The rules file that a tree stands for. -/
def ofTree : Tree → Except Json.Fault RulesFile
  | .array items tail => do
    let (groups, items) ← Tree.nextItem (Tree.list GroupEntry.ofTree) tail items
    let groups ← Tree.required groups
    Tree.lastItem tail items
    return { groups }
  | .object members tail => do
    let groups ← groupsOf none members
    tail.check
    return { groups := ← Tree.required groups }
  | .gap gap => .error gap.fault
  | .scalar _ => .error .mismatched

/-- How a rules file is written. -/
def toValue (file : RulesFile) : Value :=
  .object [("groups", .array (file.groups.map GroupEntry.toValue))]

/-- The rules file with the given text. -/
def ofText (text : String) : Except Json.Fault RulesFile := Tree.read ofTree text

/-- The text of a rules file. -/
def text (file : RulesFile) : String := file.toValue.compact

end RulesFile

end AccessTransformer.Rules
