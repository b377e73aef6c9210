import AccessTransformer.ClassGraph.Ancestors
import AccessTransformer.Rules.Condition

/-!
# Predicates

What a rule group can ask of a class, a method and a field.  Classes are nodes of a graph, so a
predicate on them can look at their ancestors; a predicate on a field can look at the class that is
its type.  Methods are tested by their names and descriptors alone.
-/

namespace AccessTransformer.Rules

/-! ## Classes -/

/-- What can be asked of a class. -/
inductive ClassTest where
  /-- Its name is this. -/
  | named (name : String)
  /-- It has this name, or an ancestor with this name. -/
  | hasSuperclass (name : String)
  /-- It is nested in the class of this name, at any depth. -/
  | innerClassOf (outer : String)
  deriving DecidableEq, Repr

/-- Whether a class passes a test. -/
def ClassTest.passes (graph : ClassGraph) (id : ClassId) : ClassTest → Bool
  | .named name => graph.nameOf id = name
  | .hasSuperclass name => graph.hasSuperclass id name
  | .innerClassOf outer => (outer.toList ++ ['$']).isPrefixOf (graph.nameOf id).toList

/-- A selection of classes. -/
abbrev ClassPredicate := Condition ClassTest

/-- Whether a predicate selects a class. -/
def ClassPredicate.selects (predicate : ClassPredicate) (graph : ClassGraph) (id : ClassId) :
    Bool :=
  predicate.holds (ClassTest.passes graph id)

/-! ## Methods -/

/-- What can be asked of a method. -/
inductive MethodTest where
  /-- Its name is this. -/
  | named (name : String)
  /-- It returns the class of this name. -/
  | returns (className : String)
  /-- Its descriptor is this. -/
  | descriptor (text : String)
  deriving DecidableEq, Repr

/-- Whether a method passes a test. -/
def MethodTest.passes (method : Member) : MethodTest → Bool
  | .named name => method.name = name
  | .returns className =>
    (')' :: 'L' :: className.toList ++ [';']).isSuffixOf method.descriptor.toList
  | .descriptor text => method.descriptor = text

/-- A selection of methods. -/
abbrev MethodPredicate := Condition MethodTest

/-- Whether a predicate selects a method. -/
def MethodPredicate.selects (predicate : MethodPredicate) (method : Member) : Bool :=
  predicate.holds (MethodTest.passes method)

/-! ## Fields -/

/-- What can be asked of a field. -/
inductive FieldTest where
  /-- Its name is this. -/
  | named (name : String)
  /-- Its type is a class that the predicate selects. -/
  | ofType (type : ClassPredicate)
  deriving Repr

/-- Whether a field passes a test. -/
def FieldTest.passes (graph : ClassGraph) (field : Field) : FieldTest → Bool
  | .named name => field.name = name
  | .ofType type => type.selects graph field.type

/-- A selection of fields. -/
abbrev FieldPredicate := Condition FieldTest

/-- Whether a predicate selects a field. -/
def FieldPredicate.selects (predicate : FieldPredicate) (graph : ClassGraph) (field : Field) :
    Bool :=
  predicate.holds (FieldTest.passes graph field)

end AccessTransformer.Rules
