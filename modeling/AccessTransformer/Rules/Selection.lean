import AccessTransformer.Rules.Group

/-!
# What rule groups select

A group goes through the classes of a graph in order and emits one line for everything that it
selects and that does not satisfy its modifier yet.  Anonymous and local classes, and what is
nested in them, are never selected.

A class that becomes visible is of no use without a constructor, and those of records follow the
class: a line for a class that has the common superclass of records among its ancestors brings one
line for each of its constructors, whatever their flags.

A group that emits nothing is a mistake in the rules, and no group behind it is looked at.
-/

namespace AccessTransformer.Rules

/-- The lines of a group under its name. -/
structure Section where
  name : String
  lines : List String
  deriving DecidableEq, Repr

/-! ## Names -/

/-- Whether a name is that of an anonymous or local class or of one inside: somewhere a digit
follows a dollar sign. -/
def isAnonymous : List Char → Bool
  | [] => false
  | c :: text => (c = '$' && (text.head?.map Char.isDigit).getD false) || isAnonymous text

/-- A class name with dots between its parts. -/
def dotted (name : String) : String :=
  String.ofList (name.toList.map fun c => if c = '/' then '.' else c)

/-- The superclass of all records. -/
def recordClass : String := "java/lang/Record"

/-- The name of constructors. -/
def constructorName : String := "<init>"

/-! ## Lines -/

namespace Group

/-- The line for a class. -/
def classLine (group : Group) (node : ClassNode) : String :=
  s!"{group.modifier.name} {dotted node.name}"

/-- The line for a method. -/
def methodLine (group : Group) (node : ClassNode) (method : Member) : String :=
  s!"{group.modifier.name} {dotted node.name} {method.name}{method.descriptor}"

/-- The line for a field. -/
def fieldLine (group : Group) (node : ClassNode) (field : Field) : String :=
  s!"{group.modifier.name} {dotted node.name} {field.name}"

/-- The lines for the constructors of a record. -/
def constructorLines (group : Group) (graph : ClassGraph) (id : ClassId) (node : ClassNode) :
    List String :=
  if graph.hasSuperclass id recordClass then
    (node.methods.filter fun method => method.name = constructorName).map (group.methodLine node)
  else []

/-- The lines for what a target selects in a class. -/
def targetLines (group : Group) (graph : ClassGraph) (id : ClassId) (node : ClassNode) :
    List String :=
  match group.target with
  | .fields predicate =>
    (node.fields.filter fun field =>
      predicate.selects graph field && !decide (group.modifier.Satisfies field.access)).map
        (group.fieldLine node)
  | .methods predicate =>
    (node.methods.filter fun method =>
      predicate.selects method && !decide (group.modifier.Satisfies method.access)).map
        (group.methodLine node)
  | .classes =>
    if group.modifier.Satisfies node.access then []
    else group.classLine node :: group.constructorLines graph id node

/-- The lines for a class. -/
def linesOf (group : Group) (graph : ClassGraph) (id : ClassId) (node : ClassNode) :
    List String :=
  if group.classes.selects graph id && !isAnonymous node.name.toList then
    group.targetLines graph id node
  else []

/-- The lines for all classes of a graph, in order. -/
def lines (group : Group) (graph : ClassGraph) : List String :=
  graph.nodes.toList.zipIdx.flatMap fun (node, id) => group.linesOf graph id node

end Group

/-- The lines of each group. -/
def sections (graph : ClassGraph) : List Group → Except Fault (List Section)
  | [] => .ok []
  | group :: groups =>
    match group.lines graph with
    | [] => .error (.emptyGroup group.name)
    | line :: lines => do return ⟨group.name, line :: lines⟩ :: (← sections graph groups)

end AccessTransformer.Rules
