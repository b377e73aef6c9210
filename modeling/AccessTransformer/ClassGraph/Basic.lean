import AccessTransformer.ClassFile.Declaration

/-!
# Class graphs

All classes that an archive mentions, each with its flags, its supertypes and its members.  A class
is mentioned before it is declared, or without ever being declared, when another class extends it
or has a field of its type; then it is a placeholder, which is a node with a name and nothing else.

Nodes are numbered as they come into being and are never removed, so the number of a node goes on
standing for the same class when its declaration fills it in.  The numbers are kept by name in an
index beside the nodes; whatever changes the nodes has to show that the index still agrees with
them.

`ensure` gives the number of a name.  `visit` fills in a declaration, once for each class: it makes
all nodes that the declaration mentions, and only when that went well it touches the node of the
class itself.  A declaration that fails leaves behind the nodes it had made by then.
-/

namespace AccessTransformer

/-- The number of a node. -/
abbrev ClassId := Nat

/-- A field, with the node of its type. -/
structure Field where
  access : UInt16
  name : String
  type : ClassId
  deriving DecidableEq, Repr

/-- A class or interface, or the type of a field. -/
structure ClassNode where
  name : String
  access : UInt16 := 0
  parents : List ClassId := []
  fields : List Field := []
  methods : List Member := []
  deriving DecidableEq, Repr

/-- The nodes by number, the numbers of those whose declaration was visited, and the number of every
name: that of the first node with this name. -/
structure ClassGraph where
  nodes : Array ClassNode
  visited : List ClassId
  index : List (String × ClassId)
  indexed : ∀ name, index.lookup name = nodes.findIdx? (·.name = name)
  deriving DecidableEq, Repr

namespace ClassGraph

/-- The graph without nodes. -/
def empty : ClassGraph where
  nodes := #[]
  visited := []
  index := []
  indexed := by simp

instance : EmptyCollection ClassGraph := ⟨empty⟩

/-- The number of nodes. -/
def size (graph : ClassGraph) : Nat := graph.nodes.size

/-- The number of the node with the given name. -/
def find? (graph : ClassGraph) (name : String) : Option ClassId :=
  graph.index.lookup name

/-- The index finds what going through the nodes would find. -/
theorem find?_eq_findIdx? (graph : ClassGraph) (name : String) :
    graph.find? name = graph.nodes.findIdx? (·.name = name) :=
  graph.indexed name

/-- The graph with one more node, a placeholder for the given name. -/
def push (graph : ClassGraph) (name : String) : ClassGraph where
  nodes := graph.nodes.push { name }
  visited := graph.visited
  index := graph.index ++ [(name, graph.size)]
  indexed := by
    intro other
    rw [List.lookup_append, Array.findIdx?_push, graph.indexed other]
    by_cases heq : other = name
    · simp [heq, size]
    · simp [List.lookup_cons, beq_false_of_ne heq, Ne.symm heq]

/-- The graph with a node for the given name, and the node's number. -/
def ensure (graph : ClassGraph) (name : String) : ClassGraph × ClassId :=
  match graph.find? name with
  | some id => (graph, id)
  | none => (graph.push name, graph.size)

/-- The graph with nodes for all the given names, and their numbers. -/
def ensureAll (graph : ClassGraph) : List String → ClassGraph × List ClassId
  | [] => (graph, [])
  | name :: names =>
    let (graph, id) := graph.ensure name
    let (graph, ids) := graph.ensureAll names
    (graph, id :: ids)

/-- Changes that keep the names of nodes keep what is found for a name. -/
theorem findIdx?_modify {change : ClassNode → ClassNode}
    (keeps : ∀ node, (change node).name = node.name) (nodes : Array ClassNode) (id : ClassId)
    (name : String) :
    (nodes.modify id change).findIdx? (·.name = name) = nodes.findIdx? (·.name = name) := by
  have hnames : (nodes.modify id change).map (·.name) = nodes.map (·.name) := by
    apply Array.ext
    · simp
    · intro other h h'
      rw [Array.getElem_map, Array.getElem_map, Array.getElem_modify]
      split
      · exact keeps _
      · rfl
  have hfind := congrArg (Array.findIdx? (· = name)) hnames
  rwa [Array.findIdx?_map, Array.findIdx?_map] at hfind

/-- The graph with the node of the given number changed, all but its name. -/
def modify (graph : ClassGraph) (id : ClassId) (change : ClassNode → ClassNode)
    (keeps : ∀ node, (change node).name = node.name) : ClassGraph where
  nodes := graph.nodes.modify id change
  visited := graph.visited
  index := graph.index
  indexed := by
    intro name
    rw [findIdx?_modify keeps]
    exact graph.indexed name

/-- The graph with nodes for the types of the given fields, and the fields with the numbers of
their types.  The first descriptor that is none ends it. -/
def linkFields (graph : ClassGraph) : List Member → ClassGraph × Outcome (List Field)
  | [] => (graph, .ok [])
  | field :: fields =>
    match Descriptor.typeName field.descriptor with
    | .error fault =>
      (graph, (Outcome.fail (.descriptor fault)).during (.fieldDescriptor field.name))
    | .ok typeName =>
      let (graph, type) := graph.ensure typeName
      let (graph, linked) := graph.linkFields fields
      (graph, linked.map ({ access := field.access, name := field.name, type } :: ·))

/-- A node with what a declaration adds to it. -/
def declare (declaration : ClassDeclaration) (parents : List ClassId) (fields : List Field)
    (node : ClassNode) : ClassNode :=
  { node with
    access := declaration.access
    parents := node.parents ++ parents
    fields := node.fields ++ fields
    methods := node.methods ++ declaration.methods }

theorem name_declare (declaration : ClassDeclaration) (parents : List ClassId)
    (fields : List Field) (node : ClassNode) :
    (declare declaration parents fields node).name = node.name := rfl

/-- The names of the supertypes that a declaration gives, the superclass first. -/
def supertypes (declaration : ClassDeclaration) : List String :=
  declaration.superclass.toList ++ declaration.interfaces

/-- The graph after the visit of a declaration, and the number of the class if the visit
succeeded. -/
def visit (graph : ClassGraph) (declaration : ClassDeclaration) : ClassGraph × Outcome ClassId :=
  let (graph, id) := graph.ensure declaration.name
  if id ∈ graph.visited then (graph, Outcome.fail (.declaredTwice declaration.name))
  else
    let (graph, parents) := graph.ensureAll (supertypes declaration)
    match graph.linkFields declaration.fields with
    | (graph, .error failure) => (graph, .error failure)
    | (graph, .ok fields) =>
      (({ graph with visited := id :: graph.visited }).modify id
        (declare declaration parents fields) (name_declare declaration parents fields), .ok id)

/-- The graph with one more parent at the node of the given number. -/
def pushParent (graph : ClassGraph) (id parent : ClassId) : ClassGraph :=
  graph.modify id (fun node => { node with parents := node.parents ++ [parent] }) fun _ => rfl

/-- The graph with other flags at the node of the given number. -/
def assignAccess (graph : ClassGraph) (id : ClassId) (access : UInt16) : ClassGraph :=
  graph.modify id (fun node => { node with access }) fun _ => rfl

/-- The graph with one more parent of a class. -/
def addParent (graph : ClassGraph) (child parent : String) : ClassGraph × ClassId :=
  let (graph, id) := graph.ensure child
  let (graph, parentId) := graph.ensure parent
  (graph.pushParent id parentId, id)

/-- The graph with other flags for a class. -/
def setAccess (graph : ClassGraph) (name : String) (access : UInt16) : ClassGraph × ClassId :=
  let (graph, id) := graph.ensure name
  (graph.assignAccess id access, id)

/-- The name of the node with the given number. -/
def nameOf (graph : ClassGraph) (id : ClassId) : String :=
  (graph.nodes[id]?.map (·.name)).getD ""

/-- The parents of the node with the given number. -/
def parentsOf (graph : ClassGraph) (id : ClassId) : List ClassId :=
  (graph.nodes[id]?.map (·.parents)).getD []

end ClassGraph

end AccessTransformer
