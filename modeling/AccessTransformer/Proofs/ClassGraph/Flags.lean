import AccessTransformer.Proofs.ClassGraph.Reachability

/-!
# Flags

Access flags stand at classes, fields and methods, and nothing that a graph is asked depends on
them: not the number of a name, not the ancestors of a class.  Places name what can have flags, by
number and position, so that flags can be compared between graphs that have nothing but other flags.

* `SameButFlags`: two graphs without their flags are the same.
* `Place`, `places`, `accessAt?`: what has flags, and which.
* `SameButFlags.hasSuperclass_eq`: superclasses do not depend on flags.
-/

namespace AccessTransformer

/-- A field without its flags. -/
def Field.unflagged (field : Field) : Field := { field with access := 0 }

/-- A method without its flags. -/
def Member.unflagged (method : Member) : Member := { method with access := 0 }

/-- A node without flags, its own and those of its members. -/
def ClassNode.unflagged (node : ClassNode) : ClassNode :=
  { node with
    access := 0
    fields := node.fields.map Field.unflagged
    methods := node.methods.map Member.unflagged }

/-- What has flags: a class, or a member at a position of a class. -/
inductive Place where
  | node (id : ClassId)
  | field (id : ClassId) (position : Nat)
  | method (id : ClassId) (position : Nat)
  deriving DecidableEq, Repr

/-- The places of a node with the given number. -/
def ClassNode.places (node : ClassNode) (id : ClassId) : List Place :=
  .node id :: ((List.range node.fields.length).map (.field id)
    ++ (List.range node.methods.length).map (.method id))

namespace ClassGraph

variable {graph graph' : ClassGraph} {id : ClassId} {node : ClassNode}

/-- The field at a position of a class. -/
def fieldAt? (graph : ClassGraph) (id : ClassId) (position : Nat) : Option Field :=
  graph.nodes[id]?.bind (·.fields[position]?)

/-- The method at a position of a class. -/
def methodAt? (graph : ClassGraph) (id : ClassId) (position : Nat) : Option Member :=
  graph.nodes[id]?.bind (·.methods[position]?)

/-- The flags at a place. -/
def accessAt? (graph : ClassGraph) : Place → Option UInt16
  | .node id => graph.nodes[id]?.map (·.access)
  | .field id position => (graph.fieldAt? id position).map (·.access)
  | .method id position => (graph.methodAt? id position).map (·.access)

/-- All places of a graph, class by class. -/
def places (graph : ClassGraph) : List Place :=
  graph.nodes.toList.zipIdx.flatMap fun (node, id) => node.places id

/-- Whether two graphs have the same nodes but for the flags. -/
def SameButFlags (graph graph' : ClassGraph) : Prop :=
  graph'.nodes.map ClassNode.unflagged = graph.nodes.map ClassNode.unflagged

/-- A name is looked up among the names of the nodes. -/
theorem find?_eq_findIdx?_names (graph : ClassGraph) (name : String) :
    graph.find? name = graph.names.findIdx? (· = name) := by
  rw [find?_eq_findIdx?, names, List.findIdx?_map, ← List.findIdx?_toArray, Array.toArray_toList]
  rfl

namespace SameButFlags

theorem map_getElem?_eq (h : SameButFlags graph graph') (id : ClassId) :
    graph'.nodes[id]?.map ClassNode.unflagged = graph.nodes[id]?.map ClassNode.unflagged := by
  rw [← Array.getElem?_map, ← Array.getElem?_map, h]

/-- What can be told of a node without its flags is the same. -/
theorem map_eq {α : Type} {f : ClassNode → α} (h : SameButFlags graph graph')
    (hf : ∀ node, f node.unflagged = f node) (id : ClassId) :
    graph'.nodes[id]?.map f = graph.nodes[id]?.map f := by
  have hcomp : f ∘ ClassNode.unflagged = f := funext hf
  rw [← hcomp, ← Option.map_map, h.map_getElem?_eq, Option.map_map]

theorem nameOf_eq (h : SameButFlags graph graph') : graph'.nameOf = graph.nameOf := by
  funext id
  rw [nameOf, nameOf, h.map_eq fun _ => rfl]

theorem parentsOf_eq (h : SameButFlags graph graph') : graph'.parentsOf = graph.parentsOf := by
  funext id
  rw [parentsOf, parentsOf, h.map_eq fun _ => rfl]

/-- What a member passes without its flags it passes in both graphs. -/
theorem any_member_eq {α : Type} {members : ClassNode → List α} {unflag : α → α} {p : α → Bool}
    (h : SameButFlags graph graph')
    (hmembers : ∀ node, members node.unflagged = (members node).map unflag)
    (hp : ∀ member, p (unflag member) = p member) (id : ClassId) (position : Nat) :
    (graph'.nodes[id]?.bind fun node => (members node)[position]?).any p
      = (graph.nodes[id]?.bind fun node => (members node)[position]?).any p := by
  have hunflagged : ∀ graph : ClassGraph,
      (graph.nodes[id]?.bind fun node => (members node)[position]?).any p
        = ((graph.nodes[id]?.map ClassNode.unflagged).bind fun node =>
            (members node)[position]?).any p := by
    intro graph
    cases graph.nodes[id]? with
    | none => rfl
    | some node => simp [hmembers, Option.any_map, hp]
  rw [hunflagged, hunflagged, h.map_getElem?_eq]

theorem any_fieldAt?_eq {p : Field → Bool} (h : SameButFlags graph graph')
    (hp : ∀ field, p field.unflagged = p field) (id : ClassId) (position : Nat) :
    (graph'.fieldAt? id position).any p = (graph.fieldAt? id position).any p :=
  h.any_member_eq (fun _ => rfl) hp id position

theorem any_methodAt?_eq {p : Member → Bool} (h : SameButFlags graph graph')
    (hp : ∀ method, p method.unflagged = p method) (id : ClassId) (position : Nat) :
    (graph'.methodAt? id position).any p = (graph.methodAt? id position).any p :=
  h.any_member_eq (fun _ => rfl) hp id position

theorem names_eq (h : SameButFlags graph graph') : graph'.names = graph.names := by
  apply List.ext_getElem?
  intro id
  rw [getElem?_names, getElem?_names, h.map_eq fun _ => rfl]

theorem find?_eq (h : SameButFlags graph graph') (name : String) :
    graph'.find? name = graph.find? name := by
  rw [find?_eq_findIdx?_names, find?_eq_findIdx?_names, h.names_eq]

/-- **The superclasses of a class do not depend on flags.** -/
theorem hasSuperclass_eq (h : SameButFlags graph graph') :
    graph'.hasSuperclass = graph.hasSuperclass := by
  funext id name
  have hparent : graph'.IsParent = graph.IsParent := by
    funext child parent
    rw [IsParent, IsParent, h.parentsOf_eq]
  have hancestors : ∀ target, target ∈ graph'.ancestors id ↔ target ∈ graph.ancestors id := by
    intro target
    rw [mem_ancestors_iff, mem_ancestors_iff, Reaches, Reaches, hparent]
  simp only [hasSuperclass, h.find?_eq, hancestors]

/-- Two graphs that differ in flags have the same places. -/
theorem places_eq (h : SameButFlags graph graph') : graph'.places = graph.places := by
  have hunflagged : ∀ graph : ClassGraph, graph.places
      = (graph.nodes.map ClassNode.unflagged).toList.zipIdx.flatMap
          fun (node, id) => node.places id := by
    intro graph
    rw [places, Array.toList_map, List.zipIdx_map, List.flatMap_map]
    refine List.flatMap_congr fun ⟨node, id⟩ _ => ?_
    simp [ClassNode.places, ClassNode.unflagged]
  rw [hunflagged, hunflagged, h]

end SameButFlags

end ClassGraph

end AccessTransformer
