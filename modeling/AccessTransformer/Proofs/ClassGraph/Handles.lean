import AccessTransformer.Proofs.ClassGraph.Visits

/-!
# Handles

The number of a class that a graph has given out is good for ever: whatever else is done with the
graph, the number goes on standing for the same class.  It may be used to change the node or to make
the class a parent of another one, and a number that was not given out is never used.

* `HandedOut`: the graphs that operations lead to, with the numbers given out on the way.
* `Sound`: what holds of all of them; each operation keeps it.
* `HandedOut.sound`, `HandedOut.find?_iff_and_numbers`: index, nodes and numbers always agree.
-/

namespace AccessTransformer.ClassGraph

/-- A number that was given out, and the class it was given out for. -/
structure Handle where
  id : ClassId
  name : String
  deriving DecidableEq, Repr

/-- The graphs that operations lead to, with all handles that were given out on the way.  Only with
a handle can a node be changed or made a parent. -/
inductive HandedOut : ClassGraph → List Handle → Prop where
  | empty : HandedOut empty []
  | ensure {graph : ClassGraph} {handles : List Handle} (h : HandedOut graph handles)
      (name : String) : HandedOut (graph.ensure name).1 (⟨(graph.ensure name).2, name⟩ :: handles)
  | visited {graph : ClassGraph} {handles : List Handle} {id : ClassId} (h : HandedOut graph handles)
      (declaration : ClassDeclaration) (hvisit : (graph.visit declaration).2 = .ok id) :
      HandedOut (graph.visit declaration).1 (⟨id, declaration.name⟩ :: handles)
  | refused {graph : ClassGraph} {handles : List Handle} {failure : Failure}
      (h : HandedOut graph handles) (declaration : ClassDeclaration)
      (hvisit : (graph.visit declaration).2 = .error failure) :
      HandedOut (graph.visit declaration).1 handles
  /-- Looking up a class. -/
  | found {graph : ClassGraph} {handles : List Handle} {name : String} {id : ClassId}
      (h : HandedOut graph handles) (hfind : graph.find? name = some id) :
      HandedOut graph (⟨id, name⟩ :: handles)
  /-- Going through the nodes. -/
  | listed {graph : ClassGraph} {handles : List Handle} {node : ClassNode} {id : ClassId}
      (h : HandedOut graph handles) (hnode : graph.nodes[id]? = some node) :
      HandedOut graph (⟨id, node.name⟩ :: handles)
  /-- Going on from a node to a parent or to the type of a field. -/
  | stored {graph : ClassGraph} {handles : List Handle} {node : ClassNode} {holder id : ClassId}
      (h : HandedOut graph handles) (hnode : graph.nodes[holder]? = some node)
      (hid : id ∈ node.parents ++ node.fields.map (·.type)) :
      HandedOut graph (⟨id, graph.nameOf id⟩ :: handles)
  | addParent {graph : ClassGraph} {handles : List Handle} {child parent : Handle}
      (h : HandedOut graph handles) (hchild : child ∈ handles) (hparent : parent ∈ handles) :
      HandedOut (graph.pushParent child.id parent.id) handles
  | setAccess {graph : ClassGraph} {handles : List Handle} {handle : Handle}
      (h : HandedOut graph handles) (hhandle : handle ∈ handles) (access : UInt16) :
      HandedOut (graph.assignAccess handle.id access) handles

/-- Names are distinct, there are no numbers but those of nodes, and all handles are good. -/
structure Sound (graph : ClassGraph) (handles : List Handle) : Prop extends WellNumbered graph where
  visited_lt : ∀ id ∈ graph.visited, id < graph.size
  handles_name : ∀ handle ∈ handles, graph.names[handle.id]? = some handle.name

variable {graph after : ClassGraph} {handles : List Handle} {mentioned : List String}
  {declaration : ClassDeclaration} {id : ClassId} {name : String}

namespace Sound

/-- One more handle. -/
theorem cons (h : Sound graph handles) (hname : graph.names[id]? = some name) :
    Sound graph (⟨id, name⟩ :: handles) :=
  { h with handles_name := List.forall_mem_cons.mpr ⟨hname, h.handles_name⟩ }

/-- Placeholders for more names. -/
theorem mention (h : Sound graph handles) (hmentions : Mentions graph mentioned after) :
    Sound after handles where
  toWellNumbered := h.toWellNumbered.mention hmentions
  visited_lt := by
    intro id hid
    rw [hmentions.visited_eq] at hid
    exact Nat.lt_of_lt_of_le (h.visited_lt id hid) hmentions.size_le
  handles_name := fun handle hhandle => hmentions.getElem?_names (h.handles_name handle hhandle)

/-- A change of a node that brings in only numbers of nodes. -/
theorem modify (h : Sound graph handles) (id : ClassId) {change : ClassNode → ClassNode}
    (keeps : ∀ node, (change node).name = node.name)
    (hchange : ∀ node, graph.Numbers node → graph.Numbers (change node)) :
    Sound (graph.modify id change keeps) handles where
  toWellNumbered := h.toWellNumbered.modify id keeps hchange
  visited_lt := by
    rw [← length_names, names_modify, length_names]
    exact h.visited_lt
  handles_name := by
    rw [names_modify]
    exact h.handles_name

theorem declareAt {parents : List ClassId} {fields : List Field} (h : Sound graph handles)
    (hid : id < graph.size)
    (hparents : List.Forall₂ (fun name (id : ClassId) => graph.names[id]? = some name)
      (declaration.superclass.toList ++ declaration.interfaces) parents)
    (hfields : List.Forall₂ (Links graph) declaration.fields fields) :
    Sound (graph.declareAt id declaration parents fields) handles where
  toWellNumbered := h.toWellNumbered.declareAt hparents hfields
  visited_lt := by
    rw [← length_names, names_declareAt, length_names]
    exact List.forall_mem_cons.mpr ⟨hid, h.visited_lt⟩
  handles_name := by
    rw [names_declareAt]
    exact h.handles_name

/-- A visit keeps everything, whether it succeeds or fails. -/
theorem visit (h : Sound graph handles) (declaration : ClassDeclaration) :
    Sound (graph.visit declaration).1 handles := by
  rcases visit_cases graph declaration with ⟨-, hvisit⟩ | ⟨-, full, hfull,
    ⟨-, failure, hvisit⟩ | ⟨-, id, parents, fields, hid, -, hparents, hfields, hvisit⟩⟩
  · rw [hvisit]
    exact h.mention (mentions_ensure graph declaration.name)
  · rw [hvisit]
    exact h.mention hfull
  · rw [hvisit]
    exact (h.mention hfull).declareAt (lt_size_of_getElem?_names hid) hparents hfields

end Sound

theorem getElem?_names_eq_some_iff : graph.names[id]? = some name ↔
    ∃ hid : id < graph.nodes.size, graph.nodes[id].name = name := by
  rw [getElem?_names, Option.map_eq_some_iff]
  simp only [Array.getElem?_eq_some_iff]
  constructor
  · rintro ⟨node, ⟨hid, rfl⟩, hname⟩
    exact ⟨hid, hname⟩
  · rintro ⟨hid, hname⟩
    exact ⟨_, ⟨hid, rfl⟩, hname⟩

/-- The number that a visit gives is that of the class. -/
theorem getElem?_names_visit (hvisit : (graph.visit declaration).2 = .ok id) :
    (graph.visit declaration).1.names[id]? = some declaration.name := by
  rcases visit_cases graph declaration with ⟨-, hcase⟩ | ⟨-, full, -, ⟨-, failure, hcase⟩ |
    ⟨-, id', parents, fields, hid, -, -, -, hcase⟩⟩
  · exact nomatch hvisit.symm.trans (congrArg Prod.snd hcase)
  · exact nomatch hvisit.symm.trans (congrArg Prod.snd hcase)
  · obtain rfl : id = id' := Except.ok.inj (hvisit.symm.trans (congrArg Prod.snd hcase))
    rw [hcase, names_declareAt]
    exact hid

/-- **All operations keep the graph sound.** -/
theorem HandedOut.sound (h : HandedOut graph handles) : Sound graph handles := by
  induction h with
  | empty =>
    exact
      { nodup_names := List.nodup_nil
        numbers := by simp [ClassGraph.empty]
        visited_lt := by simp [ClassGraph.empty]
        handles_name := by simp }
  | @ensure graph _ _ name ih =>
    exact (ih.mention (mentions_ensure graph name)).cons (getElem?_names_ensure graph name)
  | visited _ declaration hvisit ih =>
    exact (ih.visit declaration).cons (getElem?_names_visit hvisit)
  | refused _ declaration _ ih => exact ih.visit declaration
  | found _ hfind ih => exact ih.cons (getElem?_names_of_find? hfind)
  | listed _ hnode ih => exact ih.cons (by rw [getElem?_names, hnode, Option.map_some])
  | @stored graph _ node holder id _ hnode hid ih =>
    refine ih.cons (getElem?_names_eq_nameOf ?_)
    rcases List.mem_append.mp hid with hparent | htype
    · exact (ih.numbers holder node hnode).1 id hparent
    · obtain ⟨field, hfield, rfl⟩ := List.mem_map.mp htype
      exact (ih.numbers holder node hnode).2 field hfield
  | @addParent graph _ child parent _ _ hparent ih =>
    have hlt := lt_size_of_getElem?_names (ih.handles_name parent hparent)
    refine ih.modify child.id _ fun node hnode => ⟨fun other hother => ?_, hnode.2⟩
    rcases List.mem_append.mp hother with hold | hnew
    · exact hnode.1 other hold
    · rwa [List.mem_singleton.mp hnew]
  | setAccess _ _ _ ih => exact ih.modify _ _ fun node hnode => hnode

/-- **The index, the nodes and all numbers given out agree.**  A name is found under a number
exactly when the node of this number has the name; names are distinct; the numbers in the nodes and
those of visited classes are numbers of nodes; and a number that was once given out for a class is
still the number of this class. -/
theorem HandedOut.find?_iff_and_numbers (h : HandedOut graph handles) :
    (∀ name id, graph.find? name = some id ↔
      ∃ hid : id < graph.nodes.size, graph.nodes[id].name = name) ∧
    graph.names.Nodup ∧
    (∀ node ∈ graph.nodes, (∀ parent ∈ node.parents, parent < graph.nodes.size) ∧
      ∀ field ∈ node.fields, field.type < graph.nodes.size) ∧
    (∀ id ∈ graph.visited, id < graph.nodes.size) ∧
    ∀ handle ∈ handles,
      ∃ hid : handle.id < graph.nodes.size, graph.nodes[handle.id].name = handle.name := by
  have hsound := h.sound
  refine ⟨fun name id => ?_, hsound.nodup_names, fun node hnode => ?_, hsound.visited_lt,
    fun handle hhandle => ?_⟩
  · rw [find?_eq_some_iff hsound.nodup_names, getElem?_names_eq_some_iff]
  · obtain ⟨id, hid⟩ := Array.mem_iff_getElem?.mp hnode
    exact hsound.numbers id node hid
  · exact getElem?_names_eq_some_iff.mp (hsound.handles_name handle hhandle)

/-- A class with a superclass, an interface, a field of its own type and a method. -/
def selfTyped : ClassDeclaration :=
  ⟨"A", 1, some "B", ["I"], [⟨2, "self", "LA;"⟩], [⟨9, "run", "()V"⟩]⟩

/-- A class with a superclass and a field without a type. -/
def untyped : ClassDeclaration := ⟨"C", 1, some "D", [], [⟨0, "x", "Q"⟩], []⟩

/-- A class is asked for and then extended, the second visit of its subclass and that of a class
with a field without a type fail, and the class is changed afterwards. -/
def extended : ClassGraph :=
  (((((empty.ensure "B").1.visit selfTyped).1.visit selfTyped).1.visit untyped).1.pushParent
    0 1).assignAccess 0 0x20

theorem find?_iff_and_numbers_extended :
    HandedOut extended [⟨1, "A"⟩, ⟨0, "B"⟩] ∧
    (∀ name id, extended.find? name = some id ↔
      ∃ hid : id < extended.nodes.size, extended.nodes[id].name = name) ∧
    extended.names.Nodup ∧
    (∀ node ∈ extended.nodes, (∀ parent ∈ node.parents, parent < extended.nodes.size) ∧
      ∀ field ∈ node.fields, field.type < extended.nodes.size) ∧
    (∀ id ∈ extended.visited, id < extended.nodes.size) ∧
    ∀ handle ∈ ([⟨1, "A"⟩, ⟨0, "B"⟩] : List Handle),
      ∃ hid : handle.id < extended.nodes.size, extended.nodes[handle.id].name = handle.name := by
  have hasked : HandedOut (empty.ensure "B").1 [⟨0, "B"⟩] := .ensure .empty "B"
  have hvisited := hasked.visited selfTyped (by rfl : _ = Except.ok 1)
  have htwice := hvisited.refused selfTyped (by rfl)
  have huntyped := htwice.refused untyped (by rfl)
  have hparent := huntyped.addParent (.tail _ (.head _)) (.head _)
  have h : HandedOut extended [⟨1, "A"⟩, ⟨0, "B"⟩] := hparent.setAccess (.tail _ (.head _)) 0x20
  exact ⟨h, h.find?_iff_and_numbers⟩

end AccessTransformer.ClassGraph
