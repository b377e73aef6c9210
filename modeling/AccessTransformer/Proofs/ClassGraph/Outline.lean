import AccessTransformer.Proofs.ClassGraph.Numbering

/-!
# Outlines

What a graph knows of a class, with names in the place of numbers.  Two graphs that number their
classes differently can be compared by their outlines, and a class can be compared with its
declaration.

* `outlineAmong`: the outline that declarations give to the class of a name.
* `Mentions.outline_eq`: placeholders for more names change no outline.
-/

namespace AccessTransformer

/-- A field, with the name of its type. -/
structure FieldOutline where
  access : UInt16
  name : String
  type : String
  deriving DecidableEq, Repr

/-- A class or interface, with the names of its supertypes and of the types of its fields. -/
structure Outline where
  name : String
  access : UInt16 := 0
  parents : List String := []
  fields : List FieldOutline := []
  methods : List Member := []
  deriving DecidableEq, Repr

/-- The outline of a declared field. -/
def Member.fieldOutline (field : Member) : FieldOutline :=
  ⟨field.access, field.name, (Descriptor.typeName field.descriptor).toOption.getD ""⟩

namespace ClassDeclaration

/-- The outline of a declared class. -/
def outline (declaration : ClassDeclaration) : Outline where
  name := declaration.name
  access := declaration.access
  parents := declaration.superclass.toList ++ declaration.interfaces
  fields := declaration.fields.map Member.fieldOutline
  methods := declaration.methods

/-- The names that a visit of a declaration mentions. -/
def mentioned (declaration : ClassDeclaration) : List String :=
  declaration.name ::
    (declaration.superclass.toList ++ declaration.interfaces
      ++ ClassGraph.typeNames declaration.fields)

end ClassDeclaration

/-- The outline of the class of the given name: that of its declaration, or of a placeholder. -/
def outlineAmong (declared : List ClassDeclaration) (name : String) : Outline :=
  ((declared.find? (·.name = name)).map ClassDeclaration.outline).getD { name }

theorem find?_eq_none_of_notMem {declared : List ClassDeclaration} {name : String}
    (h : name ∉ declared.map (·.name)) : declared.find? (·.name = name) = none := by
  rw [List.find?_eq_none]
  intro declaration hmem heq
  exact h (List.mem_map.mpr ⟨declaration, hmem, of_decide_eq_true heq⟩)

theorem outlineAmong_of_notMem {declared : List ClassDeclaration} {name : String}
    (h : name ∉ declared.map (·.name)) : outlineAmong declared name = { name } := by
  rw [outlineAmong, find?_eq_none_of_notMem h, Option.map_none, Option.getD_none]

theorem outlineAmong_append_of_ne {declared : List ClassDeclaration}
    {declaration : ClassDeclaration} {name : String} (h : name ≠ declaration.name) :
    outlineAmong (declared ++ [declaration]) name = outlineAmong declared name := by
  have hne : ¬declaration.name = name := fun heq => h heq.symm
  rw [outlineAmong, outlineAmong, List.find?_append, List.find?_singleton,
    if_neg (by simpa using hne), Option.or_none]

theorem outlineAmong_append_self {declared : List ClassDeclaration}
    {declaration : ClassDeclaration} (h : declaration.name ∉ declared.map (·.name)) :
    outlineAmong (declared ++ [declaration]) declaration.name = declaration.outline := by
  rw [outlineAmong, List.find?_append, find?_eq_none_of_notMem h, Option.none_or,
    List.find?_singleton, if_pos (by simp), Option.map_some, Option.getD_some]

/-- Where names are distinct, the outline of a declared class is that of its declaration. -/
theorem outlineAmong_of_mem {declared : List ClassDeclaration} {declaration : ClassDeclaration}
    (hnodup : (declared.map (·.name)).Nodup) (h : declaration ∈ declared) :
    outlineAmong declared declaration.name = declaration.outline := by
  induction declared with
  | nil => cases h
  | cons first declared ih =>
    rw [List.map_cons, List.nodup_cons] at hnodup
    rw [outlineAmong, List.find?_cons]
    rcases List.mem_cons.mp h with rfl | hmem
    · rw [decide_eq_true rfl, Option.map_some, Option.getD_some]
    · have hne : ¬first.name = declaration.name := fun heq =>
        hnodup.1 (heq ▸ List.mem_map.mpr ⟨declaration, hmem, rfl⟩)
      rw [decide_eq_false hne]
      exact ih hnodup.2 hmem

namespace ClassGraph

variable {graph before after : ClassGraph} {mentioned : List String}
  {declared : List ClassDeclaration} {declaration : ClassDeclaration} {id : ClassId}

/-- The outline of a field. -/
def fieldOutline (graph : ClassGraph) (field : Field) : FieldOutline :=
  ⟨field.access, field.name, graph.nameOf field.type⟩

/-- The outline of a node. -/
def outline (graph : ClassGraph) (node : ClassNode) : Outline where
  name := node.name
  access := node.access
  parents := node.parents.map graph.nameOf
  fields := node.fields.map graph.fieldOutline
  methods := node.methods

/-- The outlines of all nodes, by number. -/
def outlines (graph : ClassGraph) : List Outline := graph.nodes.toList.map graph.outline

/-- Outlines depend on nothing but the names of the nodes. -/
theorem outline_congr (h : after.nameOf = before.nameOf) : after.outline = before.outline := by
  funext node
  have hfields : after.fieldOutline = before.fieldOutline := by
    funext field
    rw [fieldOutline, fieldOutline, h]
  rw [outline, outline, h, hfields]

/-- Whether all numbers in a node are those of nodes. -/
def Numbers (graph : ClassGraph) (node : ClassNode) : Prop :=
  (∀ parent ∈ node.parents, parent < graph.size) ∧ ∀ field ∈ node.fields, field.type < graph.size

/-- Distinct names, and no number that is not one of a node. -/
structure WellNumbered (graph : ClassGraph) : Prop where
  nodup_names : graph.names.Nodup
  numbers : ∀ (id : ClassId) node, graph.nodes[id]? = some node → graph.Numbers node

theorem numbers_placeholder (graph : ClassGraph) (name : String) :
    graph.Numbers (.placeholder name) :=
  ⟨fun _ h => absurd h List.not_mem_nil, fun _ h => absurd h List.not_mem_nil⟩

/-- An outline says as much of a node as that of a placeholder only if the node is one. -/
theorem eq_placeholder_of_outline_eq {node : ClassNode} {name : String}
    (h : graph.outline node = { name }) : node = .placeholder name := by
  obtain ⟨nodeName, access, parents, fields, methods⟩ := node
  simp only [outline, Outline.mk.injEq, List.map_eq_nil_iff] at h
  obtain ⟨rfl, rfl, rfl, rfl, rfl⟩ := h
  rfl

/-! ## Graphs with the same names -/

theorem Mentions.nameOf_eq (h : Mentions before mentioned after) (hid : id < before.size) :
    after.nameOf id = before.nameOf id :=
  nameOf_eq_of_getElem?_names (h.getElem?_names (getElem?_names_eq_nameOf hid))

theorem Mentions.numbers {node : ClassNode} (h : Mentions before mentioned after)
    (hnode : before.Numbers node) : after.Numbers node :=
  ⟨fun parent hparent => Nat.lt_of_lt_of_le (hnode.1 parent hparent) h.size_le,
    fun field hfield => Nat.lt_of_lt_of_le (hnode.2 field hfield) h.size_le⟩

/-- Placeholders hold no numbers. -/
theorem WellNumbered.mention (h : WellNumbered before) (hmentions : Mentions before mentioned after) :
    WellNumbered after where
  nodup_names := hmentions.nodup_names h.nodup_names
  numbers := by
    intro id node hnode
    rcases hmentions.getElem?_nodes_cases hnode with hold | ⟨-, hnew⟩
    · exact hmentions.numbers (h.numbers id node hold)
    · rw [hnew]
      exact after.numbers_placeholder node.name

theorem Mentions.outline_eq {node : ClassNode} (h : Mentions before mentioned after)
    (hnode : before.Numbers node) : after.outline node = before.outline node := by
  have hparents : node.parents.map after.nameOf = node.parents.map before.nameOf :=
    List.map_congr_left fun parent hparent => h.nameOf_eq (hnode.1 parent hparent)
  have hfields : node.fields.map after.fieldOutline = node.fields.map before.fieldOutline :=
    List.map_congr_left fun field hfield => by
      rw [fieldOutline, fieldOutline, h.nameOf_eq (hnode.2 field hfield)]
  rw [outline, outline, hparents, hfields]

end ClassGraph

end AccessTransformer
