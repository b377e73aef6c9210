import AccessTransformer.ClassGraph.Basic
import AccessTransformer.Proofs.Partners
import Mathlib.Data.List.Nodup

/-!
# Numbers and names

A graph gives every class name a number, and it never gives it another one: nodes are only ever
added behind the others.  This module says what the operations that can add nodes do to the names,
in terms of one relation.

* `Mentions`: one graph is another one with placeholders for some names.
* `mentions_ensure`, `mentions_ensureAll`, `mentions_linkFields`: the three operations are of that
  kind, the last one for the types of the fields up to the first rejected descriptor.
* `getElem?_names_ensure`, `forall₂_ensureAll`, `forall₂_linkFields`: the numbers that they give
  are those of the names they were asked for.
* `find?_eq_some_iff`: looking up a name gives its number.
-/

namespace AccessTransformer

/-- A class of which nothing but the name is known. -/
def ClassNode.placeholder (name : String) : ClassNode := { name }

@[simp] theorem ClassNode.name_placeholder (name : String) :
    (ClassNode.placeholder name).name = name := rfl

namespace ClassGraph

variable {graph before middle after : ClassGraph} {name : String} {mentioned : List String}
  {id : ClassId}

/-- The names of all nodes, by number. -/
def names (graph : ClassGraph) : List String := graph.nodes.toList.map (·.name)

@[simp] theorem names_empty : empty.names = [] := rfl

@[simp] theorem length_names (graph : ClassGraph) : graph.names.length = graph.size := by
  rw [names, List.length_map, Array.length_toList, size]

theorem getElem?_names (graph : ClassGraph) (id : ClassId) :
    graph.names[id]? = graph.nodes[id]?.map (·.name) := by
  rw [names, List.getElem?_map, Array.getElem?_toList]

theorem getElem?_names_of_getElem?_nodes {node : ClassNode} (h : graph.nodes[id]? = some node) :
    graph.names[id]? = some node.name := by
  rw [getElem?_names, h, Option.map_some]

/-- Going through the nodes with their numbers. -/
theorem getElem?_nodes_of_mem_zipIdx {node : ClassNode}
    (h : (node, id) ∈ graph.nodes.toList.zipIdx) : graph.nodes[id]? = some node := by
  rw [← Array.getElem?_toList]
  exact List.mk_mem_zipIdx_iff_getElem?.mp h

theorem lt_size_of_getElem?_names (h : graph.names[id]? = some name) : id < graph.size := by
  rw [← length_names]
  exact (List.getElem?_eq_some_iff.mp h).1

theorem nameOf_eq_of_getElem?_names (h : graph.names[id]? = some name) :
    graph.nameOf id = name := by
  rw [nameOf, ← getElem?_names, h, Option.getD_some]

theorem getElem?_names_eq_nameOf (h : id < graph.size) :
    graph.names[id]? = some (graph.nameOf id) := by
  rw [← length_names] at h
  have hname := List.getElem?_eq_getElem h
  rw [nameOf_eq_of_getElem?_names hname, hname]

/-- Where names are distinct, a name has one number. -/
theorem eq_of_getElem?_names {other : ClassId} (hnodup : graph.names.Nodup)
    (hid : graph.names[id]? = some name) (hother : graph.names[other]? = some name) :
    id = other := by
  have hlt := lt_size_of_getElem?_names hid
  rw [← length_names] at hlt
  exact (List.getElem?_inj hlt hnodup).mp (hid.trans hother.symm)

theorem mem_names_iff_exists : name ∈ graph.names ↔ ∃ id : ClassId, graph.names[id]? = some name :=
  List.mem_iff_getElem?

/-! ## Looking up a name -/

theorem getElem?_names_of_find? (h : graph.find? name = some id) :
    graph.names[id]? = some name := by
  rw [find?_eq_findIdx?] at h
  obtain ⟨hid, hname, -⟩ := Array.findIdx?_eq_some_iff_getElem.mp h
  rw [getElem?_names, Array.getElem?_eq_getElem hid]
  simpa using hname

theorem find?_eq_none_iff : graph.find? name = none ↔ name ∉ graph.names := by
  rw [find?_eq_findIdx?, Array.findIdx?_eq_none_iff, names, List.mem_map]
  simp

/-- Where names are distinct, looking up a name gives the number of its node. -/
theorem find?_eq_some_iff (hnodup : graph.names.Nodup) :
    graph.find? name = some id ↔ graph.names[id]? = some name := by
  refine ⟨getElem?_names_of_find?, fun h => ?_⟩
  cases hfind : graph.find? name with
  | none => exact absurd (List.mem_of_getElem? h) (find?_eq_none_iff.mp hfind)
  | some other => rw [eq_of_getElem?_names hnodup h (getElem?_names_of_find? hfind)]

/-! ## Graphs of given nodes -/

/-- What is found for a name in a list of names with their positions. -/
theorem lookup_zipIdx (names : List String) (start : Nat) (name : String) :
    (names.zipIdx start).lookup name = (names.findIdx? (· = name)).map (· + start) := by
  induction names generalizing start with
  | nil => rfl
  | cons first names ih =>
    rw [List.zipIdx_cons, List.lookup_cons, List.findIdx?_cons]
    by_cases heq : first = name
    · simp [heq]
    · rw [beq_false_of_ne (Ne.symm heq), ih]
      simp [heq, Function.comp_def, Nat.add_comm, Nat.add_left_comm]

/-- The graph with the given nodes. -/
def ofNodes (nodes : Array ClassNode) (visited : List ClassId) : ClassGraph where
  nodes := nodes
  visited := visited
  index := (nodes.toList.map (·.name)).zipIdx
  indexed := by
    intro name
    rw [lookup_zipIdx, List.findIdx?_map, ← List.findIdx?_toArray]
    simp [Function.comp_def]

/-! ## Placeholders -/

/-- The second graph is the first one with placeholders for those of the names that it lacks. -/
structure Mentions (before : ClassGraph) (mentioned : List String) (after : ClassGraph) : Prop where
  visited_eq : after.visited = before.visited
  exists_nodes_eq : ∃ fresh : List String,
    after.nodes.toList = before.nodes.toList ++ fresh.map ClassNode.placeholder
  mem_names_iff : ∀ name, name ∈ after.names ↔ name ∈ before.names ∨ name ∈ mentioned
  nodup_names : before.names.Nodup → after.names.Nodup

namespace Mentions

theorem refl (graph : ClassGraph) : Mentions graph [] graph where
  visited_eq := rfl
  exists_nodes_eq := ⟨[], by simp⟩
  mem_names_iff := by simp
  nodup_names := fun h => h

theorem trans {mentioned' : List String} (h : Mentions before mentioned middle)
    (h' : Mentions middle mentioned' after) :
    Mentions before (mentioned ++ mentioned') after where
  visited_eq := h'.visited_eq.trans h.visited_eq
  exists_nodes_eq := by
    obtain ⟨fresh, hfresh⟩ := h.exists_nodes_eq
    obtain ⟨fresh', hfresh'⟩ := h'.exists_nodes_eq
    exact ⟨fresh ++ fresh', by rw [hfresh', hfresh, List.map_append, List.append_assoc]⟩
  mem_names_iff := by
    intro name
    rw [h'.mem_names_iff, h.mem_names_iff, List.mem_append, or_assoc]
  nodup_names := fun hnodup => h'.nodup_names (h.nodup_names hnodup)

/-- No node gets another number or changes. -/
theorem getElem?_nodes {node : ClassNode} (h : Mentions before mentioned after)
    (hnode : before.nodes[id]? = some node) : after.nodes[id]? = some node := by
  obtain ⟨fresh, hfresh⟩ := h.exists_nodes_eq
  rw [← Array.getElem?_toList] at hnode ⊢
  rw [hfresh]
  rw [List.getElem?_append_left (List.getElem?_eq_some_iff.mp hnode).1, hnode]

theorem getElem?_names (h : Mentions before mentioned after)
    (hname : before.names[id]? = some name) : after.names[id]? = some name := by
  rw [ClassGraph.getElem?_names, Option.map_eq_some_iff] at hname ⊢
  obtain ⟨node, hnode, rfl⟩ := hname
  exact ⟨node, h.getElem?_nodes hnode, rfl⟩

/-- A node is one of before, under the number it had, or a placeholder. -/
theorem getElem?_nodes_cases {node : ClassNode} (h : Mentions before mentioned after)
    (hnode : after.nodes[id]? = some node) :
    before.nodes[id]? = some node ∨
      before.size ≤ id ∧ node = ClassNode.placeholder node.name := by
  obtain ⟨fresh, hfresh⟩ := h.exists_nodes_eq
  rw [← Array.getElem?_toList] at hnode ⊢
  rw [hfresh] at hnode
  rcases Nat.lt_or_ge id before.nodes.toList.length with hlt | hge
  · rw [List.getElem?_append_left hlt] at hnode
    exact Or.inl hnode
  · rw [List.getElem?_append_right hge, List.getElem?_map, Option.map_eq_some_iff] at hnode
    obtain ⟨fresh, -, rfl⟩ := hnode
    exact Or.inr ⟨by rwa [Array.length_toList] at hge, rfl⟩

theorem size_le (h : Mentions before mentioned after) : before.size ≤ after.size := by
  obtain ⟨fresh, hfresh⟩ := h.exists_nodes_eq
  rw [size, size, ← Array.length_toList, ← Array.length_toList, hfresh, List.length_append]
  exact Nat.le_add_right _ _

end Mentions

/-! ## The operations that mention names -/

theorem names_push (graph : ClassGraph) (name : String) :
    (graph.push name).names = graph.names ++ [name] := by
  simp only [push, names, Array.toList_push, List.map_append, List.map_cons, List.map_nil]

theorem mentions_ensure (graph : ClassGraph) (name : String) :
    Mentions graph [name] (graph.ensure name).1 := by
  unfold ensure
  cases hfind : graph.find? name with
  | some id =>
    have hmem := List.mem_of_getElem? (getElem?_names_of_find? hfind)
    exact ⟨rfl, ⟨[], by simp⟩, by simp [or_iff_left_of_imp, hmem], fun h => h⟩
  | none =>
    refine ⟨rfl, ⟨[name], by simp [push, ClassNode.placeholder]⟩, fun other => ?_, fun hnodup => ?_⟩
    · rw [names_push, List.mem_append]
    · rw [names_push]
      have hname := find?_eq_none_iff.mp hfind
      exact hnodup.append (List.nodup_singleton name) (by simpa using hname)

/-- The number given for a name is the number of that name. -/
theorem getElem?_names_ensure (graph : ClassGraph) (name : String) :
    (graph.ensure name).1.names[(graph.ensure name).2]? = some name := by
  unfold ensure
  cases hfind : graph.find? name with
  | some id => exact getElem?_names_of_find? hfind
  | none =>
    rw [names_push, ← length_names]
    exact List.getElem?_concat_length

theorem mentions_ensureAll (graph : ClassGraph) (names : List String) :
    Mentions graph names (graph.ensureAll names).1 := by
  induction names generalizing graph with
  | nil => exact Mentions.refl graph
  | cons name names ih => exact (mentions_ensure graph name).trans (ih (graph.ensure name).1)

/-- The numbers given for names are the numbers of those names. -/
theorem forall₂_ensureAll (graph : ClassGraph) (names : List String) :
    List.Forall₂ (fun name id => (graph.ensureAll names).1.names[id]? = some name) names
      (graph.ensureAll names).2 := by
  induction names generalizing graph with
  | nil => exact List.Forall₂.nil
  | cons name names ih =>
    have hname := getElem?_names_ensure graph name
    exact List.Forall₂.cons
      ((mentions_ensureAll (graph.ensure name).1 names).getElem?_names hname)
      (ih (graph.ensure name).1)

/-! ## The types of fields -/

/-- The types of the fields up to the first of them that has no type. -/
def typeNames : List Member → List String
  | [] => []
  | field :: fields =>
    match Descriptor.typeName field.descriptor with
    | .ok typeName => typeName :: typeNames fields
    | .error _ => []

/-- Whether every field has a type. -/
def AllTyped (fields : List Member) : Prop :=
  ∀ field ∈ fields, ∃ typeName, Descriptor.typeName field.descriptor = .ok typeName

theorem mentions_linkFields (graph : ClassGraph) (fields : List Member) :
    Mentions graph (typeNames fields) (graph.linkFields fields).1 := by
  induction fields generalizing graph with
  | nil => exact Mentions.refl graph
  | cons field fields ih =>
    simp only [linkFields, typeNames]
    cases Descriptor.typeName field.descriptor with
    | error fault => exact Mentions.refl graph
    | ok typeName => exact (mentions_ensure graph typeName).trans (ih (graph.ensure typeName).1)

/-- Whether a field of the graph is a declared one, its type given by number. -/
def Links (graph : ClassGraph) (declared : Member) (field : Field) : Prop :=
  field.access = declared.access ∧ field.name = declared.name ∧
    ∃ typeName, Descriptor.typeName declared.descriptor = .ok typeName ∧
      graph.names[field.type]? = some typeName

/-- Linked fields are the declared ones, with the numbers of their types. -/
theorem forall₂_linkFields {fields : List Member} {linked : List Field}
    (h : (graph.linkFields fields).2 = .ok linked) :
    List.Forall₂ (Links (graph.linkFields fields).1) fields linked := by
  induction fields generalizing graph linked with
  | nil =>
    obtain rfl : [] = linked := Except.ok.inj h
    exact List.Forall₂.nil
  | cons field fields ih =>
    simp only [linkFields] at h ⊢
    cases htype : Descriptor.typeName field.descriptor with
    | error fault =>
      rw [htype] at h
      cases h
    | ok typeName =>
      rw [htype] at h
      simp only at h ⊢
      cases hrest : ((graph.ensure typeName).1.linkFields fields).2 with
      | error failure =>
        rw [hrest] at h
        cases h
      | ok rest =>
        rw [hrest] at h
        obtain rfl := Except.ok.inj h
        refine List.Forall₂.cons ⟨rfl, rfl, typeName, htype, ?_⟩ (ih hrest)
        exact (mentions_linkFields _ fields).getElem?_names (getElem?_names_ensure graph typeName)

/-- Fields can be linked exactly when every one of them has a type. -/
theorem exists_linkFields_eq_ok_iff (graph : ClassGraph) (fields : List Member) :
    (∃ linked, (graph.linkFields fields).2 = .ok linked) ↔ AllTyped fields := by
  induction fields generalizing graph with
  | nil => simp [linkFields, AllTyped]
  | cons field fields ih =>
    rw [AllTyped, List.forall_mem_cons, ← AllTyped]
    simp only [linkFields]
    cases Descriptor.typeName field.descriptor with
    | error fault => simp [Outcome.fail, Outcome.during]
    | ok typeName =>
      rw [← ih (graph.ensure typeName).1]
      simp only [Except.ok.injEq, exists_eq', true_and]
      cases ((graph.ensure typeName).1.linkFields fields).2 with
      | error failure => simp [Except.map]
      | ok rest => simp [Except.map]

end ClassGraph

end AccessTransformer
