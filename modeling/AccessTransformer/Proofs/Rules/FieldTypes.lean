import AccessTransformer.Proofs.ClassGraph.Visits
import AccessTransformer.Proofs.Descriptor.Reading
import AccessTransformer.Rules.Predicate

/-!
# Types of fields in a graph

A field of a visited class holds the number of its type, and that is the node with the name of the
type.  Primitive types and arrays have no names of their own, so they share the nodes of classes
that are named like their descriptors, whether these are declared or not; a predicate on the type of
a field cannot tell the two apart.

* `Represents.exists_field`: what a graph stores for a declared field.
* `Visits.type_eq_iff`: which fields have the same type.
-/

namespace AccessTransformer.ClassGraph

open Descriptor Rules

variable {graph : ClassGraph} {mentioned : List String}
  {declared declarations : List ClassDeclaration} {declaration declaration' : ClassDeclaration}
  {field field' : Member} {type type' : FieldType} {i j : Nat}

/-- The field of a class at a position. -/
def field? (graph : ClassGraph) (className : String) (i : Nat) : Option Field :=
  ((graph.find? className).bind (graph.nodes[·]?)).bind (·.fields[i]?)

/-- What is stored for a declared field has its access and name, and the number of its type. -/
theorem Represents.exists_field (h : Represents graph mentioned declared)
    (hmem : declaration ∈ declared) (hfield : declaration.fields[i]? = some field)
    (htype : type.WellFormed) (hdescriptor : field.descriptor = type.descriptor) :
    ∃ stored, graph.field? declaration.name i = some stored ∧ stored.access = field.access ∧
      stored.name = field.name ∧ graph.names[stored.type]? = some type.name := by
  obtain ⟨id, hid⟩ := h.exists_getElem?_names hmem
  have hfind := (find?_eq_some_iff h.nodup_names).mpr hid
  rw [getElem?_names, Option.map_eq_some_iff] at hid
  obtain ⟨node, hnode, hname⟩ := hid
  have houtline := h.outline_eq id node hnode
  rw [hname, outlineAmong_of_mem h.nodup_declared hmem] at houtline
  have hfields : (node.fields.map graph.fieldOutline)[i]? = some field.fieldOutline := by
    rw [show node.fields.map graph.fieldOutline = declaration.fields.map Member.fieldOutline from
      congrArg Outline.fields houtline, List.getElem?_map, hfield, Option.map_some]
  rw [List.getElem?_map, Option.map_eq_some_iff] at hfields
  obtain ⟨stored, hstored, hsame⟩ := hfields
  obtain ⟨haccess, hname, htypeName⟩ := FieldOutline.mk.inj hsame
  rw [hdescriptor, htype.typeName_descriptor] at htypeName
  refine ⟨stored, ?_, haccess, hname, ?_⟩
  · rw [field?, hfind, Option.bind_some, hnode, Option.bind_some, hstored]
  · have hlt := (h.numbers id node hnode).2 stored (List.mem_of_getElem? hstored)
    rw [getElem?_names_eq_nameOf hlt, htypeName]
    rfl

/-- **Two fields have the same type exactly if their descriptors are equal, or if one is of a
primitive type and the other of the class that has its letter as name.**  A field that is not of a
class has the type of a declared class exactly if that class is named like its descriptor, and a
predicate that asks for the name of the type sees no difference. -/
theorem Visits.type_eq_iff (hvisits : Visits empty declarations graph)
    (hmem : declaration ∈ declarations) (hmem' : declaration' ∈ declarations)
    (hfield : declaration.fields[i]? = some field) (hfield' : declaration'.fields[j]? = some field')
    (htype : type.WellFormed) (htype' : type'.WellFormed)
    (hdescriptor : field.descriptor = type.descriptor)
    (hdescriptor' : field'.descriptor = type'.descriptor) :
    ∃ stored stored', graph.field? declaration.name i = some stored ∧
      graph.field? declaration'.name j = some stored' ∧
      (stored.type = stored'.type ↔ field.descriptor = field'.descriptor ∨
        type.IsNamesake type' ∨ type'.IsNamesake type) ∧
      (¬type.IsClass →
        ((∃ other ∈ declarations, graph.find? other.name = some stored.type) ↔
          ∃ other ∈ declarations, other.name = field.descriptor) ∧
        ∀ name, FieldPredicate.selects (.test (.ofType (.test (.named name)))) graph stored = true ↔
          name = field.descriptor) := by
  have h := hvisits.represents represents_empty
  rw [List.nil_append] at h
  obtain ⟨stored, hstored, -, -, hname⟩ := h.exists_field hmem hfield htype hdescriptor
  obtain ⟨stored', hstored', -, -, hname'⟩ := h.exists_field hmem' hfield' htype' hdescriptor'
  refine ⟨stored, stored', hstored, hstored', ?_, fun hclass => ⟨?_, fun name => ?_⟩⟩
  · have hnames : stored.type = stored'.type ↔ type.name = type'.name := by
      constructor
      · intro heq
        rw [heq] at hname
        exact Option.some.inj (hname.symm.trans hname')
      · intro heq
        rw [heq] at hname
        exact eq_of_getElem?_names h.nodup_names hname hname'
    rw [hnames, htype.name_eq_iff htype', hdescriptor, hdescriptor']
    exact or_congr_left ⟨congrArg FieldType.descriptor, htype.eq_of_descriptor_eq htype'⟩
  · rw [FieldType.name_eq_descriptor hclass, ← hdescriptor] at hname
    refine exists_congr fun other => and_congr_right fun _ => ?_
    rw [find?_eq_some_iff h.nodup_names, hname, Option.some.injEq]
    exact eq_comm
  · rw [FieldType.name_eq_descriptor hclass, ← hdescriptor] at hname
    have hselects : FieldPredicate.selects (.test (.ofType (.test (.named name)))) graph stored
        = decide (graph.nameOf stored.type = name) := rfl
    rw [hselects, nameOf_eq_of_getElem?_names hname, decide_eq_true_iff]
    exact eq_comm

/-- A class with the name of a primitive type. -/
def shortNamed : ClassDeclaration := ⟨"I", 1, none, [], [], []⟩

/-- A class with a number, an instance of that class and an array of numbers. -/
def mixed : ClassDeclaration :=
  ⟨"A", 1, none, [], [⟨2, "x", "I"⟩, ⟨2, "y", "LI;"⟩, ⟨2, "z", "[I"⟩], []⟩

/-- The graph of both classes. -/
def shared : ClassGraph := ((empty.visit shortNamed).1.visit mixed).1

theorem visits_shared : Visits empty [shortNamed, mixed] shared :=
  .cons (by rfl : _ = (_, Except.ok 0)) (.cons (by rfl : _ = (_, Except.ok 1)) (.nil shared))

/-- A number and an instance of a declared class have the same type, and the number is selected by
the name of that class. -/
theorem field?_shared_number :
    Visits empty [shortNamed, mixed] shared ∧ IsFieldDescriptor "I" ∧ IsFieldDescriptor "LI;" ∧
      shared.field? "A" 0 = some ⟨2, "x", 0⟩ ∧ shared.field? "A" 1 = some ⟨2, "y", 0⟩ ∧
      shared.find? "I" = some 0 ∧
      FieldPredicate.selects (.test (.ofType (.test (.named "I")))) shared ⟨2, "x", 0⟩ = true :=
  ⟨visits_shared, ⟨⟨0, .primitive 'I'⟩, by decide, rfl⟩, ⟨⟨0, .object "I"⟩, by decide, rfl⟩,
    by decide, by decide, by decide, by decide⟩

theorem Visits.type_eq_iff_shared :
    Visits empty [shortNamed, mixed] shared ∧
      ∃ stored stored', shared.field? "A" 2 = some stored ∧ shared.field? "A" 1 = some stored' ∧
        stored.type ≠ stored'.type := by
  have hmem : mixed ∈ [shortNamed, mixed] := by decide
  have harray : mixed.fields[2]? = some ⟨2, "z", "[I"⟩ := rfl
  have hinstance : mixed.fields[1]? = some ⟨2, "y", "LI;"⟩ := rfl
  have hnumbers : FieldType.WellFormed ⟨1, .primitive 'I'⟩ := by decide
  have hclass : FieldType.WellFormed ⟨0, .object "I"⟩ := by decide
  obtain ⟨stored, stored', hstored, hstored', heq, -⟩ :=
    visits_shared.type_eq_iff hmem hmem harray hinstance hnumbers hclass rfl rfl
  refine ⟨visits_shared, stored, stored', hstored, hstored', ?_⟩
  rw [ne_eq, heq]
  rintro (h | ⟨letter, -, h, -⟩ | ⟨letter, -, -, h⟩)
  · exact absurd h (by decide)
  · exact absurd h (by simp)
  · exact absurd h (by simp)

end AccessTransformer.ClassGraph
