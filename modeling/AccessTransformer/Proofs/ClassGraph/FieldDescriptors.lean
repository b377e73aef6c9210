import AccessTransformer.Proofs.ClassGraph.Histories
import AccessTransformer.Proofs.Descriptor.Reading

/-!
# Visits of classes with one field

Whether the visit of a class that was not visited before succeeds is decided by the descriptors of
its fields alone.  With a single field it succeeds exactly if that descriptor is read as one, which
is the case for all field descriptors, and for the texts that are misread.  The field then has the
type that the descriptor is read as.

* `Represents.records_visit`: what a visit that succeeds leaves at the node of the class.
* `visit_field_iff`: which descriptors are accepted, and the type of the field.
-/

namespace AccessTransformer.ClassGraph

open Descriptor

variable {graph after : ClassGraph} {mentioned : List String} {declared : List ClassDeclaration}
  {declaration : ClassDeclaration} {field : Member} {id : ClassId} {name : String}

/-- What a graph holds for a declared class is its declaration. -/
theorem Represents.records (h : Represents graph mentioned declared) (hmem : declaration ∈ declared)
    (htyped : AllTyped declaration.fields) (hid : graph.names[id]? = some declaration.name) :
    ∃ node, graph.nodes[id]? = some node ∧ Records graph node declaration := by
  rw [getElem?_names, Option.map_eq_some_iff] at hid
  obtain ⟨node, hnode, hname⟩ := hid
  have houtline := h.outline_eq id node hnode
  rw [hname, outlineAmong_of_mem h.nodup_declared hmem] at houtline
  exact ⟨node, hnode, records_of_outline_eq (h.numbers id node hnode) htyped houtline⟩

/-- A visit that succeeds gives the number of a node that holds the declaration. -/
theorem Represents.records_visit (h : Represents graph mentioned declared)
    (hvisit : graph.visit declaration = (after, .ok id)) :
    ∃ node, after.nodes[id]? = some node ∧ Records after node declaration := by
  have htyped := ((h.exists_visit_eq_ok_iff declaration).mp ⟨after, id, hvisit⟩).2
  have hid : after.names[id]? = some declaration.name := by
    rcases visit_cases graph declaration with ⟨-, hcase⟩ | ⟨-, full, -, ⟨-, failure, hcase⟩ |
      ⟨-, id', parents, fields, hid, -, -, -, hcase⟩⟩
    · exact nomatch hvisit.symm.trans hcase
    · exact nomatch hvisit.symm.trans hcase
    · obtain ⟨rfl, hid'⟩ := Prod.mk.inj (hvisit.symm.trans hcase)
      obtain rfl := Except.ok.inj hid'
      rw [names_declareAt, hid]
  exact (h.visit hvisit).records (List.mem_append_right _ (List.mem_singleton_self _)) htyped hid

/-- **A class with one field that was not visited before is visited successfully exactly if the
descriptor of the field is a field descriptor or misread as one, which is never both.**  The type of
the field is then the class that the descriptor names, and named by the descriptor if it names
none. -/
theorem visit_field_iff (history : List Request) (declaration : ClassDeclaration) (field : Member)
    (hfields : declaration.fields = [field])
    (hnew : ∀ earlier, Visited history earlier → earlier.name ≠ declaration.name) :
    ((∃ id, ((run history).visit declaration).2 = .ok id) ↔
      IsFieldDescriptor field.descriptor ∨ IsMisread field.descriptor) ∧
    ¬(IsFieldDescriptor field.descriptor ∧ IsMisread field.descriptor) ∧
    ∀ after id, (run history).visit declaration = (after, .ok id) →
      ∃ node stored typeName, after.nodes[id]? = some node ∧ node.name = declaration.name ∧
        node.fields = [stored] ∧ stored.access = field.access ∧ stored.name = field.name ∧
        after.names[stored.type]? = some typeName ∧
        (field.descriptor = classDescriptor typeName ∨
          (∀ name, field.descriptor ≠ classDescriptor name) ∧ typeName = field.descriptor) := by
  obtain ⟨mentioned, declared, h, -, hdeclared⟩ := exists_represents_run history
  have hname : declaration.name ∉ declared.map (·.name) := by
    rw [List.mem_map]
    rintro ⟨earlier, hmem, heq⟩
    exact hnew earlier ((hdeclared earlier).mp hmem) heq
  refine ⟨?_, fun hboth => hboth.1.not_isMisread hboth.2, fun after id hvisit => ?_⟩
  · have hsucceeds : (∃ id, ((run history).visit declaration).2 = .ok id) ↔
        AllTyped declaration.fields := by
      rw [← and_iff_right (b := AllTyped declaration.fields) hname, ← h.exists_visit_eq_ok_iff]
      constructor
      · rintro ⟨id, hid⟩
        exact ⟨_, id, Prod.ext rfl hid⟩
      · rintro ⟨after, id, hvisit⟩
        exact ⟨id, congrArg Prod.snd hvisit⟩
    rw [hsucceeds, hfields, AllTyped, List.forall_mem_singleton, exists_typeName_eq_ok_iff]
  · obtain ⟨node, hnode, hrecords⟩ := h.records_visit hvisit
    have hlinks := hrecords.fields
    rw [hfields, List.forall₂_cons_left_iff] at hlinks
    obtain ⟨stored, rest, ⟨haccess, hstored, typeName, htype, hnumber⟩, hrest, hstoredFields⟩ :=
      hlinks
    obtain rfl := List.forall₂_nil_left_iff.mp hrest
    refine ⟨node, stored, typeName, hnode, hrecords.name_eq, hstoredFields, haccess, hstored,
      hnumber, ?_⟩
    rcases typeName_eq_ok_iff.mp htype with heq | ⟨heq, type, rest, hreadable, hclass, htext⟩
    · exact Or.inl heq
    · exact Or.inr ⟨ne_classDescriptor hreadable hclass _ htext, heq⟩

/-- A class with one field. -/
def oneField (className descriptor : String) : ClassDeclaration :=
  ⟨className, 1, none, [], [⟨2, "x", descriptor⟩], []⟩

theorem visit_field_iff_array :
    (∃ id, ((run [.ensure "a/C"]).visit (oneField "A" "[[La/C;")).2 = .ok id) ∧
      ∃ after node stored, (run [.ensure "a/C"]).visit (oneField "A" "[[La/C;") = (after, .ok 1) ∧
        after.nodes[1]? = some node ∧ node.fields = [stored] ∧
        after.names[stored.type]? = some "[[La/C;" := by
  have hnew : ∀ earlier, Visited [.ensure "a/C"] earlier → earlier.name ≠ "A" := by
    intro earlier hvisited
    rw [← List.nil_append [Request.ensure "a/C"], visited_append_singleton_iff] at hvisited
    rcases hvisited with hvisited | ⟨hrequest, -⟩
    · exact absurd hvisited (not_visited_nil earlier)
    · cases hrequest
  obtain ⟨hsucceeds, -, htype⟩ :=
    visit_field_iff [.ensure "a/C"] (oneField "A" "[[La/C;") ⟨2, "x", "[[La/C;"⟩ rfl hnew
  have hdescriptor : IsFieldDescriptor "[[La/C;" := ⟨⟨2, .object "a/C"⟩, by decide, rfl⟩
  refine ⟨hsucceeds.mpr (Or.inl hdescriptor), ?_⟩
  have hvisit : (run [.ensure "a/C"]).visit (oneField "A" "[[La/C;")
      = (((run [.ensure "a/C"]).visit (oneField "A" "[[La/C;")).1, .ok 1) := rfl
  obtain ⟨node, stored, typeName, hnode, -, hstored, -, -, hnumber, hclass | ⟨-, rfl⟩⟩ :=
    htype _ _ hvisit
  · have hfirst := congrArg (fun text : String => text.toList.head?) hclass
    simp [classDescriptor] at hfirst
  · exact ⟨_, node, stored, hvisit, hnode, hstored, hnumber⟩

/-- Void, a type with something behind it and a class without a name are no types of fields. -/
theorem isMisread_of_void : IsMisread "V" ∧ IsMisread "IX" ∧ IsMisread "L;" := by
  refine ⟨Or.inr ⟨⟨0, .primitive 'V'⟩, "", by decide, nofun, Or.inr (by decide), rfl⟩, ?_, ?_⟩
  · exact Or.inr ⟨⟨0, .primitive 'I'⟩, "X", by decide, nofun, Or.inl (by decide), rfl⟩
  · exact Or.inl ⟨"", by decide, rfl⟩

/-- All the same, visits of classes with such fields succeed. -/
theorem visit_misread :
    (¬IsFieldDescriptor "V" ∧ ((run []).visit (oneField "A" "V")).2 = .ok 0) ∧
      (¬IsFieldDescriptor "IX" ∧ ((run []).visit (oneField "A" "IX")).2 = .ok 0) ∧
      ¬IsFieldDescriptor "L;" ∧ ((run []).visit (oneField "A" "L;")).2 = .ok 0 := by
  obtain ⟨hvoid, hbehind, hnameless⟩ := isMisread_of_void
  exact ⟨⟨fun h => h.not_isMisread hvoid, rfl⟩, ⟨fun h => h.not_isMisread hbehind, rfl⟩,
    fun h => h.not_isMisread hnameless, rfl⟩

end AccessTransformer.ClassGraph
