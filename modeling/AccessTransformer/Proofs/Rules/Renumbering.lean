import AccessTransformer.Proofs.ClassGraph.Renumbering
import AccessTransformer.Proofs.Rules.Sections
import AccessTransformer.Proofs.Text.Order
import AccessTransformer.Rules.Listing

/-!
# Evaluation without numbers

Graphs with the same outlines give every group the same lines, though in another order, and a
listing puts lines in order.  So the listing depends on the outlines alone.

* `Group.lines_perm`: the lines of a group in two graphs with the same outlines.
* `listing_sections_eq`: the listings for the two graphs.
-/

namespace AccessTransformer.Rules

open ClassGraph

variable {graph graph' : ClassGraph} {id id' : ClassId} {node node' : ClassNode} {name : String}

/-! ## Predicates -/

/-- A class predicate selects a class in both graphs or in neither. -/
theorem ClassPredicate.selects_eq (h : SameOutlines graph graph')
    (hid : graph.names[id]? = some name) (hid' : graph'.names[id']? = some name)
    (predicate : ClassPredicate) : predicate.selects graph id = predicate.selects graph' id' := by
  have hpasses : ClassTest.passes graph id = ClassTest.passes graph' id' := by
    funext test
    cases test with
    | named text =>
      rw [ClassTest.passes, ClassTest.passes, nameOf_eq_of_getElem?_names hid,
        nameOf_eq_of_getElem?_names hid']
    | hasSuperclass text => exact h.hasSuperclass_eq hid hid' text
    | innerClassOf outer =>
      rw [ClassTest.passes, ClassTest.passes, nameOf_eq_of_getElem?_names hid,
        nameOf_eq_of_getElem?_names hid']
  rw [ClassPredicate.selects, ClassPredicate.selects, hpasses]

/-- A field predicate selects a field in both graphs or in neither. -/
theorem FieldPredicate.selects_eq (h : SameOutlines graph graph') {field field' : Field}
    (htype : field.type < graph.size) (htype' : field'.type < graph'.size)
    (hfield : graph.fieldOutline field = graph'.fieldOutline field')
    (predicate : FieldPredicate) :
    predicate.selects graph field = predicate.selects graph' field' := by
  obtain ⟨-, hname, hnameOf⟩ := FieldOutline.mk.inj hfield
  have hpasses : FieldTest.passes graph field = FieldTest.passes graph' field' := by
    funext test
    cases test with
    | named text => rw [FieldTest.passes, FieldTest.passes, hname]
    | ofType type =>
      refine ClassPredicate.selects_eq h (getElem?_names_eq_nameOf htype) ?_ type
      rw [hnameOf]
      exact getElem?_names_eq_nameOf htype'
  rw [FieldPredicate.selects, FieldPredicate.selects, hpasses]

/-! ## Lines -/

namespace Group

/-- What is selected and written alike from two lists that agree entry by entry is the same. -/
theorem map_filter_eq_of_forall₂ {α β : Type} {R : α → α → Prop} {as bs : List α}
    {p q : α → Bool} {f g : α → β} (h : List.Forall₂ R as bs)
    (hp : ∀ a b, R a b → p a = q b) (hf : ∀ a b, R a b → f a = g b) :
    (as.filter p).map f = (bs.filter q).map g := by
  induction h with
  | nil => rfl
  | cons hab _ ih =>
    rw [List.filter_cons, List.filter_cons, hp _ _ hab]
    split
    · rw [List.map_cons, List.map_cons, hf _ _ hab, ih]
    · exact ih

/-- The line for a method tells nothing of its class but the name. -/
theorem methodLine_congr (group : Group) (hname : node.name = node'.name) :
    group.methodLine node = group.methodLine node' := by
  funext method
  rw [methodLine, methodLine, hname]

/-- Fields with the same outlines, one by one, and with types that are numbers of their graphs. -/
theorem forall₂_fields (h : SameOutlines graph graph') (hnode : graph.nodes[id]? = some node)
    (hnode' : graph'.nodes[id']? = some node')
    (hfields : node.fields.map graph.fieldOutline = node'.fields.map graph'.fieldOutline) :
    List.Forall₂ (fun field field' => graph.fieldOutline field = graph'.fieldOutline field' ∧
      field.type < graph.size ∧ field'.type < graph'.size) node.fields node'.fields := by
  rw [← List.forall₂_eq_eq_eq, List.forall₂_map_left_iff, List.forall₂_map_right_iff] at hfields
  have htypes := (h.left.numbers id node hnode).2
  have htypes' := (h.right.numbers id' node' hnode').2
  refine List.forall₂_iff_zip.mpr ⟨hfields.length_eq, fun {field field'} hzip => ?_⟩
  exact ⟨List.forall₂_zip hfields hzip, htypes field (List.of_mem_zip hzip).1,
    htypes' field' (List.of_mem_zip hzip).2⟩

/-- What a target selects in a class has the same lines in both graphs. -/
theorem targetLines_eq (h : SameOutlines graph graph') (group : Group)
    (hnode : graph.nodes[id]? = some node) (hnode' : graph'.nodes[id']? = some node')
    (houtline : graph.outline node = graph'.outline node') :
    group.targetLines graph id node = group.targetLines graph' id' node' := by
  have hid := getElem?_names_of_getElem?_nodes hnode
  have hid' := getElem?_names_of_getElem?_nodes hnode'
  obtain ⟨hname, haccess, -, hfields, hmethods⟩ := Outline.mk.inj houtline
  rw [← hname] at hid'
  unfold targetLines
  cases group.target with
  | fields predicate =>
    refine map_filter_eq_of_forall₂ (forall₂_fields h hnode hnode' hfields) ?_ ?_
    · rintro field field' ⟨hfield, htype, htype'⟩
      have hflags : field.access = field'.access := congrArg FieldOutline.access hfield
      rw [FieldPredicate.selects_eq h htype htype' hfield, hflags]
    · rintro field field' ⟨hfield, -, -⟩
      have hfieldName : field.name = field'.name := congrArg FieldOutline.name hfield
      rw [fieldLine, fieldLine, hname, hfieldName]
  | methods predicate => simp only [hmethods, group.methodLine_congr hname]
  | classes =>
    simp only [constructorLines, classLine, h.hasSuperclass_eq hid hid', hname, haccess, hmethods,
      group.methodLine_congr hname]

/-- A class has the same lines in both graphs. -/
theorem linesOf_eq (h : SameOutlines graph graph') (group : Group)
    (hnode : graph.nodes[id]? = some node) (hnode' : graph'.nodes[id']? = some node')
    (houtline : graph.outline node = graph'.outline node') :
    group.linesOf graph id node = group.linesOf graph' id' node' := by
  have hname : node.name = node'.name := congrArg Outline.name houtline
  have hid := getElem?_names_of_getElem?_nodes hnode
  have hid' := getElem?_names_of_getElem?_nodes hnode'
  rw [← hname] at hid'
  unfold linesOf
  rw [ClassPredicate.selects_eq h hid hid', group.targetLines_eq h hnode hnode' houtline, hname]

/-- The lines for the class of the given name. -/
def linesNamed (group : Group) (graph : ClassGraph) (name : String) : List String :=
  match graph.find? name with
  | some id => (graph.nodes[id]?.map (group.linesOf graph id)).getD []
  | none => []

theorem linesNamed_eq_linesOf (hnodup : graph.names.Nodup) (group : Group)
    (hnode : graph.nodes[id]? = some node) :
    group.linesNamed graph node.name = group.linesOf graph id node := by
  have hid := (find?_eq_some_iff hnodup).mpr (getElem?_names_of_getElem?_nodes hnode)
  rw [linesNamed, hid]
  show (graph.nodes[id]?.map (group.linesOf graph id)).getD [] = _
  rw [hnode, Option.map_some, Option.getD_some]

/-- The lines of a group, name by name. -/
theorem lines_eq_flatMap_names (hnodup : graph.names.Nodup) (group : Group) :
    group.lines graph = graph.names.flatMap (group.linesNamed graph) := by
  have hnodes : graph.nodes.toList = graph.nodes.toList.zipIdx.map Prod.fst :=
    (List.zipIdx_map_fst 0 _).symm
  rw [lines, names, hnodes, List.map_map, List.flatMap_map, ← hnodes]
  apply List.flatMap_congr
  rintro ⟨node, id⟩ hmem
  exact (linesNamed_eq_linesOf hnodup group (getElem?_nodes_of_mem_zipIdx hmem)).symm

/-- A name has the same lines in both graphs. -/
theorem linesNamed_eq (h : SameOutlines graph graph') (group : Group) (hmem : name ∈ graph.names) :
    group.linesNamed graph name = group.linesNamed graph' name := by
  obtain ⟨id, hid⟩ := mem_names_iff_exists.mp hmem
  obtain ⟨node, hnode, rfl⟩ := exists_getElem?_nodes hid
  obtain ⟨id', node', hnode', houtline⟩ := h.exists_node hnode
  have hname : node'.name = node.name := congrArg Outline.name houtline
  rw [linesNamed_eq_linesOf h.left.nodup_names group hnode, ← hname,
    linesNamed_eq_linesOf h.right.nodup_names group hnode']
  exact group.linesOf_eq h hnode hnode' houtline.symm

/-- **A group has the same lines in both graphs, in some order.** -/
theorem lines_perm (h : SameOutlines graph graph') (group : Group) :
    (group.lines graph).Perm (group.lines graph') := by
  rw [lines_eq_flatMap_names h.left.nodup_names, lines_eq_flatMap_names h.right.nodup_names,
    List.flatMap_congr fun name hmem => group.linesNamed_eq h hmem]
  exact h.perm_names.flatMap_right _

end Group

/-! ## Listings -/

/-- The blocks of a group are the same for both graphs. -/
theorem Group.text_section_eq (h : SameOutlines graph graph') (group : Group) :
    (group.section graph).text = (group.section graph').text := by
  have hlines : (group.section graph).sortedLines = (group.section graph').sortedLines :=
    Text.sort_eq_of_perm (group.lines_perm h)
  rw [Section.text, Section.text, hlines]
  rfl

/-- **The listings for both graphs are the same, or the evaluation stops at the same group.** -/
theorem listing_sections_eq (h : SameOutlines graph graph') (groups : List Group) :
    (sections graph groups).map listing = (sections graph' groups).map listing := by
  have hempty : ∀ group : Group, group.lines graph = [] ↔ group.lines graph' = [] := by
    intro group
    rw [← List.length_eq_zero_iff, ← List.length_eq_zero_iff, (group.lines_perm h).length_eq]
  cases hsections : sections graph groups with
  | ok listed =>
    obtain ⟨hlines, rfl⟩ := sections_eq_ok_iff.mp hsections
    have hlines' : ∀ group ∈ groups, group.lines graph' ≠ [] := fun group hmem hempty' =>
      hlines group hmem ((hempty group).mpr hempty')
    rw [sections_eq_ok_iff.mpr ⟨hlines', rfl⟩]
    have htexts : (groups.map (·.section graph)).map Section.text
        = (groups.map (·.section graph')).map Section.text := by
      rw [List.map_map, List.map_map]
      exact List.map_congr_left fun group _ => group.text_section_eq h
    rw [Except.map, Except.map, listing, listing, htexts]
  | error fault =>
    obtain ⟨before, group, after, hgroups, hbefore, hgroup, hfault⟩ :=
      sections_eq_error_iff.mp hsections
    have hsections' : sections graph' groups = .error fault :=
      sections_eq_error_iff.mpr ⟨before, group, after, hgroups,
        fun earlier hmem hempty' => hbefore earlier hmem ((hempty earlier).mpr hempty'),
        (hempty group).mp hgroup, hfault⟩
    rw [hsections']

end AccessTransformer.Rules
