import AccessTransformer.Proofs.Rules.Generation
import AccessTransformer.Proofs.Rules.Meaning

/-!
# Lines for classes that are not declared

The graph of an archive has nodes for classes that the archive mentions but does not declare:
superclasses, interfaces and types of fields, primitive types and arrays among them.  They have no
members, and no flags, so they satisfy no modifier.  A group for classes that selects one of them
writes a line for it, and is not found empty; groups for fields and methods pass over them.

* `Group.linesNamed_ne_nil_iff`: which lines there are for a class that is not declared.
* `generate_lines_declared_iff`: when all lines are for declared classes, and when a group that
  selects no declared class is found empty.
-/

namespace AccessTransformer.Rules

open ClassGraph

variable {archive : Archive} {path : String} {graph : ClassGraph} {group : Group} {id : ClassId}
  {node : ClassNode} {name : String} {mentioned : List String} {declared : List ClassDeclaration}

/-- No flags satisfy no modifier. -/
theorem Modifier.not_satisfies_zero (modifier : Modifier) : ¬modifier.Satisfies 0 := by
  rintro ⟨-, hmask⟩
  exact hmask UInt16.zero_and

namespace Group

/-! ## Which class a line is for -/

/-- What can stand behind the name of a class in a line for it. -/
def lineEnds (node : ClassNode) : List String :=
  "" :: (node.fields.map (" " ++ ·.name)
    ++ node.methods.map fun method => " " ++ method.name ++ method.descriptor)

/-- A line for a class is the modifier, the name of the class, and nothing else or a member. -/
theorem exists_mem_lineEnds_of_mem_linesOf {line : String}
    (hline : line ∈ group.linesOf graph id node) :
    ∃ rest ∈ lineEnds node, line = group.modifier.name ++ " " ++ dotted node.name ++ rest := by
  have hmethod : ∀ method ∈ node.methods, ∃ rest ∈ lineEnds node,
      group.methodLine node method = group.modifier.name ++ " " ++ dotted node.name ++ rest := by
    intro method hmem
    refine ⟨" " ++ method.name ++ method.descriptor, ?_, ?_⟩
    · exact List.mem_cons_of_mem _
        (List.mem_append_right _ (List.mem_map.mpr ⟨method, hmem, rfl⟩))
    · rw [methodLine_eq, ← String.append_assoc, ← String.append_assoc]
  unfold linesOf targetLines at hline
  split at hline
  · cases htarget : group.target with
    | fields predicate =>
      rw [htarget] at hline
      obtain ⟨field, hfield, rfl⟩ := List.mem_map.mp hline
      refine ⟨" " ++ field.name, ?_, ?_⟩
      · exact List.mem_cons_of_mem _ (List.mem_append_left _
          (List.mem_map.mpr ⟨field, (List.mem_filter.mp hfield).1, rfl⟩))
      · rw [fieldLine_eq, ← String.append_assoc]
    | methods predicate =>
      rw [htarget] at hline
      obtain ⟨method, hmem, rfl⟩ := List.mem_map.mp hline
      exact hmethod method (List.mem_filter.mp hmem).1
    | classes =>
      rw [htarget] at hline
      by_cases hsatisfies : group.modifier.Satisfies node.access
      · simp only [if_pos hsatisfies, List.not_mem_nil] at hline
      · simp only [if_neg hsatisfies, List.mem_cons] at hline
        rcases hline with rfl | hconstructor
        · exact ⟨"", List.mem_cons_self, by rw [String.append_empty, classLine_eq]⟩
        · unfold constructorLines at hconstructor
          split at hconstructor
          · obtain ⟨method, hmem, rfl⟩ := List.mem_map.mp hconstructor
            exact hmethod method (List.mem_filter.mp hmem).1
          · exact absurd hconstructor List.not_mem_nil
  · exact absurd hline List.not_mem_nil

/-- A line for a class starts with the modifier and the name of the class. -/
theorem exists_eq_append_of_mem_linesOf {line : String}
    (hline : line ∈ group.linesOf graph id node) :
    ∃ rest, line = group.modifier.name ++ " " ++ dotted node.name ++ rest := by
  obtain ⟨rest, -, heq⟩ := exists_mem_lineEnds_of_mem_linesOf hline
  exact ⟨rest, heq⟩

/-- The lines for the class of a name are those for its node. -/
theorem exists_node_of_mem_linesNamed {line : String} (hline : line ∈ group.linesNamed graph name) :
    ∃ (id : ClassId) (node : ClassNode), graph.nodes[id]? = some node ∧ node.name = name ∧
      line ∈ group.linesOf graph id node := by
  unfold linesNamed at hline
  cases hfind : graph.find? name with
  | none =>
    rw [hfind] at hline
    exact absurd hline List.not_mem_nil
  | some id =>
    obtain ⟨node, hnode, hname⟩ := exists_getElem?_nodes (getElem?_names_of_find? hfind)
    simp only [hfind, hnode, Option.map_some, Option.getD_some] at hline
    exact ⟨id, node, hnode, hname, hline⟩

/-! ## Classes without a declaration -/

/-- Whether a group selects the class of the given name. -/
def Selects (group : Group) (graph : ClassGraph) (name : String) : Prop :=
  ∃ id : ClassId, graph.names[id]? = some name ∧
    group.classes.Holds (ClassTest.Holds graph id) ∧ ¬HasNumberedPart name

/-- Whether a group is for classes and selects one that the archive does not declare. -/
def SelectsUndeclared (group : Group) (archive : Archive) (graph : ClassGraph) : Prop :=
  group.target = .classes ∧ ∃ name, ¬archive.Declares name ∧ group.Selects graph name

/-- A placeholder has a line in groups for classes, and none in others. -/
theorem targetLines_placeholder_ne_nil_iff :
    group.targetLines graph id (.placeholder name) ≠ [] ↔ group.target = .classes := by
  unfold targetLines
  cases group.target with
  | fields predicate => simp [ClassNode.placeholder]
  | methods predicate => simp [ClassNode.placeholder]
  | classes =>
    have hsatisfies : ¬group.modifier.Satisfies (ClassNode.placeholder name).access :=
      group.modifier.not_satisfies_zero
    simp [hsatisfies]

/-- **A class that is not declared has a line exactly in the groups for classes that select it.** -/
theorem linesNamed_ne_nil_iff (h : graph.Represents mentioned declared)
    (hname : name ∉ declared.map (·.name)) :
    group.linesNamed graph name ≠ [] ↔ group.target = .classes ∧ group.Selects graph name := by
  by_cases hmem : name ∈ graph.names
  · obtain ⟨id, hid⟩ := mem_names_iff_exists.mp hmem
    have hnode := h.getElem?_nodes_of_notMem hid hname
    have hselects : group.Selects graph name ↔
        group.classes.Holds (ClassTest.Holds graph id) ∧ ¬HasNumberedPart name := by
      constructor
      · rintro ⟨other, hother, hholds⟩
        rwa [← eq_of_getElem?_names h.nodup_names hother hid]
      · exact fun hholds => ⟨id, hid, hholds⟩
    have hlines := linesNamed_eq_linesOf h.nodup_names group hnode
    rw [ClassNode.name_placeholder] at hlines
    rw [hlines, hselects, linesOf, ClassNode.name_placeholder]
    by_cases hholds : group.classes.Holds (ClassTest.Holds graph id) ∧ ¬HasNumberedPart name
    · rw [if_pos ((selects_and_not_isAnonymous_iff h.nodup_names).mpr hholds),
        targetLines_placeholder_ne_nil_iff]
      exact ⟨fun htarget => ⟨htarget, hholds⟩, fun hboth => hboth.1⟩
    · rw [if_neg (mt (selects_and_not_isAnonymous_iff h.nodup_names).mp hholds)]
      exact iff_of_false (fun hne => hne rfl) fun hboth => hholds hboth.2
  · rw [linesNamed, find?_eq_none_iff.mpr hmem]
    refine iff_of_false (fun hne => hne rfl) ?_
    rintro ⟨-, id, hid, -⟩
    exact hmem (List.mem_of_getElem? hid)

/-! ## Groups that select no declared class -/

/-- All lines of a group are for declared classes exactly if it selects no other class. -/
theorem forall_linesNamed_declares_iff (hgraph : archive.classGraph path = .ok graph) :
    (∀ name, ∀ line ∈ group.linesNamed graph name, archive.Declares name) ↔
      ¬group.SelectsUndeclared archive graph := by
  obtain ⟨mentioned, declared, h, hdeclares⟩ := Archive.exists_represents hgraph
  constructor
  · rintro hlines ⟨htarget, name, hname, hselects⟩
    have hne := (linesNamed_ne_nil_iff h (mt (hdeclares name).mpr hname)).mpr ⟨htarget, hselects⟩
    obtain ⟨line, hline⟩ := List.exists_mem_of_ne_nil _ hne
    exact hname (hlines name line hline)
  · intro hselects name line hline
    by_contra hname
    have hne := List.ne_nil_of_mem hline
    obtain ⟨htarget, hholds⟩ := (linesNamed_ne_nil_iff h (mt (hdeclares name).mpr hname)).mp hne
    exact hselects ⟨htarget, name, hname, hholds⟩

/-- There are lines only for classes that the group selects. -/
theorem selects_of_linesNamed_ne_nil (hnodup : graph.names.Nodup)
    (h : group.linesNamed graph name ≠ []) : group.Selects graph name := by
  obtain ⟨line, hline⟩ := List.exists_mem_of_ne_nil _ h
  obtain ⟨id, node, hnode, rfl, hmem⟩ := exists_node_of_mem_linesNamed hline
  unfold linesOf at hmem
  split at hmem
  · rename_i hcondition
    refine ⟨id, getElem?_names_of_getElem?_nodes hnode, ?_⟩
    exact (selects_and_not_isAnonymous_iff hnodup).mp hcondition
  · exact absurd hmem List.not_mem_nil

/-- A group for classes that selects no declared class has no lines exactly if it selects no other
class either. -/
theorem lines_eq_nil_iff_not_selectsUndeclared (hgraph : archive.classGraph path = .ok graph)
    (hselects : ∀ name, archive.Declares name → ¬group.Selects graph name) :
    group.lines graph = [] ↔ ¬group.SelectsUndeclared archive graph := by
  obtain ⟨mentioned, declared, h, hdeclares⟩ := Archive.exists_represents hgraph
  rw [lines_eq_flatMap_names h.nodup_names, List.flatMap_eq_nil_iff,
    ← forall_linesNamed_declares_iff hgraph]
  constructor
  · intro hnil name line hline
    obtain ⟨id, node, hnode, rfl, -⟩ := exists_node_of_mem_linesNamed hline
    rw [hnil _ (List.mem_of_getElem? (getElem?_names_of_getElem?_nodes hnode))] at hline
    exact absurd hline List.not_mem_nil
  · intro hlines name _
    by_contra hne
    obtain ⟨line, hline⟩ := List.exists_mem_of_ne_nil _ hne
    exact hselects name (hlines name line hline) (selects_of_linesNamed_ne_nil h.nodup_names hne)

end Group

/-- **The lines of a generation are for declared classes exactly if no group for classes selects
another class.**  A group for classes that selects no declared class is found empty under the same
condition. -/
theorem generate_lines_declared_iff (hgraph : archive.classGraph path = .ok graph) :
    (∀ groups generation, generate groups archive path = .ok generation →
      generation.text = listing (groups.map fun group =>
        ⟨group.name, graph.names.flatMap (group.linesNamed graph)⟩) ∧
      (∀ group ∈ groups, ∀ name, ∀ line ∈ group.linesNamed graph name,
        ∃ rest, line = group.modifier.name ++ " " ++ dotted name ++ rest) ∧
      ((∀ group ∈ groups, ∀ name, ∀ line ∈ group.linesNamed graph name,
          archive.Declares name) ↔
        ∀ group ∈ groups, ¬group.SelectsUndeclared archive graph)) ∧
    (∀ group : Group, (∀ name, archive.Declares name → ¬group.Selects graph name) →
      (generate [group] archive path = .error ⟨[], .rules (.emptyGroup group.name)⟩ ↔
        ¬group.SelectsUndeclared archive graph)) := by
  obtain ⟨mentioned, declared, h, -⟩ := Archive.exists_represents hgraph
  refine ⟨fun groups generation hgenerate => ⟨?_, ?_, ?_⟩, fun group hselects => ?_⟩
  · rw [generate_eq_of_classGraph hgraph] at hgenerate
    have hsections : ∀ group : Group, group.section graph
        = ⟨group.name, graph.names.flatMap (group.linesNamed graph)⟩ := by
      intro group
      rw [Group.section, Group.lines_eq_flatMap_names h.nodup_names]
    rw [eq_of_outcome_eq_ok hgenerate, List.map_congr_left fun group _ => hsections group]
  · intro group _ name line hline
    obtain ⟨id, node, -, rfl, hnode⟩ := Group.exists_node_of_mem_linesNamed hline
    exact Group.exists_eq_append_of_mem_linesOf hnode
  · exact forall₂_congr fun group _ => Group.forall_linesNamed_declares_iff hgraph
  · rw [← Group.lines_eq_nil_iff_not_selectsUndeclared hgraph hselects,
      generate_eq_of_classGraph hgraph, outcome_eq_error_iff]
    constructor
    · rintro ⟨before, other, after, hgroups, -, hlines, -⟩
      have hmem : other ∈ [group] := hgroups ▸ List.mem_append_right _ List.mem_cons_self
      rwa [List.mem_singleton.mp hmem] at hlines
    · exact fun hlines => ⟨[], group, [], rfl, by simp, hlines, rfl⟩

/-- An archive with a class `A` below a class `B` that it does not have. -/
def withoutB : Archive := ⟨[⟨"A.class", fileA⟩]⟩

/-- The group by which the class of the given name is to be public. -/
def publicClass (name : String) : Group :=
  ⟨"stale", ⟨"public", false, Access.publicFlag⟩, .test (.named name), .classes⟩

/-- The graph of that archive. -/
def graphWithoutB : ClassGraph :=
  .ofNodes #[{ name := "A", parents := [1] }, { name := "B" }] [0]

theorem read_fileA : ClassDeclaration.read fileA = .ok ⟨"A", 0, some "B", [], [], []⟩ := by cbv

theorem classContents_withoutB : withoutB.classContents = [fileA] := by decide

theorem classGraph_withoutB : withoutB.classGraph "a.jar" = .ok graphWithoutB := by cbv

theorem withoutB_declares_iff (name : String) : withoutB.Declares name ↔ name = "A" := by
  rw [Archive.Declares, classContents_withoutB]
  simp only [List.mem_singleton, exists_eq_left, read_fileA, Except.ok.injEq, exists_eq_left']
  exact eq_comm

/-- The stale group writes a line for a class that the archive does not declare. -/
theorem generate_publicClass_withoutB :
    generate [publicClass "B"] withoutB "a.jar" = .ok ⟨listing [⟨"stale", ["public B"]⟩], 2⟩ ∧
      ¬withoutB.Declares "B" := by
  have hsections : sections graphWithoutB [publicClass "B"] = .ok [⟨"stale", ["public B"]⟩] := by
    cbv
  constructor
  · rw [generate_eq_of_classGraph classGraph_withoutB, outcome_of_sections_eq_ok hsections]
    rfl
  · rw [withoutB_declares_iff]
    decide

/-- The class with the name that the group asks for is the only one that it selects. -/
theorem publicClass_selects_iff {wanted : String} :
    (publicClass wanted).Selects graph name ↔
      name = wanted ∧ name ∈ graph.names ∧ ¬HasNumberedPart name := by
  simp only [Group.Selects, publicClass, Condition.Holds, ClassTest.Holds]
  constructor
  · rintro ⟨id, hid, hname, hpart⟩
    rw [nameOf_eq_of_getElem?_names hid] at hname
    exact ⟨hname, List.mem_of_getElem? hid, hpart⟩
  · rintro ⟨rfl, hmem, hpart⟩
    obtain ⟨id, hid⟩ := mem_names_iff_exists.mp hmem
    exact ⟨id, hid, nameOf_eq_of_getElem?_names hid, hpart⟩

theorem generate_lines_declared_iff_withoutB :
    withoutB.classGraph "a.jar" = .ok graphWithoutB ∧
      generate [publicClass "B"] withoutB "a.jar"
        ≠ .error ⟨[], .rules (.emptyGroup "stale")⟩ ∧
      generate [publicClass "C"] withoutB "a.jar" = .error ⟨[], .rules (.emptyGroup "stale")⟩ := by
  obtain ⟨-, hempty⟩ := generate_lines_declared_iff classGraph_withoutB
  have hnames : graphWithoutB.names = ["A", "B"] := by decide
  refine ⟨classGraph_withoutB, fun hgenerate => ?_, ?_⟩
  · refine (hempty (publicClass "B") fun name hdeclares hselects => ?_).mp hgenerate
      ⟨rfl, "B", ?_, ?_⟩
    · rw [withoutB_declares_iff] at hdeclares
      rw [publicClass_selects_iff, hdeclares] at hselects
      exact absurd hselects.1 (by decide)
    · rw [withoutB_declares_iff]
      decide
    · rw [publicClass_selects_iff, hnames, ← isAnonymous_eq_true_iff]
      decide
  · have hselects : ∀ name, ¬(publicClass "C").Selects graphWithoutB name := by
      intro name hselects
      rw [publicClass_selects_iff, hnames] at hselects
      obtain ⟨rfl, hmem, -⟩ := hselects
      exact absurd hmem (by decide)
    refine (hempty (publicClass "C") fun name _ => hselects name).mpr ?_
    rintro ⟨-, name, -, hname⟩
    exact hselects name hname

end AccessTransformer.Rules
