import AccessTransformer.Proofs.Rules.Listing
import AccessTransformer.Proofs.Rules.Spelling
import AccessTransformer.Proofs.Rules.Undeclared

/-!
# Generations without smuggled lines

A rules file gives the names of groups and modifiers, and all that is asked of them is that they are
not blank.  They are put into the listing as they are.  A line break in the name of a group starts a
line that no group has written, and a modifier that starts like a comment turns rules into comments.

* `generate_legible_iff`: which groups have a listing with just their names and lines.
* `generate_smuggled`: a rules file that is taken, with a line of its own in the listing.
-/

namespace AccessTransformer

open Text (IsLine)

/-! ## Class files without line breaks -/

/-- Whether no name and no descriptor in a declaration has a line break. -/
structure ClassDeclaration.HasLines (declaration : ClassDeclaration) : Prop where
  name : IsLine declaration.name
  supertypes : ∀ name ∈ declaration.superclass.toList ++ declaration.interfaces, IsLine name
  members : ∀ member ∈ declaration.fields ++ declaration.methods,
    IsLine member.name ∧ IsLine member.descriptor

/-- Whether no name and no descriptor in the class files of an archive has a line break. -/
def Archive.HasLines (archive : Archive) : Prop :=
  ∀ content ∈ archive.classContents, ∀ declaration,
    ClassDeclaration.read content = .ok declaration → declaration.HasLines

/-- The name of a type is cut from the descriptor. -/
theorem Descriptor.isLine_of_typeName_eq_ok {descriptor name : String}
    (h : Descriptor.typeName descriptor = .ok name) (hline : IsLine descriptor) : IsLine name := by
  unfold typeName at h
  split at h
  · cases h
  · rwa [← Except.ok.inj h]
  · split at h
    · rename_i className hname
      unfold objectName? at hname
      split at hname
      · rw [← Except.ok.inj h, IsLine, String.toList_ofList, ← Option.some.inj hname]
        exact fun hmem => hline (List.mem_of_mem_tail (List.mem_of_mem_dropLast hmem))
      · cases hname
    · cases h

theorem ClassGraph.isLine_of_mem_typeNames {name : String} {fields : List Member}
    (h : ∀ field ∈ fields, IsLine field.descriptor) (hname : name ∈ typeNames fields) :
    IsLine name := by
  induction fields with
  | nil => exact absurd hname List.not_mem_nil
  | cons field fields ih =>
    rw [List.forall_mem_cons] at h
    rw [typeNames] at hname
    split at hname
    · rename_i typeName htype
      rcases List.mem_cons.mp hname with rfl | hrest
      · exact Descriptor.isLine_of_typeName_eq_ok htype h.1
      · exact ih h.2 hrest
    · exact absurd hname List.not_mem_nil

/-- What a declaration mentions has no line breaks either. -/
theorem ClassDeclaration.HasLines.isLine_of_mem_mentioned {declaration : ClassDeclaration}
    {name : String} (h : declaration.HasLines) (hname : name ∈ declaration.mentioned) :
    IsLine name := by
  rcases List.mem_cons.mp hname with rfl | hrest
  · exact h.name
  · rcases List.mem_append.mp hrest with hsuper | htype
    · exact h.supertypes name hsuper
    · exact ClassGraph.isLine_of_mem_typeNames
        (fun field hfield => (h.members field (List.mem_append_left _ hfield)).2) htype

namespace ClassGraph

variable {graph : ClassGraph} {declarations : List ClassDeclaration}
  {declaration : ClassDeclaration}

/-- Whether no name and no descriptor in a node has a line break. -/
structure NodeHasLines (node : ClassNode) : Prop where
  name : IsLine node.name
  fields : ∀ field ∈ node.fields, IsLine field.name
  methods : ∀ method ∈ node.methods, IsLine method.name ∧ IsLine method.descriptor

/-- The members of a node with the outline of a declaration are named like the declared ones. -/
theorem nodeHasLines_of_outline_eq {node : ClassNode} (hname : IsLine node.name)
    (h : declaration.HasLines) (houtline : graph.outline node = declaration.outline) :
    NodeHasLines node where
  name := hname
  fields := by
    intro field hfield
    have hfields : node.fields.map graph.fieldOutline
        = declaration.fields.map Member.fieldOutline := congrArg Outline.fields houtline
    have hmem : graph.fieldOutline field ∈ node.fields.map graph.fieldOutline :=
      List.mem_map_of_mem hfield
    rw [hfields] at hmem
    obtain ⟨member, hmember, hsame⟩ := List.mem_map.mp hmem
    have hfieldName : member.name = field.name := congrArg FieldOutline.name hsame
    exact hfieldName ▸ (h.members member (List.mem_append_left _ hmember)).1
  methods := by
    intro method hmethod
    have hmethods : node.methods = declaration.methods := congrArg Outline.methods houtline
    exact h.members method (List.mem_append_right _ (hmethods ▸ hmethod))

/-- A graph has no line breaks if its declarations have none. -/
theorem Visits.nodeHasLines (hvisits : Visits empty declarations graph)
    (hlines : ∀ declaration ∈ declarations, declaration.HasLines) {id : ClassId}
    {node : ClassNode} (hnode : graph.nodes[id]? = some node) : NodeHasLines node := by
  have h := hvisits.represents represents_empty
  rw [List.nil_append, List.nil_append] at h
  have hname : IsLine node.name := by
    have hmem := List.mem_of_getElem? (getElem?_names_of_getElem?_nodes hnode)
    rw [h.mem_names_iff, List.mem_flatMap] at hmem
    obtain ⟨declaration, hdeclaration, hmentioned⟩ := hmem
    exact (hlines declaration hdeclaration).isLine_of_mem_mentioned hmentioned
  have houtline := h.outline_eq id node hnode
  by_cases hdeclared : node.name ∈ declarations.map (·.name)
  · obtain ⟨declaration, hdeclaration, heq⟩ := List.mem_map.mp hdeclared
    rw [← heq, outlineAmong_of_mem h.nodup_declared hdeclaration] at houtline
    exact nodeHasLines_of_outline_eq hname (hlines declaration hdeclaration) houtline
  · rw [outlineAmong_of_notMem hdeclared] at houtline
    rw [eq_placeholder_of_outline_eq houtline] at hname ⊢
    exact ⟨hname, fun field hfield => absurd hfield List.not_mem_nil,
      fun method hmethod => absurd hmethod List.not_mem_nil⟩

end ClassGraph

/-- The graph of an archive has no line breaks if the archive has none. -/
theorem Archive.HasLines.nodeHasLines {archive : Archive} {path : String} {graph : ClassGraph}
    {id : ClassId} {node : ClassNode} (h : archive.HasLines)
    (hgraph : archive.classGraph path = .ok graph) (hnode : graph.nodes[id]? = some node) :
    ClassGraph.NodeHasLines node := by
  obtain ⟨declarations, hhold, hvisits⟩ := classGraph_eq_ok_iff.mp hgraph
  refine hvisits.nodeHasLines (fun declaration hdeclaration => ?_) hnode
  obtain ⟨content, hcontent, hread⟩ := exists_of_forall₂_of_mem hhold hdeclaration
  exact h content (archive.perm_classContents.mem_iff.mp hcontent) declaration hread

/-! ## Lines of groups -/

namespace Rules

open ClassGraph

variable {archive : Archive} {path : String} {graph : ClassGraph} {groups : List Group}
  {group : Group} {generation : Generation} {node : ClassNode}

theorem isLine_dotted {name : String} (h : IsLine name) : IsLine (dotted name) := by
  rw [IsLine, dotted, String.toList_ofList, List.mem_map]
  rintro ⟨c, hc, heq⟩
  split at heq
  · exact absurd heq (by decide)
  · exact h (heq ▸ hc)

theorem isLine_of_mem_lineEnds {rest : String} (h : NodeHasLines node)
    (hrest : rest ∈ Group.lineEnds node) : IsLine rest := by
  rcases List.mem_cons.mp hrest with rfl | hmember
  · decide
  · rcases List.mem_append.mp hmember with hfield | hmethod
    · obtain ⟨field, hmem, rfl⟩ := List.mem_map.mp hfield
      exact Text.isLine_append_iff.mpr ⟨by decide, h.fields field hmem⟩
    · obtain ⟨method, hmem, rfl⟩ := List.mem_map.mp hmethod
      obtain ⟨hname, hdescriptor⟩ := h.methods method hmem
      exact Text.isLine_append_iff.mpr
        ⟨Text.isLine_append_iff.mpr ⟨by decide, hname⟩, hdescriptor⟩

/-- A line of a group is its modifier, a space, and something without line breaks. -/
theorem Group.exists_isLine_of_mem_lines {line : String} (hlines : archive.HasLines)
    (hgraph : archive.classGraph path = .ok graph) (hline : line ∈ group.lines graph) :
    ∃ rest, IsLine rest ∧ line = group.modifier.name ++ " " ++ rest := by
  obtain ⟨⟨node, id⟩, hnode, hmem⟩ := List.mem_flatMap.mp hline
  have hid : graph.nodes[id]? = some node := by
    rw [← Array.getElem?_toList]
    exact List.mem_zipIdx_iff_getElem?.mp hnode
  have hnodeLines := hlines.nodeHasLines hgraph hid
  obtain ⟨rest, hrest, rfl⟩ := exists_mem_lineEnds_of_mem_linesOf hmem
  refine ⟨dotted node.name ++ rest, ?_, by rw [String.append_assoc]⟩
  exact Text.isLine_append_iff.mpr
    ⟨isLine_dotted hnodeLines.name, isLine_of_mem_lineEnds hnodeLines hrest⟩

/-- Whether a line with a space in it is a comment shows in front of the space. -/
theorem isComment_append_iff {modifier rest : String} :
    IsComment (modifier ++ " " ++ rest) ↔ IsComment (modifier ++ " ") := by
  rw [IsComment, IsComment, String.toList_append, String.toList_append]
  show _ <+: modifier.toList ++ [' '] ++ rest.toList ↔ _ <+: modifier.toList ++ [' ']
  rcases modifier.toList with _ | ⟨c, _ | ⟨d, modifier⟩⟩
  · simp
  · simp
  · simp

/-- **A listing can be told into the names of its groups and their lines exactly if no name has a
line break and no line is broken into something else.**  Where neither the class files nor the
modifiers have line breaks, this is up to the names of the groups and to modifiers that start like a
comment. -/
theorem generate_legible_iff (hlines : archive.HasLines)
    (hgenerate : generate groups archive path = .ok generation) :
    ∃ graph listed, archive.classGraph path = .ok graph ∧ sections graph groups = .ok listed ∧
      listed.map Section.comment = groups.map ("# " ++ ·.name) ∧
      generation.text = header ++ body listed ∧
      (Legible (body listed) listed ↔ ∀ group ∈ groups, IsLine group.name ∧
        ∀ rule ∈ group.lines graph, ∀ line ∈ Text.lines rule,
          ¬IsComment line ∧ (line ≠ "" → ∃ other ∈ groups, line ∈ other.lines graph)) ∧
      ((∀ group ∈ groups, IsLine group.modifier.name) →
        (Legible (body listed) listed ↔ ∀ group ∈ groups,
          IsLine group.name ∧ ¬IsComment (group.modifier.name ++ " "))) := by
  obtain ⟨graph, hgraph⟩ : ∃ graph, archive.classGraph path = .ok graph := by
    cases hgraph : archive.classGraph path with
    | ok graph => exact ⟨graph, rfl⟩
    | error failure => exact nomatch hgenerate.symm.trans (generate_eq_error_of_classGraph hgraph)
  have hsections : ∃ listed, sections graph groups = .ok listed := by
    rw [generate_eq_of_classGraph hgraph] at hgenerate
    cases hsections : sections graph groups with
    | ok listed => exact ⟨listed, rfl⟩
    | error fault => exact nomatch hgenerate.symm.trans (outcome_of_sections_eq_error hsections)
  obtain ⟨listed, hlisted⟩ := hsections
  obtain ⟨hne, rfl⟩ := sections_eq_ok_iff.mp hlisted
  have htext : generation.text = header ++ body (groups.map (·.section graph)) := by
    rw [generate_eq_of_classGraph hgraph] at hgenerate
    rw [eq_of_outcome_eq_ok hgenerate, listing_eq]
  have hsome : ∀ s ∈ groups.map (·.section graph), s.lines ≠ [] := List.forall_mem_map.mpr hne
  have hlegible := legible_body_iff hsome
  rw [List.forall_mem_map] at hlegible
  simp only [List.mem_map, exists_exists_and_eq_and] at hlegible
  refine ⟨graph, _, hgraph, hlisted, by simp [Group.section, Section.comment], htext, hlegible,
    fun hmodifiers => hlegible.trans (forall₂_congr fun group hgroup =>
      and_congr_right fun _ => ?_)⟩
  -- every rule is a line, and it is a comment if its modifier starts like one
  have hrules : ∀ rule ∈ group.lines graph, IsLine rule ∧
      (IsComment rule ↔ IsComment (group.modifier.name ++ " ")) := by
    intro rule hrule
    obtain ⟨rest, hrest, rfl⟩ := Group.exists_isLine_of_mem_lines hlines hgraph hrule
    refine ⟨?_, isComment_append_iff⟩
    exact Text.isLine_append_iff.mpr
      ⟨Text.isLine_append_iff.mpr ⟨hmodifiers group hgroup, by decide⟩, hrest⟩
  constructor
  · intro hall
    obtain ⟨rule, hrule⟩ := List.exists_mem_of_ne_nil _ (hne group hgroup)
    obtain ⟨hline, hcomment⟩ := hrules rule hrule
    rw [← hcomment]
    exact (hall rule hrule rule (hline.lines_eq ▸ List.mem_singleton_self rule)).1
  · intro hmodifier rule hrule line hmem
    obtain ⟨hline, hcomment⟩ := hrules rule hrule
    rw [hline.lines_eq, List.mem_singleton] at hmem
    subst hmem
    exact ⟨mt hcomment.mp hmodifier, fun _ => ⟨group, hgroup, hrule⟩⟩

theorem withoutB_hasLines : withoutB.HasLines := by
  intro content hcontent declaration hdeclaration
  rw [classContents_withoutB, List.mem_singleton] at hcontent
  subst hcontent
  obtain rfl := Except.ok.inj (read_fileA.symm.trans hdeclaration)
  exact ⟨by decide, by decide, nofun⟩

/-- A group with a plain name has a listing that can be told apart. -/
theorem generate_legible_iff_publicClass :
    withoutB.HasLines ∧
      generate [publicClass "A"] withoutB "a.jar"
        = .ok ⟨header ++ body [⟨"stale", ["public A"]⟩], 2⟩ ∧
      Legible (body [⟨"stale", ["public A"]⟩]) [⟨"stale", ["public A"]⟩] := by
  have hlines : (publicClass "A").lines graphWithoutB = ["public A"] := by decide
  have hsections : sections graphWithoutB [publicClass "A"] = .ok [⟨"stale", ["public A"]⟩] := by
    rw [sections, hlines]
    rfl
  have hgenerate : generate [publicClass "A"] withoutB "a.jar"
      = .ok ⟨header ++ body [⟨"stale", ["public A"]⟩], 2⟩ := by
    rw [generate_eq_of_classGraph classGraph_withoutB, outcome_of_sections_eq_ok hsections]
    rfl
  refine ⟨withoutB_hasLines, hgenerate, ?_⟩
  obtain ⟨graph, listed, hgraph, hlisted, -, -, -, hlegible⟩ :=
    generate_legible_iff withoutB_hasLines hgenerate
  obtain rfl := Except.ok.inj (classGraph_withoutB.symm.trans hgraph)
  obtain rfl := Except.ok.inj (hsections.symm.trans hlisted)
  refine (hlegible ?_).mpr ?_
  · exact List.forall_mem_singleton.mpr (by decide)
  · exact List.forall_mem_singleton.mpr (by decide)

/-- A rules file with a line break in the name of its group. -/
def smuggling : RulesFile :=
  ⟨[⟨"g\npublic a.Evil", .preset "public", .classes, .test (.named "A"), none, none⟩]⟩

/-- The group of that file. -/
def smuggler : Group :=
  ⟨"g\npublic a.Evil", ⟨"public", false, Access.publicFlag⟩, .test (.named "A"), .classes⟩

/-- The rules file is taken, and the listing has a line that no group has written. -/
theorem generate_smuggled :
    RulesFile.ofText smuggling.text = .ok smuggling ∧ smuggling.resolve = .ok [smuggler] ∧
      withoutB.HasLines ∧ withoutB.classGraph "a.jar" = .ok graphWithoutB ∧
      generate [smuggler] withoutB "a.jar"
        = .ok ⟨header ++ "# g\npublic a.Evil\npublic A\n", 2⟩ ∧
      smuggler.lines graphWithoutB = ["public A"] ∧
      Text.lines "# g\npublic a.Evil\npublic A\n" = ["# g", "public a.Evil", "public A", ""] ∧
      ¬IsComment "public a.Evil" := by
  have hlines : smuggler.lines graphWithoutB = ["public A"] := by decide
  have hsections : sections graphWithoutB [smuggler]
      = .ok [⟨"g\npublic a.Evil", ["public A"]⟩] := by
    rw [sections, hlines]
    rfl
  have hbody : body [⟨"g\npublic a.Evil", ["public A"]⟩]
      = "# g\npublic a.Evil\npublic A\n" := by cbv
  have hgenerate : generate [smuggler] withoutB "a.jar"
      = .ok ⟨header ++ "# g\npublic a.Evil\npublic A\n", 2⟩ := by
    rw [generate_eq_of_classGraph classGraph_withoutB, outcome_of_sections_eq_ok hsections,
      listing_eq, hbody]
    rfl
  have hparts : GroupEntry.PartsFit 124
      ⟨"g\npublic a.Evil", .preset "public", .classes, .test (.named "A"), none, none⟩ :=
    ⟨.string _, (Json.Value.Fits.string "A").lone, by rintro _ ⟨⟩, by rintro _ ⟨⟩⟩
  have hfits : smuggling.toValue.Fits Json.Tree.maxDepth :=
    (Json.Value.Fits.array (List.forall_mem_singleton.mpr hparts.fits)).lone
  exact ⟨RulesFile.ofText_text hfits, rfl, withoutB_hasLines, classGraph_withoutB,
    hgenerate, hlines, by decide, by decide⟩

end Rules

end AccessTransformer
