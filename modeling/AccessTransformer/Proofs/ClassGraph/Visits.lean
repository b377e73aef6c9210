import AccessTransformer.Proofs.ClassGraph.Outline

/-!
# Runs of visits

A graph that comes from visits holds the declarations that were visited successfully, each at the
node of its name and unchanged since, and nothing else but placeholders.  `Represents` says so, and
it is what every operation keeps.

* `visit_cases`: everything that a visit can do.
* `Represents.mention`, `Represents.visit`: what the operations add to what a graph represents.
* `Visits`: runs of successful visits, with `Visits.represents`.
* `Represents.exists_visits_iff`: there is such a run exactly when no class is declared twice and
  all fields have types, so the order of the visits does not matter for that.
-/

namespace AccessTransformer.ClassGraph

variable {graph after : ClassGraph} {mentioned : List String}
  {declared declarations : List ClassDeclaration} {declaration : ClassDeclaration}
  {id : ClassId} {name : String}

/-! ## Changing a node -/

theorem getElem?_nodes_modify (graph : ClassGraph) (id other : ClassId)
    (change : ClassNode → ClassNode) (keeps : ∀ node, (change node).name = node.name) :
    (graph.modify id change keeps).nodes[other]?
      = if id = other then graph.nodes[other]?.map change else graph.nodes[other]? := by
  rw [modify, Array.getElem?_modify]

/-- A change of a node keeps all names. -/
theorem names_modify (graph : ClassGraph) (id : ClassId) {change : ClassNode → ClassNode}
    (keeps : ∀ node, (change node).name = node.name) :
    (graph.modify id change keeps).names = graph.names := by
  apply List.ext_getElem?
  intro other
  rw [getElem?_names, getElem?_names, getElem?_nodes_modify]
  split
  · rw [Option.map_map]
    congr 1
    funext node
    exact keeps node
  · rfl

/-- Only a change that brings in a number could bring in one of no node. -/
theorem WellNumbered.modify (h : WellNumbered graph) (id : ClassId)
    {change : ClassNode → ClassNode} (keeps : ∀ node, (change node).name = node.name)
    (hchange : ∀ node, graph.Numbers node → graph.Numbers (change node)) :
    WellNumbered (graph.modify id change keeps) where
  nodup_names := names_modify graph id keeps ▸ h.nodup_names
  numbers := by
    intro other node hnode
    rw [Numbers, ← length_names, names_modify, length_names, ← Numbers]
    rw [getElem?_nodes_modify] at hnode
    split at hnode
    · obtain ⟨old, hold, rfl⟩ := Option.map_eq_some_iff.mp hnode
      exact hchange old (h.numbers other old hold)
    · exact h.numbers other node hnode

/-! ## Everything that a visit can do -/

/-- The graph after a successful visit, given the one in which everything is mentioned. -/
def declareAt (graph : ClassGraph) (id : ClassId) (declaration : ClassDeclaration)
    (parents : List ClassId) (fields : List Field) : ClassGraph :=
  ({ graph with visited := id :: graph.visited }).modify id (declare declaration parents fields)
    (name_declare declaration parents fields)

theorem names_declareAt (graph : ClassGraph) (id : ClassId) (declaration : ClassDeclaration)
    (parents : List ClassId) (fields : List Field) :
    (graph.declareAt id declaration parents fields).names = graph.names :=
  names_modify _ _ _

/-- The numbers that a declaration brings in are those of its supertypes and of the types of its
fields. -/
theorem WellNumbered.declareAt {parents : List ClassId} {fields : List Field}
    (h : WellNumbered graph)
    (hparents : List.Forall₂ (fun name (id : ClassId) => graph.names[id]? = some name)
      (declaration.superclass.toList ++ declaration.interfaces) parents)
    (hfields : List.Forall₂ (Links graph) declaration.fields fields) :
    WellNumbered (graph.declareAt id declaration parents fields) := by
  have hvisited : WellNumbered { graph with visited := id :: graph.visited } :=
    ⟨h.nodup_names, h.numbers⟩
  refine hvisited.modify id _ fun node hnode => ⟨fun parent hparent => ?_, fun field hfield => ?_⟩
  · rcases List.mem_append.mp hparent with hold | hnew
    · exact hnode.1 parent hold
    · obtain ⟨name, -, hname⟩ := exists_of_forall₂_of_mem hparents hnew
      exact lt_size_of_getElem?_names hname
  · rcases List.mem_append.mp hfield with hold | hnew
    · exact hnode.2 field hold
    · obtain ⟨member, -, -, -, type, -, htype⟩ := exists_of_forall₂_of_mem hfields hnew
      exact lt_size_of_getElem?_names htype

/-- Where the number of a class is already among the visited ones, the visit fails; otherwise it
mentions names, and then fails at the type of a field or declares the class. -/
theorem visit_cases (graph : ClassGraph) (declaration : ClassDeclaration) :
    ((graph.ensure declaration.name).2 ∈ graph.visited ∧
      graph.visit declaration = ((graph.ensure declaration.name).1,
        Outcome.fail (.declaredTwice declaration.name))) ∨
    ((graph.ensure declaration.name).2 ∉ graph.visited ∧
      ∃ full, Mentions graph declaration.mentioned full ∧
        ((¬AllTyped declaration.fields ∧
          ∃ failure, graph.visit declaration = (full, .error failure)) ∨
        (AllTyped declaration.fields ∧ ∃ id parents fields,
          full.names[id]? = some declaration.name ∧
          id = (graph.ensure declaration.name).2 ∧
          List.Forall₂ (fun name id => full.names[id]? = some name)
            (declaration.superclass.toList ++ declaration.interfaces) parents ∧
          List.Forall₂ (Links full) declaration.fields fields ∧
          graph.visit declaration = (full.declareAt id declaration parents fields, .ok id)))) := by
  have hnamed := mentions_ensure graph declaration.name
  have hsupers := mentions_ensureAll (graph.ensure declaration.name).1 (supertypes declaration)
  have htypes := mentions_linkFields
    ((graph.ensure declaration.name).1.ensureAll (supertypes declaration)).1 declaration.fields
  simp only [visit, hnamed.visited_eq]
  by_cases hvisited : (graph.ensure declaration.name).2 ∈ graph.visited
  · exact Or.inl ⟨hvisited, by rw [if_pos hvisited]⟩
  · refine Or.inr ⟨hvisited, _, hnamed.trans (hsupers.trans htypes), ?_⟩
    rw [if_neg hvisited, ← exists_linkFields_eq_ok_iff
      ((graph.ensure declaration.name).1.ensureAll (supertypes declaration)).1]
    have hid := htypes.getElem?_names (hsupers.getElem?_names
      (getElem?_names_ensure graph declaration.name))
    have hparents := forall₂_ensureAll (graph.ensure declaration.name).1 (supertypes declaration)
    cases hlink : ((graph.ensure declaration.name).1.ensureAll
        (supertypes declaration)).1.linkFields declaration.fields with
    | mk full outcome =>
      rw [hlink] at htypes hid
      cases outcome with
      | error failure => exact Or.inl ⟨by simp, failure, rfl⟩
      | ok fields =>
        have hfields := forall₂_linkFields (congrArg Prod.snd hlink)
        rw [hlink] at hfields
        refine Or.inr ⟨⟨fields, rfl⟩, _, _, fields, hid, rfl, ?_, hfields, rfl⟩
        exact hparents.imp fun _ _ h => htypes.getElem?_names h

/-! ## What a graph represents -/

/-- The graph holds just the given declarations, and a placeholder for every other name that was
mentioned. -/
structure Represents (graph : ClassGraph) (mentioned : List String)
    (declared : List ClassDeclaration) : Prop extends WellNumbered graph where
  mem_names_iff : ∀ name, name ∈ graph.names ↔ name ∈ mentioned
  nodup_declared : (declared.map (·.name)).Nodup
  mem_visited_iff : ∀ id, id ∈ graph.visited ↔
    ∃ declaration ∈ declared, graph.names[id]? = some declaration.name
  mem_mentioned : ∀ declaration ∈ declared, declaration.name ∈ mentioned
  outline_eq : ∀ (id : ClassId) node, graph.nodes[id]? = some node →
    graph.outline node = outlineAmong declared node.name

theorem represents_empty : Represents empty [] [] where
  nodup_names := List.nodup_nil
  mem_names_iff := by simp
  numbers := by simp [empty]
  nodup_declared := List.nodup_nil
  mem_visited_iff := by simp [empty]
  mem_mentioned := by simp
  outline_eq := by simp [empty]

/-- A placeholder that is filled in has the outline of the declaration. -/
theorem outline_declare {parents : List ClassId} {fields : List Field}
    (hparents : List.Forall₂ (fun name (id : ClassId) => graph.names[id]? = some name)
      (declaration.superclass.toList ++ declaration.interfaces) parents)
    (hfields : List.Forall₂ (Links graph) declaration.fields fields) :
    graph.outline (declare declaration parents fields (.placeholder declaration.name))
      = declaration.outline := by
  have hparentNames : parents.map graph.nameOf
      = declaration.superclass.toList ++ declaration.interfaces := by
    rw [eq_comm, ← List.forall₂_eq_eq_eq, List.forall₂_map_right_iff]
    exact hparents.imp fun name id h => (nameOf_eq_of_getElem?_names h).symm
  have htypes : fields.map graph.fieldOutline = declaration.fields.map Member.fieldOutline := by
    rw [eq_comm, ← List.forall₂_eq_eq_eq, List.forall₂_map_left_iff, List.forall₂_map_right_iff]
    refine hfields.imp fun member field h => ?_
    obtain ⟨haccess, hname, typeName, htype, hid⟩ := h
    rw [fieldOutline, Member.fieldOutline, haccess, hname, htype, nameOf_eq_of_getElem?_names hid]
    rfl
  rw [outline, ClassDeclaration.outline, ← hparentNames, ← htypes]
  rfl

namespace Represents

/-- Every declared class has a number. -/
theorem exists_getElem?_names (h : Represents graph mentioned declared)
    (hmem : declaration ∈ declared) : ∃ id : ClassId, graph.names[id]? = some declaration.name :=
  mem_names_iff_exists.mp ((h.mem_names_iff _).mpr (h.mem_mentioned declaration hmem))

/-- The declared names are those of visited nodes. -/
theorem mem_visited_ensure_iff (h : Represents graph mentioned declared) (name : String) :
    (graph.ensure name).2 ∈ graph.visited ↔ name ∈ declared.map (·.name) := by
  have hname := getElem?_names_ensure graph name
  rw [h.mem_visited_iff, List.mem_map]
  constructor
  · rintro ⟨declaration, hmem, hid⟩
    have hid' := (mentions_ensure graph name).getElem?_names hid
    exact ⟨declaration, hmem, Option.some.inj (hid'.symm.trans hname)⟩
  · rintro ⟨declaration, hmem, rfl⟩
    obtain ⟨id, hid⟩ := h.exists_getElem?_names hmem
    refine ⟨declaration, hmem, ?_⟩
    rw [ensure, (find?_eq_some_iff h.nodup_names).mpr hid]
    exact hid

/-- Placeholders for more names. -/
theorem mention {more : List String} (h : Represents graph mentioned declared)
    (hmentions : Mentions graph more after) :
    Represents after (mentioned ++ more) declared where
  toWellNumbered := h.toWellNumbered.mention hmentions
  mem_names_iff := by
    intro name
    rw [hmentions.mem_names_iff, h.mem_names_iff, List.mem_append]
  nodup_declared := h.nodup_declared
  mem_visited_iff := by
    intro id
    rw [hmentions.visited_eq, h.mem_visited_iff]
    refine exists_congr fun declaration => and_congr_right fun hmem => ?_
    obtain ⟨other, hother⟩ := h.exists_getElem?_names hmem
    refine ⟨hmentions.getElem?_names, fun hid => ?_⟩
    rwa [eq_of_getElem?_names (hmentions.nodup_names h.nodup_names) hid
      (hmentions.getElem?_names hother)]
  mem_mentioned := fun declaration hmem =>
    List.mem_append_left more (h.mem_mentioned declaration hmem)
  outline_eq := by
    intro id node hnode
    rcases hmentions.getElem?_nodes_cases hnode with hold | ⟨hge, hnew⟩
    · rw [hmentions.outline_eq (h.numbers id node hold), h.outline_eq id node hold]
    · have hname : node.name ∉ declared.map (·.name) := by
        intro hmem
        obtain ⟨declaration, hdeclared, heq⟩ := List.mem_map.mp hmem
        obtain ⟨other, hother⟩ := h.exists_getElem?_names hdeclared
        have hid : after.names[id]? = some declaration.name := by
          rw [getElem?_names, hnode, Option.map_some, heq]
        have hsame := eq_of_getElem?_names (hmentions.nodup_names h.nodup_names) hid
          (hmentions.getElem?_names hother)
        exact Nat.not_lt.mpr hge (hsame ▸ lt_size_of_getElem?_names hother)
      rw [outlineAmong_of_notMem hname, hnew]
      rfl

/-- The node of a class that was not visited is a placeholder. -/
theorem getElem?_nodes_of_notMem (h : Represents graph mentioned declared)
    (hid : graph.names[id]? = some name) (hname : name ∉ declared.map (·.name)) :
    graph.nodes[id]? = some (.placeholder name) := by
  rw [getElem?_names, Option.map_eq_some_iff] at hid
  obtain ⟨node, hnode, rfl⟩ := hid
  have houtline := h.outline_eq id node hnode
  rw [outlineAmong_of_notMem hname] at houtline
  rw [hnode, eq_placeholder_of_outline_eq houtline]
  rfl

/-- A declaration at the node of a class that was not visited. -/
theorem declareAt {parents : List ClassId} {fields : List Field}
    (h : Represents graph mentioned declared) (hid : graph.names[id]? = some declaration.name)
    (hname : declaration.name ∉ declared.map (·.name))
    (hparents : List.Forall₂ (fun name (id : ClassId) => graph.names[id]? = some name)
      (declaration.superclass.toList ++ declaration.interfaces) parents)
    (hfields : List.Forall₂ (Links graph) declaration.fields fields) :
    Represents (graph.declareAt id declaration parents fields) mentioned
      (declared ++ [declaration]) := by
  have hnames := names_declareAt graph id declaration parents fields
  have hnameOf : (graph.declareAt id declaration parents fields).nameOf = graph.nameOf := by
    funext other
    rw [nameOf, nameOf, ← getElem?_names, ← getElem?_names, hnames]
  have hplaceholder := h.getElem?_nodes_of_notMem hid hname
  -- the node of the class is the declared one, and all others are as before
  have hnodes : ∀ (other : ClassId) node,
      (graph.declareAt id declaration parents fields).nodes[other]? = some node →
        (other = id ∧ node = declare declaration parents fields (.placeholder declaration.name)) ∨
        (other ≠ id ∧ graph.nodes[other]? = some node) := by
    intro other node hnode
    rw [ClassGraph.declareAt, getElem?_nodes_modify] at hnode
    by_cases heq : id = other
    · subst heq
      rw [if_pos rfl, hplaceholder, Option.map_some, Option.some.injEq] at hnode
      exact Or.inl ⟨rfl, hnode.symm⟩
    · rw [if_neg heq] at hnode
      exact Or.inr ⟨Ne.symm heq, hnode⟩
  refine
    { toWellNumbered := h.toWellNumbered.declareAt hparents hfields
      mem_names_iff := hnames ▸ h.mem_names_iff
      nodup_declared := ?_
      mem_visited_iff := ?_
      mem_mentioned := ?_
      outline_eq := ?_ }
  · rw [List.map_append, List.map_singleton]
    exact h.nodup_declared.append (List.nodup_singleton _) (by simpa using hname)
  · intro other
    show other ∈ id :: graph.visited ↔ _
    rw [List.mem_cons, h.mem_visited_iff, hnames]
    constructor
    · rintro (rfl | ⟨old, hold, hother⟩)
      · exact ⟨declaration, List.mem_append_right _ (List.mem_singleton_self _), hid⟩
      · exact ⟨old, List.mem_append_left _ hold, hother⟩
    · rintro ⟨old, hold, hother⟩
      rcases List.mem_append.mp hold with hold | hnew
      · exact Or.inr ⟨old, hold, hother⟩
      · rw [List.mem_singleton.mp hnew] at hother
        exact Or.inl (eq_of_getElem?_names h.nodup_names hother hid)
  · intro other hmem
    rcases List.mem_append.mp hmem with hold | hnew
    · exact h.mem_mentioned other hold
    · rw [List.mem_singleton.mp hnew]
      exact (h.mem_names_iff _).mp (List.mem_of_getElem? hid)
  · intro other node hnode
    rw [outline_congr hnameOf]
    rcases hnodes other node hnode with ⟨-, rfl⟩ | ⟨hne, hold⟩
    · rw [outline_declare hparents hfields]
      exact (outlineAmong_append_self hname).symm
    · have hother : node.name ≠ declaration.name := by
        intro heq
        refine hne (eq_of_getElem?_names h.nodup_names ?_ hid)
        rw [getElem?_names, hold, Option.map_some, heq]
      rw [outlineAmong_append_of_ne hother, h.outline_eq other node hold]

/-- A visit succeeds exactly when the class was not declared before and all its fields have
types. -/
theorem exists_visit_eq_ok_iff (h : Represents graph mentioned declared)
    (declaration : ClassDeclaration) :
    (∃ after id, graph.visit declaration = (after, .ok id)) ↔
      declaration.name ∉ declared.map (·.name) ∧ AllTyped declaration.fields := by
  rw [← h.mem_visited_ensure_iff]
  rcases visit_cases graph declaration with ⟨hvisited, hvisit⟩ |
    ⟨hvisited, full, -,
      ⟨htypes, failure, hvisit⟩ | ⟨htypes, id, parents, fields, -, -, -, -, hvisit⟩⟩
  · rw [hvisit]
    exact iff_of_false (fun ⟨_, _, h⟩ => nomatch h) fun h => h.1 hvisited
  · rw [hvisit]
    exact iff_of_false (fun ⟨_, _, h⟩ => nomatch h) fun h => htypes h.2
  · rw [hvisit]
    exact iff_of_true ⟨_, _, rfl⟩ ⟨hvisited, htypes⟩

/-- **A successful visit adds a declaration and changes no other class.** -/
theorem visit (h : Represents graph mentioned declared)
    (hvisit : graph.visit declaration = (after, .ok id)) :
    Represents after (mentioned ++ declaration.mentioned) (declared ++ [declaration]) := by
  have hname := ((h.exists_visit_eq_ok_iff declaration).mp ⟨after, id, hvisit⟩).1
  rcases visit_cases graph declaration with ⟨-, hcase⟩ |
    ⟨-, full, hfull, ⟨-, failure, hcase⟩ |
      ⟨-, id', parents, fields, hid, -, hparents, hfields, hcase⟩⟩
  · exact nomatch hvisit.symm.trans hcase
  · exact nomatch hvisit.symm.trans hcase
  · obtain ⟨rfl, -⟩ := Prod.mk.inj (hvisit.symm.trans hcase)
    exact (h.mention hfull).declareAt hid hname hparents hfields

end Represents

/-! ## Runs -/

/-- The second graph comes from the first one by successful visits of the declarations in order. -/
inductive Visits : ClassGraph → List ClassDeclaration → ClassGraph → Prop where
  | nil (graph : ClassGraph) : Visits graph [] graph
  | cons {graph next after : ClassGraph} {declaration : ClassDeclaration} {id : ClassId}
      {declarations : List ClassDeclaration} (hvisit : graph.visit declaration = (next, .ok id))
      (hrest : Visits next declarations after) : Visits graph (declaration :: declarations) after

/-- **A run of successful visits adds its declarations.** -/
theorem Visits.represents (hvisits : Visits graph declarations after)
    (h : Represents graph mentioned declared) :
    Represents after (mentioned ++ declarations.flatMap ClassDeclaration.mentioned)
      (declared ++ declarations) := by
  induction hvisits generalizing mentioned declared with
  | nil graph => simpa using h
  | cons hvisit _ ih =>
    rw [List.flatMap_cons, ← List.append_assoc, List.append_cons]
    exact ih (h.visit hvisit)

/-- **Declarations can be visited exactly when no class is declared twice and all fields have
types.** -/
theorem Represents.exists_visits_iff (h : Represents graph mentioned declared) :
    (∃ after, Visits graph declarations after) ↔
      ((declared ++ declarations).map (·.name)).Nodup ∧
        ∀ declaration ∈ declarations, AllTyped declaration.fields := by
  induction declarations generalizing graph mentioned declared with
  | nil =>
    rw [List.append_nil]
    exact iff_of_true ⟨graph, .nil graph⟩ ⟨h.nodup_declared, by simp⟩
  | cons declaration declarations ih =>
    rw [List.append_cons, List.forall_mem_cons]
    constructor
    · rintro ⟨after, hvisits⟩
      cases hvisits with
      | cons hvisit hrest =>
        obtain ⟨hnodup, htypes⟩ := (ih (h.visit hvisit)).mp ⟨after, hrest⟩
        exact ⟨hnodup, ((h.exists_visit_eq_ok_iff _).mp ⟨_, _, hvisit⟩).2, htypes⟩
    · rintro ⟨hnodup, htype, htypes⟩
      have hname : declaration.name ∉ declared.map (·.name) := by
        rw [List.map_append, List.map_append, List.append_assoc] at hnodup
        intro hmem
        exact (List.nodup_append.mp hnodup).2.2 _ hmem _ List.mem_cons_self rfl
      obtain ⟨next, id, hvisit⟩ := (h.exists_visit_eq_ok_iff declaration).mpr ⟨hname, htype⟩
      obtain ⟨after, hrest⟩ := (ih (h.visit hvisit)).mpr ⟨hnodup, htypes⟩
      exact ⟨after, .cons hvisit hrest⟩

end AccessTransformer.ClassGraph
