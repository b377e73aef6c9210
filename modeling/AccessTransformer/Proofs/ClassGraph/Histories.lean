import AccessTransformer.Proofs.ClassGraph.Visits
import Mathlib.Data.List.Induction

/-!
# Histories

Class names are asked for and declarations are visited in any order, and visits may fail anywhere
in between.  What the graph then holds can be told from this history alone, without a number: a
class whose visit succeeded is held as it was declared, and any other class that was mentioned is a
placeholder.

* `Visited`, `Mentioned`: what a history says of classes.
* `Represents.request`: what one request adds to what a graph represents, whether it fails or not.
* `exists_represents_run`: what the graph of a history represents.
* `run_holds_history`: the graph and its history, clause by clause.
-/

namespace AccessTransformer.ClassGraph

/-! ## What a history says -/

/-- What is asked of a graph. -/
inductive Request where
  /-- The number of a class. -/
  | ensure (name : String)
  /-- The visit of a declaration. -/
  | visit (declaration : ClassDeclaration)
  deriving DecidableEq, Repr

/-- The graph after a request, be it successful or not. -/
def Request.apply (graph : ClassGraph) : Request → ClassGraph
  | .ensure name => (graph.ensure name).1
  | .visit declaration => (graph.visit declaration).1

/-- The graph after a history. -/
def run (history : List Request) : ClassGraph := history.foldl Request.apply empty

/-- Whether a request to a graph mentions a name.  A visit mentions the class itself; when the
class was not visited before, it goes on to the supertypes and to the types of the fields before
the first field without a type. -/
def Request.Mentions (graph : ClassGraph) (name : String) : Request → Prop
  | .ensure asked => name = asked
  | .visit declaration => name = declaration.name ∨
      (graph.visit declaration).2 ≠ Outcome.fail (.declaredTwice declaration.name) ∧
        (name ∈ declaration.superclass.toList ++ declaration.interfaces ∨
          name ∈ typeNames declaration.fields)

/-- Whether a visit of the declaration succeeded somewhere in a history. -/
def Visited (history : List Request) (declaration : ClassDeclaration) : Prop :=
  ∃ earlier id, earlier ++ [.visit declaration] <+: history ∧
    ((run earlier).visit declaration).2 = .ok id

/-- Whether some request in a history mentioned the name. -/
def Mentioned (history : List Request) (name : String) : Prop :=
  ∃ earlier request, earlier ++ [request] <+: history ∧ request.Mentions (run earlier) name

variable {graph : ClassGraph} {mentioned : List String} {declared : List ClassDeclaration}
  {declaration : ClassDeclaration} {history : List Request}

theorem run_append_singleton (history : List Request) (request : Request) :
    run (history ++ [request]) = request.apply (run history) := by
  rw [run, List.foldl_append, List.foldl_cons, List.foldl_nil, run]

theorem visited_append_singleton_iff (history : List Request) (request : Request)
    (declaration : ClassDeclaration) :
    Visited (history ++ [request]) declaration ↔ Visited history declaration ∨
      request = .visit declaration ∧ ∃ id, ((run history).visit declaration).2 = .ok id := by
  constructor
  · rintro ⟨earlier, id, hprefix, hvisit⟩
    rcases List.prefix_concat_iff.mp hprefix with heq | hprefix
    · obtain ⟨rfl, hlast⟩ := List.append_inj' heq rfl
      exact Or.inr ⟨(List.cons.inj hlast).1.symm, id, hvisit⟩
    · exact Or.inl ⟨earlier, id, hprefix, hvisit⟩
  · rintro (⟨earlier, id, hprefix, hvisit⟩ | ⟨rfl, id, hvisit⟩)
    · exact ⟨earlier, id, hprefix.trans (List.prefix_append _ _), hvisit⟩
    · exact ⟨history, id, List.prefix_refl _, hvisit⟩

theorem mentioned_append_singleton_iff (history : List Request) (request : Request)
    (name : String) :
    Mentioned (history ++ [request]) name ↔
      Mentioned history name ∨ request.Mentions (run history) name := by
  constructor
  · rintro ⟨earlier, last, hprefix, hmentions⟩
    rcases List.prefix_concat_iff.mp hprefix with heq | hprefix
    · obtain ⟨rfl, hlast⟩ := List.append_inj' heq rfl
      obtain rfl := (List.cons.inj hlast).1
      exact Or.inr hmentions
    · exact Or.inl ⟨earlier, last, hprefix, hmentions⟩
  · rintro (⟨earlier, last, hprefix, hmentions⟩ | hmentions)
    · exact ⟨earlier, last, hprefix.trans (List.prefix_append _ _), hmentions⟩
    · exact ⟨history, request, List.prefix_refl _, hmentions⟩

theorem not_visited_nil (declaration : ClassDeclaration) : ¬Visited [] declaration := by
  rintro ⟨earlier, id, hprefix, -⟩
  exact List.append_ne_nil_of_right_ne_nil _ (List.cons_ne_nil _ _) (List.prefix_nil.mp hprefix)

theorem not_mentioned_nil (name : String) : ¬Mentioned [] name := by
  rintro ⟨earlier, request, hprefix, -⟩
  exact List.append_ne_nil_of_right_ne_nil _ (List.cons_ne_nil _ _) (List.prefix_nil.mp hprefix)

/-! ## One request -/

/-- Fields cannot be linked for no other reason than a field without a type. -/
theorem exists_of_linkFields_eq_error {fields : List Member} {failure : Failure}
    (h : (graph.linkFields fields).2 = .error failure) :
    ∃ field ∈ fields, ∃ fault, Descriptor.typeName field.descriptor = .error fault ∧
      failure = ⟨[.fieldDescriptor field.name], .descriptor fault⟩ := by
  induction fields generalizing graph with
  | nil => cases h
  | cons field fields ih =>
    simp only [linkFields] at h
    cases htype : Descriptor.typeName field.descriptor with
    | error fault =>
      rw [htype] at h
      exact ⟨field, List.mem_cons_self, fault, htype, (Except.error.inj h).symm⟩
    | ok typeName =>
      rw [htype] at h
      simp only at h
      cases hrest : ((graph.ensure typeName).1.linkFields fields).2 with
      | error rest =>
        rw [hrest] at h
        obtain rfl := Except.error.inj h
        obtain ⟨other, hmem, hother⟩ := ih hrest
        exact ⟨other, List.mem_cons_of_mem _ hmem, hother⟩
      | ok linked =>
        rw [hrest] at h
        cases h

/-- A visit is refused as the second one of a class exactly when the class was visited. -/
theorem visit_eq_declaredTwice_iff (graph : ClassGraph) (declaration : ClassDeclaration) :
    (graph.visit declaration).2 = Outcome.fail (.declaredTwice declaration.name) ↔
      (graph.ensure declaration.name).2 ∈ graph.visited := by
  simp only [visit, (mentions_ensure graph declaration.name).visited_eq]
  by_cases hvisited : (graph.ensure declaration.name).2 ∈ graph.visited
  · rw [if_pos hvisited]
    exact iff_of_true rfl hvisited
  · rw [if_neg hvisited]
    refine iff_of_false (fun h => ?_) hvisited
    cases hlink : ((graph.ensure declaration.name).1.ensureAll
        (supertypes declaration)).1.linkFields declaration.fields with
    | mk full outcome =>
      rw [hlink] at h
      cases outcome with
      | ok fields => cases h
      | error failure =>
        obtain ⟨field, -, fault, -, rfl⟩ :=
          exists_of_linkFields_eq_error (congrArg Prod.snd hlink)
        cases h

/-- A visit fails or succeeds. -/
theorem exists_visit_eq_error_iff (graph : ClassGraph) (declaration : ClassDeclaration) :
    (∃ failure, (graph.visit declaration).2 = .error failure) ↔
      ¬∃ after id, graph.visit declaration = (after, .ok id) := by
  cases graph.visit declaration with
  | mk after outcome => cases outcome <;> simp

theorem not_allTyped_iff {fields : List Member} : ¬AllTyped fields ↔
    ∃ field ∈ fields, ∃ fault, Descriptor.typeName field.descriptor = .error fault := by
  simp only [AllTyped, not_forall, exists_prop]
  refine exists_congr fun field => and_congr_right fun _ => ?_
  cases Descriptor.typeName field.descriptor <;> simp

/-- Names mentioned before, and those that a declaration mentions. -/
theorem mem_append_mentioned_iff {visited : ClassDeclaration} {name : String} :
    name ∈ mentioned ++ visited.mentioned ↔ name ∈ mentioned ∨
      (name = visited.name ∨ name ∈ visited.superclass.toList ++ visited.interfaces ∨
        name ∈ typeNames visited.fields) := by
  rw [List.mem_append, ClassDeclaration.mentioned, List.mem_cons, List.mem_append]

/-- A visit that fails adds no declaration. -/
theorem mem_declared_iff_of_visit_eq_error {visited : ClassDeclaration} {failure : Failure}
    (hfailure : (graph.visit visited).2 = .error failure) (declaration : ClassDeclaration) :
    declaration ∈ declared ↔ declaration ∈ declared ∨
      visited = declaration ∧ ∃ id, (graph.visit declaration).2 = .ok id := by
  refine (or_iff_left ?_).symm
  rintro ⟨rfl, id, hok⟩
  exact nomatch hfailure.symm.trans hok

/-- **What a request adds to what a graph represents.** -/
theorem Represents.request (h : Represents graph mentioned declared) (request : Request) :
    ∃ mentioned' declared', Represents (request.apply graph) mentioned' declared' ∧
      (∀ name, name ∈ mentioned' ↔ name ∈ mentioned ∨ request.Mentions graph name) ∧
      ∀ declaration, declaration ∈ declared' ↔ declaration ∈ declared ∨
        request = .visit declaration ∧ ∃ id, (graph.visit declaration).2 = .ok id := by
  cases request with
  | ensure asked =>
    refine ⟨mentioned ++ [asked], declared, h.mention (mentions_ensure graph asked), ?_, ?_⟩
    · intro name
      rw [List.mem_append, List.mem_singleton, Request.Mentions]
    · intro declaration
      simp
  | visit visited =>
    have htwice := visit_eq_declaredTwice_iff graph visited
    simp only [Request.Mentions, Request.apply, Request.visit.injEq, ne_eq, htwice]
    -- the visit is refused as the second one, or fails at a field, or succeeds
    rcases visit_cases graph visited with ⟨hvisited, hvisit⟩ | ⟨hvisited, full, hfull,
      ⟨-, failure, hvisit⟩ | ⟨-, id, parents, fields, -, -, -, -, hvisit⟩⟩
    · refine ⟨mentioned ++ [visited.name], declared, ?_, fun name => ?_,
        mem_declared_iff_of_visit_eq_error (by rw [hvisit, Outcome.fail])⟩
      · rw [hvisit]
        exact h.mention (mentions_ensure graph visited.name)
      · rw [List.mem_append, List.mem_singleton]
        simp [hvisited]
    · refine ⟨mentioned ++ visited.mentioned, declared, ?_, fun name => ?_,
        mem_declared_iff_of_visit_eq_error (by rw [hvisit])⟩
      · rw [hvisit]
        exact h.mention hfull
      · rw [mem_append_mentioned_iff]
        simp [hvisited]
    · refine ⟨mentioned ++ visited.mentioned, declared ++ [visited], ?_, fun name => ?_,
        fun declaration => ?_⟩
      · exact h.visit (hvisit.trans (by rw [hvisit]))
      · rw [mem_append_mentioned_iff]
        simp [hvisited]
      · rw [List.mem_append, List.mem_singleton]
        refine or_congr_right ⟨?_, fun h => h.1.symm⟩
        rintro rfl
        exact ⟨rfl, id, by rw [hvisit]⟩

/-! ## Whole histories -/

/-- **What the graph of a history represents.** -/
theorem exists_represents_run (history : List Request) :
    ∃ mentioned declared, Represents (run history) mentioned declared ∧
      (∀ name, name ∈ mentioned ↔ Mentioned history name) ∧
      ∀ declaration, declaration ∈ declared ↔ Visited history declaration := by
  induction history using List.reverseRecOn with
  | nil =>
    refine ⟨[], [], represents_empty, fun name => ?_, fun declaration => ?_⟩
    · exact iff_of_false List.not_mem_nil (not_mentioned_nil name)
    · exact iff_of_false List.not_mem_nil (not_visited_nil declaration)
  | append_singleton history request ih =>
    obtain ⟨mentioned, declared, h, hmentioned, hdeclared⟩ := ih
    obtain ⟨mentioned', declared', h', hmentioned', hdeclared'⟩ := h.request request
    refine ⟨mentioned', declared', ?_, fun name => ?_, fun declaration => ?_⟩
    · rw [run_append_singleton]
      exact h'
    · rw [mentioned_append_singleton_iff, hmentioned', hmentioned]
    · rw [visited_append_singleton_iff, hdeclared', hdeclared]

/-- What was visited successfully has types for all its fields. -/
theorem Visited.allTyped (h : Visited history declaration) : AllTyped declaration.fields := by
  obtain ⟨earlier, id, -, hvisit⟩ := h
  obtain ⟨mentioned, declared, hearlier, -, -⟩ := exists_represents_run earlier
  exact ((hearlier.exists_visit_eq_ok_iff declaration).mp ⟨_, id, Prod.ext rfl hvisit⟩).2

/-! ## What the node of a visited class holds -/

/-- Whether a node holds a declaration and nothing else, its supertypes and the types of its fields
given by number. -/
structure Records (graph : ClassGraph) (node : ClassNode) (declaration : ClassDeclaration) :
    Prop where
  name_eq : node.name = declaration.name
  access_eq : node.access = declaration.access
  parents : List.Forall₂ (fun name (id : ClassId) => graph.names[id]? = some name)
    (declaration.superclass.toList ++ declaration.interfaces) node.parents
  fields : List.Forall₂ (Links graph) declaration.fields node.fields
  methods_eq : node.methods = declaration.methods

/-- Among nodes with sound numbers, the outline of a node says which declaration it holds. -/
theorem records_of_outline_eq {node : ClassNode} (hnumbers : graph.Numbers node)
    (htyped : AllTyped declaration.fields) (h : graph.outline node = declaration.outline) :
    Records graph node declaration := by
  simp only [outline, ClassDeclaration.outline, Outline.mk.injEq] at h
  obtain ⟨hname, haccess, hparents, hfields, hmethods⟩ := h
  refine ⟨hname, haccess, ?_, ?_, hmethods⟩
  · rw [← hparents, List.forall₂_map_left_iff, List.forall₂_same]
    exact fun parent hparent => getElem?_names_eq_nameOf (hnumbers.1 parent hparent)
  · rw [eq_comm, ← List.forall₂_eq_eq_eq, List.forall₂_map_left_iff,
      List.forall₂_map_right_iff, List.forall₂_iff_zip] at hfields
    refine List.forall₂_iff_zip.mpr ⟨hfields.1, fun {member field} hmem => ?_⟩
    obtain ⟨hmember, hfield⟩ := List.of_mem_zip hmem
    obtain ⟨typeName, htype⟩ := htyped member hmember
    have heq := hfields.2 hmem
    rw [Member.fieldOutline, fieldOutline, htype] at heq
    injection heq with haccess hname hnameOf
    refine ⟨haccess.symm, hname.symm, typeName, htype, ?_⟩
    rw [getElem?_names_eq_nameOf (hnumbers.2 field hfield), ← hnameOf]
    rfl

/-- **A graph and its history.**  A further visit fails exactly when its class was visited
successfully before or one of its fields has no type, and it is refused as the second visit of its
class in the first of these cases.  Every class whose visit succeeded is held as it was declared
then, and every other node is a placeholder.  The names of the nodes are distinct, and they are
those that the history mentions. -/
theorem run_holds_history (history : List Request) :
    (∀ declaration, (∃ failure, ((run history).visit declaration).2 = .error failure) ↔
      (∃ earlier, Visited history earlier ∧ earlier.name = declaration.name) ∨
        ∃ field ∈ declaration.fields, ∃ fault,
          Descriptor.typeName field.descriptor = .error fault) ∧
    (∀ declaration, ((run history).visit declaration).2
        = Outcome.fail (.declaredTwice declaration.name) ↔
      ∃ earlier, Visited history earlier ∧ earlier.name = declaration.name) ∧
    (∀ declaration, Visited history declaration →
      ∃ id node, (run history).find? declaration.name = some id ∧
        (run history).nodes[id]? = some node ∧ Records (run history) node declaration) ∧
    (∀ (id : ClassId) node, (run history).nodes[id]? = some node →
      (∀ declaration, Visited history declaration → declaration.name ≠ node.name) →
        node = .placeholder node.name) ∧
    (run history).names.Nodup ∧
    ∀ name, name ∈ (run history).names ↔ Mentioned history name := by
  obtain ⟨mentioned, declared, h, hmentioned, hdeclared⟩ := exists_represents_run history
  have hnames : ∀ name, name ∈ declared.map (·.name) ↔
      ∃ earlier, Visited history earlier ∧ earlier.name = name := by
    intro name
    simp only [List.mem_map, hdeclared]
  refine ⟨fun declaration => ?_, fun declaration => ?_, fun declaration hvisited => ?_,
    fun id node hnode hother => ?_, h.nodup_names, fun name => ?_⟩
  · rw [exists_visit_eq_error_iff, h.exists_visit_eq_ok_iff, not_and_or, not_not,
      not_allTyped_iff, hnames]
  · rw [visit_eq_declaredTwice_iff, h.mem_visited_ensure_iff, hnames]
  · have hmem := (hdeclared declaration).mpr hvisited
    obtain ⟨id, hid⟩ := h.exists_getElem?_names hmem
    obtain ⟨node, hnode, hname⟩ := Option.map_eq_some_iff.mp ((getElem?_names _ id).symm.trans hid)
    refine ⟨id, node, (find?_eq_some_iff h.nodup_names).mpr hid, hnode,
      records_of_outline_eq (h.numbers id node hnode) hvisited.allTyped ?_⟩
    rw [h.outline_eq id node hnode, hname, outlineAmong_of_mem h.nodup_declared hmem]
  · have hid : (run history).names[id]? = some node.name := by
      rw [getElem?_names, hnode, Option.map_some]
    have hnotMem : node.name ∉ declared.map (·.name) := by
      rw [hnames]
      rintro ⟨earlier, hearlier, heq⟩
      exact hother earlier hearlier heq
    exact Option.some.inj (hnode.symm.trans (h.getElem?_nodes_of_notMem hid hnotMem))
  · rw [h.mem_names_iff, hmentioned]

/-- A class with a superclass and two interfaces. -/
def layeredClass : ClassDeclaration :=
  ⟨"A", 1, some "B", ["I", "J"], [⟨2, "x", "LB;"⟩], [⟨1, "f", "()V"⟩]⟩

/-- A class whose second field has no type. -/
def untypedClass : ClassDeclaration :=
  ⟨"B", 1, some "C", ["A"], [⟨2, "x", "LD;"⟩, ⟨2, "y", "Q"⟩, ⟨2, "z", "LE;"⟩], []⟩

/-- A visit that succeeds, one that fails midway, and one that is refused. -/
def layeredHistory : List Request :=
  [.visit layeredClass, .visit untypedClass, .visit layeredClass, .ensure "F"]

theorem run_holds_history_layered :
    ((run layeredHistory).visit layeredClass).2 = Outcome.fail (.declaredTwice "A") ∧
      (∃ failure, ((run layeredHistory).visit untypedClass).2 = .error failure) ∧
      (∃ id node, (run layeredHistory).find? "A" = some id ∧
        (run layeredHistory).nodes[id]? = some node ∧ node.access = 1 ∧
        List.Forall₂ (fun name (id : ClassId) => (run layeredHistory).names[id]? = some name)
          ["B", "I", "J"] node.parents ∧ node.methods = [⟨1, "f", "()V"⟩]) ∧
      (run layeredHistory).nodes[1]? = some (.placeholder "B") ∧
      (∀ name, Mentioned layeredHistory name ↔ name ∈ ["A", "B", "I", "J", "C", "D", "F"]) := by
  obtain ⟨hfails, hrefused, hheld, hothers, -, hmentioned⟩ := run_holds_history layeredHistory
  have hvisited : Visited layeredHistory layeredClass := ⟨[], 0, ⟨_, rfl⟩, rfl⟩
  have hnames : (run layeredHistory).names = ["A", "B", "I", "J", "C", "D", "F"] := by decide
  -- a further visit of the other class fails as well, but it is not refused
  have hunvisited : ¬∃ earlier, Visited layeredHistory earlier ∧ earlier.name = "B" := by
    rw [show "B" = untypedClass.name from rfl, ← hrefused untypedClass]
    decide
  refine ⟨(hrefused layeredClass).mpr ⟨layeredClass, hvisited, rfl⟩,
    (hfails untypedClass).mpr (Or.inr ⟨⟨2, "y", "Q"⟩, by decide, _, rfl⟩), ?_, ?_, ?_⟩
  · obtain ⟨id, node, hid, hnode, hrecords⟩ := hheld layeredClass hvisited
    exact ⟨id, node, hid, hnode, hrecords.access_eq, hrecords.parents, hrecords.methods_eq⟩
  · obtain ⟨node, hnode, hname⟩ : ∃ node : ClassNode,
        (run layeredHistory).nodes[1]? = some node ∧ node.name = "B" := ⟨_, rfl, rfl⟩
    rw [hnode, hothers 1 node hnode, hname]
    rintro earlier hearlier heq
    exact hunvisited ⟨earlier, hearlier, heq.trans hname⟩
  · intro name
    rw [← hmentioned, hnames]

end AccessTransformer.ClassGraph
