import AccessTransformer.Proofs.ClassGraph.Flags
import AccessTransformer.Proofs.Rules.Sections
import Mathlib

/-!
# Granting what a group asks for

A group writes lines for what it selects and what does not satisfy its modifier yet.  Once the flags
of these classes, fields and methods are changed so that they do satisfy it, the group has nothing
left to ask for, and nothing else has changed: predicates do not look at flags, and lines have none
in them, so every place is decided for itself.  The constructors of a record are no places of their
own in a group for classes; their lines come and go with that of the class, whatever their flags.

* `Group.calls`, `Group.linesAt`: the places that a group calls for, and the lines for each.
* `Group.lines_eq_flatMap_places`: a group goes through its places one by one.
* `Group.Grants`: flags that satisfy the modifier, at some of the places that a group calls for.
* `Group.lines_of_grants`: which lines are left.
-/

namespace AccessTransformer.Rules

open ClassGraph

variable {graph graph' : ClassGraph} {id : ClassId} {node : ClassNode} {place : Place}
  {granted : List Place}

/-! ## Places -/

/-- Members picked by a test are those at the positions that are called for. -/
theorem flatMap_filter_range {α β : Type} {members : List α} {p : α → Bool} {line : α → β}
    {called : Nat → Bool} {linesOf : Nat → List β}
    (hcalled : ∀ position member, members[position]? = some member → called position = p member)
    (hlines : ∀ position member, members[position]? = some member →
      linesOf position = [line member]) :
    ((List.range members.length).filter called).flatMap linesOf
      = (members.filter p).map line := by
  induction members generalizing called linesOf with
  | nil => rfl
  | cons member members ih =>
    have hrest : ((List.range members.length).filter (called ∘ Nat.succ)).flatMap
        (linesOf ∘ Nat.succ) = (members.filter p).map line :=
      ih (fun position => hcalled (position + 1)) fun position => hlines (position + 1)
    have hfirst : called 0 = p member := hcalled 0 member rfl
    rw [List.length_cons, List.range_succ_eq_map, List.filter_cons, List.filter_cons, hfirst,
      List.filter_map]
    cases p member with
    | true =>
      rw [if_pos rfl, if_pos rfl, List.flatMap_cons, List.flatMap_map, List.map_cons, ← hrest,
        hlines 0 member rfl]
      rfl
    | false =>
      rw [if_neg Bool.false_ne_true, if_neg Bool.false_ne_true, List.flatMap_map, ← hrest]
      rfl

/-- The kind of the groups that can select a place. -/
def kindOf : Place → Kind
  | .node _ => .classes
  | .field _ _ => .fields
  | .method _ _ => .methods

namespace Group

/-- Whether a group looks into a class. -/
def looksInto (group : Group) (graph : ClassGraph) (id : ClassId) : Bool :=
  group.classes.selects graph id && !isAnonymous (graph.nameOf id).toList

/-- Whether a group selects what is at a place. -/
def selectsAt (group : Group) (graph : ClassGraph) (place : Place) : Bool :=
  match group.target, place with
  | .classes, .node id => group.looksInto graph id
  | .fields predicate, .field id position =>
    group.looksInto graph id && (graph.fieldAt? id position).any (predicate.selects graph)
  | .methods predicate, .method id position =>
    group.looksInto graph id && (graph.methodAt? id position).any predicate.selects
  | _, _ => false

/-- Whether a group calls for a place: it selects what is there, and the flags there do not satisfy
its modifier. -/
def calls (group : Group) (graph : ClassGraph) (place : Place) : Bool :=
  group.selectsAt graph place &&
    (graph.accessAt? place).any fun access => !decide (group.modifier.Satisfies access)

/-- The lines for a place: that of a field or method, or that of a class with those for the
constructors of a record. -/
def linesAt (group : Group) (graph : ClassGraph) : Place → List String
  | .node id =>
    (graph.nodes[id]?.map fun node =>
      group.classLine node :: group.constructorLines graph id node).getD []
  | .field id position =>
    (graph.nodes[id]?.map fun node =>
      (node.fields[position]?.map (group.fieldLine node)).toList).getD []
  | .method id position =>
    (graph.nodes[id]?.map fun node =>
      (node.methods[position]?.map (group.methodLine node)).toList).getD []

theorem looksInto_eq (hnode : graph.nodes[id]? = some node) (group : Group) :
    group.looksInto graph id
      = (group.classes.selects graph id && !isAnonymous node.name.toList) := by
  rw [looksInto, nameOf, hnode, Option.map_some, Option.getD_some]

/-- A group selects classes, methods or fields, and nothing of another kind. -/
theorem selectsAt_eq_false {group : Group} (hkind : group.target.kind ≠ kindOf place) :
    group.selectsAt graph place = false := by
  unfold selectsAt
  cases htarget : group.target <;> cases place <;> simp_all [Target.kind, kindOf]

theorem filter_calls_eq_nil {group : Group} {places : List Place}
    (hkind : ∀ place ∈ places, group.target.kind ≠ kindOf place) :
    places.filter (group.calls graph) = [] := by
  refine List.filter_eq_nil_iff.mpr fun place hplace => ?_
  rw [calls, selectsAt_eq_false (hkind place hplace), Bool.false_and]
  exact Bool.false_ne_true

/-- Nothing is called for in a class that the group does not look into. -/
theorem calls_eq_false {group : Group} (hlooks : group.looksInto graph id = false)
    (hplace : place ∈ node.places id) : group.calls graph place = false := by
  simp only [ClassNode.places, List.mem_cons, List.mem_append, List.mem_map] at hplace
  rcases hplace with rfl | ⟨position, -, rfl⟩ | ⟨position, -, rfl⟩ <;>
    cases htarget : group.target <;> simp [calls, selectsAt, htarget, hlooks]

/-- The lines for the fields of a class come from its fields one by one. -/
theorem flatMap_linesAt_fields {predicate : FieldPredicate} {group : Group}
    (hnode : graph.nodes[id]? = some node) (htarget : group.target = .fields predicate)
    (hlooks : group.looksInto graph id = true) :
    (((List.range node.fields.length).map (Place.field id)).filter (group.calls graph)).flatMap
        (group.linesAt graph)
      = group.targetLines graph id node := by
  rw [List.filter_map, List.flatMap_map, targetLines, htarget]
  refine flatMap_filter_range (fun position field h => ?_) fun position field h => ?_
  · simp [calls, selectsAt, htarget, hlooks, accessAt?, fieldAt?, hnode, h]
  · simp [linesAt, hnode, h]

/-- The lines for the methods of a class come from its methods one by one. -/
theorem flatMap_linesAt_methods {predicate : MethodPredicate} {group : Group}
    (hnode : graph.nodes[id]? = some node) (htarget : group.target = .methods predicate)
    (hlooks : group.looksInto graph id = true) :
    (((List.range node.methods.length).map (Place.method id)).filter (group.calls graph)).flatMap
        (group.linesAt graph)
      = group.targetLines graph id node := by
  rw [List.filter_map, List.flatMap_map, targetLines, htarget]
  refine flatMap_filter_range (fun position method h => ?_) fun position method h => ?_
  · simp [calls, selectsAt, htarget, hlooks, accessAt?, methodAt?, hnode, h]
  · simp [linesAt, hnode, h]

/-- **The lines for a class come from its places one by one.** -/
theorem linesOf_eq_flatMap_places (hnode : graph.nodes[id]? = some node) (group : Group) :
    group.linesOf graph id node
      = ((node.places id).filter (group.calls graph)).flatMap (group.linesAt graph) := by
  rw [linesOf, ← looksInto_eq hnode]
  cases hlooks : group.looksInto graph id with
  | false =>
    have hnone : (node.places id).filter (group.calls graph) = [] :=
      List.filter_eq_nil_iff.mpr fun place hplace =>
        Bool.eq_false_iff.mp (calls_eq_false hlooks hplace)
    rw [hnone]
    rfl
  | true =>
    -- of the class, its fields and its methods, the target looks at one
    have hfields : group.target.kind ≠ .fields →
        ((List.range node.fields.length).map (Place.field id)).filter (group.calls graph) = [] := by
      intro hkind
      exact filter_calls_eq_nil (by simpa [kindOf] using fun _ _ => hkind)
    have hmethods : group.target.kind ≠ .methods →
        ((List.range node.methods.length).map (Place.method id)).filter (group.calls graph)
          = [] := by
      intro hkind
      exact filter_calls_eq_nil (by simpa [kindOf] using fun _ _ => hkind)
    have hclass : group.target.kind ≠ .classes → group.calls graph (.node id) = false := by
      intro hkind
      rw [calls, selectsAt_eq_false (by exact hkind), Bool.false_and]
    rw [if_pos rfl, ClassNode.places, List.filter_cons, List.filter_append]
    cases htarget : group.target with
    | classes =>
      have hcalls : group.calls graph (.node id)
          = !decide (group.modifier.Satisfies node.access) := by
        simp [calls, selectsAt, htarget, hlooks, accessAt?, hnode]
      rw [hfields (by rw [htarget]; nofun), hmethods (by rw [htarget]; nofun), hcalls, targetLines,
        htarget]
      by_cases hsatisfies : group.modifier.Satisfies node.access
      · simp [hsatisfies]
      · simp [hsatisfies, linesAt, hnode]
    | fields predicate =>
      rw [hclass (by rw [htarget]; nofun), hmethods (by rw [htarget]; nofun),
        if_neg Bool.false_ne_true, List.append_nil, flatMap_linesAt_fields hnode htarget hlooks]
    | methods predicate =>
      rw [hclass (by rw [htarget]; nofun), hfields (by rw [htarget]; nofun),
        if_neg Bool.false_ne_true, List.nil_append, flatMap_linesAt_methods hnode htarget hlooks]

/-- **A group goes through its places one by one**, and has lines for those that it calls for. -/
theorem lines_eq_flatMap_places (group : Group) (graph : ClassGraph) :
    group.lines graph
      = (graph.places.filter (group.calls graph)).flatMap (group.linesAt graph) := by
  rw [lines, places, List.filter_flatMap, List.flatMap_assoc]
  apply List.flatMap_congr
  rintro ⟨node, id⟩ hmem
  exact linesOf_eq_flatMap_places (getElem?_nodes_of_mem_zipIdx hmem) group

end Group

/-! ## Other flags -/

section SameButFlags

/-- Predicates on classes do not look at flags. -/
theorem ClassPredicate.selects_eq_of_sameButFlags (h : SameButFlags graph graph')
    (predicate : ClassPredicate) : predicate.selects graph' = predicate.selects graph := by
  have hpasses : ∀ id, ClassTest.passes graph' id = ClassTest.passes graph id := by
    intro id
    funext test
    cases test with
    | named name => rw [ClassTest.passes, ClassTest.passes, h.nameOf_eq]
    | hasSuperclass name => rw [ClassTest.passes, ClassTest.passes, h.hasSuperclass_eq]
    | innerClassOf outer => rw [ClassTest.passes, ClassTest.passes, h.nameOf_eq]
  funext id
  rw [selects, selects, hpasses]

/-- Predicates on fields do not look at flags, not even at those of the classes that are types. -/
theorem FieldPredicate.selects_eq_of_sameButFlags (h : SameButFlags graph graph')
    (predicate : FieldPredicate) (field : Field) :
    predicate.selects graph' field = predicate.selects graph field := by
  have hpasses : FieldTest.passes graph' field = FieldTest.passes graph field := by
    funext test
    cases test with
    | named name => rfl
    | ofType type =>
      rw [FieldTest.passes, FieldTest.passes, ClassPredicate.selects_eq_of_sameButFlags h]
  rw [selects, selects, hpasses]

theorem FieldPredicate.selects_unflagged (predicate : FieldPredicate) (field : Field) :
    predicate.selects graph field.unflagged = predicate.selects graph field := by
  have hpasses : FieldTest.passes graph field.unflagged = FieldTest.passes graph field := by
    funext test
    cases test <;> rfl
  rw [selects, selects, hpasses]

theorem MethodPredicate.selects_unflagged (predicate : MethodPredicate) (method : Member) :
    predicate.selects method.unflagged = predicate.selects method := by
  have hpasses : MethodTest.passes method.unflagged = MethodTest.passes method := by
    funext test
    cases test <;> rfl
  rw [selects, selects, hpasses]

namespace Group

theorem looksInto_eq_of_sameButFlags (h : SameButFlags graph graph') (group : Group)
    (id : ClassId) : group.looksInto graph' id = group.looksInto graph id := by
  rw [looksInto, looksInto, ClassPredicate.selects_eq_of_sameButFlags h, h.nameOf_eq]

/-- **A group selects the same whatever the flags.** -/
theorem selectsAt_eq_of_sameButFlags (h : SameButFlags graph graph') (group : Group)
    (place : Place) : group.selectsAt graph' place = group.selectsAt graph place := by
  have hlooks := looksInto_eq_of_sameButFlags h group
  unfold selectsAt
  cases group.target with
  | classes => cases place <;> simp only [hlooks]
  | fields predicate =>
    have hselects : predicate.selects graph' = predicate.selects graph :=
      funext (FieldPredicate.selects_eq_of_sameButFlags h predicate)
    cases place with
    | field id position =>
      simp only [hlooks, hselects, h.any_fieldAt?_eq predicate.selects_unflagged]
    | node id => rfl
    | method id position => rfl
  | methods predicate =>
    cases place with
    | method id position =>
      simp only [hlooks, h.any_methodAt?_eq predicate.selects_unflagged]
    | node id => rfl
    | field id position => rfl

/-- **The lines for a place are the same whatever the flags.** -/
theorem linesAt_eq_of_sameButFlags (h : SameButFlags graph graph') (group : Group)
    (place : Place) : group.linesAt graph' place = group.linesAt graph place := by
  cases place with
  | node id =>
    have hlines : ∀ node : ClassNode, group.constructorLines graph id node.unflagged
        = group.constructorLines graph id node := by
      intro node
      simp only [constructorLines, ClassNode.unflagged, List.filter_map, List.map_map]
      rfl
    have hconstructors : group.constructorLines graph' id = group.constructorLines graph id := by
      funext node
      rw [constructorLines, constructorLines, h.hasSuperclass_eq]
    rw [linesAt, linesAt, hconstructors, h.map_eq fun node => ?_]
    rw [hlines]
    rfl
  | field id position =>
    rw [linesAt, linesAt, h.map_eq fun node => ?_]
    simp only [ClassNode.unflagged, List.getElem?_map, Option.map_map]
    rfl
  | method id position =>
    rw [linesAt, linesAt, h.map_eq fun node => ?_]
    simp only [ClassNode.unflagged, List.getElem?_map, Option.map_map]
    rfl

end Group

end SameButFlags

/-! ## What is left -/

namespace Group

/-- Whether a place is a constructor for which a group for classes has a line along with that for
the class, whatever the flags of the constructor. -/
def IsForced (group : Group) (graph : ClassGraph) : Place → Prop
  | .method id position =>
    group.target.kind = .classes ∧ graph.hasSuperclass id recordClass = true ∧
      (graph.methodAt? id position).any (·.name = constructorName) = true
  | _ => False

/-- The second graph is the first one with other flags, which satisfy the modifier of a group, at
some of the places that the group calls for.  Only the constructors of records may have other flags
besides, and only if the group is one for classes. -/
structure Grants (group : Group) (graph : ClassGraph) (granted : List Place)
    (graph' : ClassGraph) : Prop where
  sameButFlags : SameButFlags graph graph'
  calls : ∀ place ∈ granted, group.calls graph place = true
  satisfies : ∀ place ∈ granted,
    ∃ access, graph'.accessAt? place = some access ∧ group.modifier.Satisfies access
  kept : ∀ place ∈ graph.places, place ∉ granted → ¬group.IsForced graph place →
    graph'.accessAt? place = graph.accessAt? place

variable {group : Group}

/-- Groups for classes do not call for methods, constructors of records or not. -/
theorem IsForced.selectsAt_eq_false (h : group.IsForced graph place) :
    group.selectsAt graph place = false := by
  cases place with
  | method id position =>
    refine selectsAt_eq_false ?_
    rw [h.1]
    nofun
  | node id => cases h
  | field id position => cases h

/-- **What a group still calls for is what it called for and was not granted.** -/
theorem Grants.calls_eq (h : group.Grants graph granted graph') (hplace : place ∈ graph.places) :
    group.calls graph' place = (group.calls graph place && decide (place ∉ granted)) := by
  have hselects := selectsAt_eq_of_sameButFlags h.sameButFlags group place
  by_cases hgranted : place ∈ granted
  · obtain ⟨access, haccess, hsatisfies⟩ := h.satisfies place hgranted
    have hnone : group.calls graph' place = false := by simp [Group.calls, haccess, hsatisfies]
    rw [hnone, decide_eq_false (not_not_intro hgranted), Bool.and_false]
  · rw [decide_eq_true hgranted, Bool.and_true, Group.calls, Group.calls, hselects]
    by_cases hforced : group.IsForced graph place
    · rw [hforced.selectsAt_eq_false, Bool.false_and, Bool.false_and]
    · rw [h.kept place hplace hgranted hforced]

/-- **Flags that satisfy the modifier remove just the lines for what has them.**  A group has lines
for the places that it calls for, one place after the other.  With other flags at some of these
places, the lines for these places are gone, those for the constructors of a record together with
the line for its class, and all other lines are as before.  Once every place that the group calls
for has such flags, the group has no lines, and its evaluation fails for this reason. -/
theorem lines_of_grants (h : group.Grants graph granted graph') :
    group.lines graph = (graph.places.filter (group.calls graph)).flatMap (group.linesAt graph) ∧
    group.lines graph' = (graph.places.filter fun place =>
      group.calls graph place && decide (place ∉ granted)).flatMap (group.linesAt graph) ∧
    ((∀ place ∈ graph.places, group.calls graph place = true → place ∈ granted) →
      group.lines graph' = [] ∧ sections graph' [group] = .error (.emptyGroup group.name)) := by
  have hleft : group.lines graph' = (graph.places.filter fun place =>
      group.calls graph place && decide (place ∉ granted)).flatMap (group.linesAt graph) := by
    have hlinesAt : group.linesAt graph' = group.linesAt graph :=
      funext (linesAt_eq_of_sameButFlags h.sameButFlags group)
    rw [lines_eq_flatMap_places, h.sameButFlags.places_eq, hlinesAt,
      List.filter_congr fun place hplace => h.calls_eq hplace]
  refine ⟨lines_eq_flatMap_places group graph, hleft, fun hall => ?_⟩
  have hnone : group.lines graph' = [] := by
    have hfilter : (graph.places.filter fun place =>
        group.calls graph place && decide (place ∉ granted)) = [] := by
      refine List.filter_eq_nil_iff.mpr fun place hplace hcalls => ?_
      rw [Bool.and_eq_true, decide_eq_true_iff] at hcalls
      exact hcalls.2 (hall place hplace hcalls.1)
    rw [hleft, hfilter, List.flatMap_nil]
  exact ⟨hnone, by rw [sections_cons, if_pos hnone]⟩

/-- A record with a constructor, and the class of all records. -/
def record (access constructorAccess above : UInt16) : ClassGraph :=
  .ofNodes #[⟨"R", access, [1], [], [⟨constructorAccess, "<init>", "()V"⟩]⟩,
    ⟨"java/lang/Record", above, [], [], []⟩] [0]

/-- All classes, to be public. -/
def published : Group := ⟨"published", ⟨"public", false, Access.publicFlag⟩, .always, .classes⟩

/-- The record is made public, alone or with the class above it, and its constructor private. -/
theorem grants_record {above : UInt16}
    (h : granted = [.node 0] ∧ above = 0 ∨ granted = [.node 0, .node 1] ∧ above = 1) :
    published.Grants (record 0 0 0) granted (record 1 2 above) where
  sameButFlags := by
    simp [SameButFlags, record, ofNodes, ClassNode.unflagged, Member.unflagged]
  calls := by rcases h with ⟨rfl, -⟩ | ⟨rfl, -⟩ <;> decide
  satisfies := by
    have hrecord : ∃ access, (record 1 2 above).accessAt? (.node 0) = some access ∧
        published.modifier.Satisfies access := ⟨1, rfl, by decide⟩
    rcases h with ⟨rfl, -⟩ | ⟨rfl, rfl⟩
    · exact List.forall_mem_singleton.mpr hrecord
    · exact List.forall_mem_cons.mpr ⟨hrecord, List.forall_mem_singleton.mpr ⟨1, rfl, by decide⟩⟩
  kept := by
    have hforced : published.IsForced (record 0 0 0) (.method 0 0) := ⟨rfl, by cbv, rfl⟩
    intro place hplace hgranted hfree
    obtain rfl | rfl | rfl : place = .node 0 ∨ place = .method 0 0 ∨ place = .node 1 := by
      simpa [ClassGraph.places, ClassNode.places, record, ofNodes] using hplace
    · rcases h with ⟨rfl, -⟩ | ⟨rfl, -⟩ <;> exact absurd List.mem_cons_self hgranted
    · exact absurd hforced hfree
    · rcases h with ⟨-, rfl⟩ | ⟨rfl, -⟩
      · rfl
      · exact absurd (List.mem_cons_of_mem _ (List.mem_singleton_self _)) hgranted

/-- The constructor of a record loses its line with the class, although it becomes private; once
the class above is public too, nothing is left. -/
theorem lines_of_grants_record :
    published.lines (record 0 0 0) = ["public R", "public R <init>()V", "public java.lang.Record"] ∧
      published.lines (record 1 2 0) = ["public java.lang.Record"] ∧
      sections (record 1 2 1) [published] = .error (.emptyGroup "published") := by
  obtain ⟨hlines, hpartly, -⟩ := lines_of_grants (grants_record (Or.inl ⟨rfl, rfl⟩))
  obtain ⟨-, -, hfully⟩ := lines_of_grants (grants_record (Or.inr ⟨rfl, rfl⟩))
  refine ⟨hlines.trans ?_, hpartly.trans ?_, (hfully ?_).2⟩
  · cbv
  · cbv
  · decide

end Group

end AccessTransformer.Rules
