import AccessTransformer.Proofs.ClassGraph.Growth
import AccessTransformer.Rules.Selection
import Mathlib

/-!
# Rules over growing graphs

What a group asks for in a class can change although the class was visited long ago: its ancestors
and those of the types of its fields may be declared later.  But superclasses are only ever gained,
so a group that negates nothing goes on asking for what it asked for.  Names do not change at all,
so without tests for superclasses, in the predicates or for records, nothing changes.

* `Condition.IsPositive`, `Condition.Only`: conditions without negation, and with certain tests.
* `Condition.holds_mono`, `Condition.holds_congr`: conditions whose tests keep their results.
* `Group.linesAmong`: the lines for some of the classes.
* `linesAmong_sublist_and_eq`: what more visits do to the lines for visited classes.
-/

namespace AccessTransformer.Rules

open ClassGraph

/-! ## Conditions -/

namespace Condition

variable {α : Type}

/-- Whether nothing in a condition is negated. -/
def IsPositive : Condition α → Prop
  | .always => True
  | .test _ => True
  | .all conditions => ∀ condition, condition ∈ conditions → IsPositive condition
  | .any conditions => ∀ condition, condition ∈ conditions → IsPositive condition
  | .negation _ => False

/-- Whether all tests in a condition are of a kind, under negations or not. -/
def Only (P : α → Prop) : Condition α → Prop
  | .always => True
  | .test a => P a
  | .all conditions => ∀ condition, condition ∈ conditions → Only P condition
  | .any conditions => ∀ condition, condition ∈ conditions → Only P condition
  | .negation condition => Only P condition

variable {P Q : α → Prop} {result result' : α → Bool}

theorem Only.imp (h : ∀ a, P a → Q a) :
    ∀ {condition : Condition α}, condition.Only P → condition.Only Q
  | .always, _ => by rw [Only]; trivial
  | .test a, hP => by
    rw [Only] at hP ⊢
    exact h a hP
  | .all conditions, hP => by
    rw [Only] at hP ⊢
    exact fun condition hmem => Only.imp h (hP condition hmem)
  | .any conditions, hP => by
    rw [Only] at hP ⊢
    exact fun condition hmem => Only.imp h (hP condition hmem)
  | .negation condition, hP => by
    rw [Only] at hP ⊢
    exact Only.imp h hP

theorem only_of_forall (h : ∀ a, P a) : ∀ condition : Condition α, condition.Only P
  | .always => by rw [Only]; trivial
  | .test a => by
    rw [Only]
    exact h a
  | .all conditions => by
    rw [Only]
    exact fun condition _ => only_of_forall h condition
  | .any conditions => by
    rw [Only]
    exact fun condition _ => only_of_forall h condition
  | .negation condition => by
    rw [Only]
    exact only_of_forall h condition

/-- **Without negation, a condition goes on holding while its tests go on passing.** -/
theorem holds_mono : ∀ {condition : Condition α}, condition.IsPositive →
    condition.Only (fun a => result a = true → result' a = true) →
    condition.holds result = true → condition.holds result' = true
  | .always, _, _ => fun _ => by rw [holds]
  | .test a, _, htests => by
    rw [Only] at htests
    rw [holds, holds]
    exact htests
  | .all conditions, hpositive, htests => by
    rw [IsPositive] at hpositive
    rw [Only] at htests
    rw [holds, holds, allHold_eq_all, allHold_eq_all, List.all_eq_true, List.all_eq_true]
    exact fun hall condition hmem =>
      holds_mono (hpositive condition hmem) (htests condition hmem) (hall condition hmem)
  | .any conditions, hpositive, htests => by
    rw [IsPositive] at hpositive
    rw [Only] at htests
    rw [holds, holds, anyHolds_eq_any, anyHolds_eq_any, List.any_eq_true, List.any_eq_true]
    rintro ⟨condition, hmem, hholds⟩
    exact ⟨condition, hmem, holds_mono (hpositive condition hmem) (htests condition hmem) hholds⟩
  | .negation condition, hpositive, _ => by
    rw [IsPositive] at hpositive
    exact hpositive.elim

/-- A condition holds as before when its tests have the results from before. -/
theorem holds_congr : ∀ {condition : Condition α},
    condition.Only (fun a => result a = result' a) →
    condition.holds result = condition.holds result'
  | .always, _ => by rw [holds, holds]
  | .test a, htests => by
    rw [Only] at htests
    rw [holds, holds, htests]
  | .all conditions, htests => by
    rw [Only] at htests
    rw [holds, holds, allHold_eq_all, allHold_eq_all]
    rw [Bool.eq_iff_iff, List.all_eq_true, List.all_eq_true]
    exact forall₂_congr fun condition hmem => by rw [holds_congr (htests condition hmem)]
  | .any conditions, htests => by
    rw [Only] at htests
    rw [holds, holds, anyHolds_eq_any, anyHolds_eq_any]
    rw [Bool.eq_iff_iff, List.any_eq_true, List.any_eq_true]
    exact exists_congr fun condition => and_congr_right fun hmem => by
      rw [holds_congr (htests condition hmem)]
  | .negation condition, htests => by
    rw [Only] at htests
    rw [holds, holds, holds_congr htests]

end Condition

/-! ## Predicates -/

/-- Whether a test of a class looks at the name of the class only. -/
def ClassTest.IsAboutName : ClassTest → Prop
  | .named _ => True
  | .hasSuperclass _ => False
  | .innerClassOf _ => True

/-- Whether a test of a field negates nothing in what it asks of the type. -/
def FieldTest.IsPositive : FieldTest → Prop
  | .named _ => True
  | .ofType type => type.IsPositive

/-- Whether a test of a field looks at names only, its own and that of its type. -/
def FieldTest.IsAboutNames : FieldTest → Prop
  | .named _ => True
  | .ofType type => type.Only ClassTest.IsAboutName

/-- Whether a target negates nothing. -/
def Target.IsPositive : Target → Prop
  | .classes => True
  | .methods predicate => predicate.IsPositive
  | .fields predicate => predicate.IsPositive ∧ predicate.Only FieldTest.IsPositive

/-- Whether a target has no test for superclasses. -/
def Target.IsAboutNames : Target → Prop
  | .classes => True
  | .methods _ => True
  | .fields predicate => predicate.Only FieldTest.IsAboutNames

/-- Whether nothing in the predicates of a group is negated. -/
def Group.IsPositive (group : Group) : Prop :=
  group.classes.IsPositive ∧ group.target.IsPositive

/-- Whether there is no test for superclasses in the predicates of a group. -/
def Group.IsAboutNames (group : Group) : Prop :=
  group.classes.Only ClassTest.IsAboutName ∧ group.target.IsAboutNames

/-! ## Selections -/

/-- Two graphs with distinct names, of which the second one has what the first one has. -/
structure WellGrown (graph graph' : ClassGraph) : Prop extends Grows graph graph' where
  left : WellNumbered graph
  right : WellNumbered graph'

variable {graph graph' : ClassGraph} {id : ClassId} {node : ClassNode} {field : Field}

namespace WellGrown

/-- The name of a class passes and fails what it passed and failed. -/
theorem passes_class_eq (h : WellGrown graph graph') (hid : id < graph.size) (test : ClassTest)
    (hname : test.IsAboutName) : test.passes graph id = test.passes graph' id := by
  cases test with
  | named name => rw [ClassTest.passes, ClassTest.passes, h.nameOf_eq hid]
  | hasSuperclass name => exact hname.elim
  | innerClassOf outer => rw [ClassTest.passes, ClassTest.passes, h.nameOf_eq hid]

/-- What a class passes it goes on passing. -/
theorem passes_class (h : WellGrown graph graph') (hid : id < graph.size) (test : ClassTest)
    (hpasses : test.passes graph id = true) : test.passes graph' id = true := by
  cases test with
  | named name => exact (h.passes_class_eq hid (.named name) trivial).symm.trans hpasses
  | hasSuperclass name =>
    exact h.hasSuperclass h.left.nodup_names h.right.nodup_names hpasses
  | innerClassOf outer =>
    exact (h.passes_class_eq hid (.innerClassOf outer) trivial).symm.trans hpasses

theorem selects_class (h : WellGrown graph graph') (hid : id < graph.size)
    {predicate : ClassPredicate} (hpositive : predicate.IsPositive) :
    predicate.selects graph id = true → predicate.selects graph' id = true :=
  Condition.holds_mono hpositive (Condition.only_of_forall (h.passes_class hid) predicate)

theorem selects_class_eq (h : WellGrown graph graph') (hid : id < graph.size)
    {predicate : ClassPredicate} (hnames : predicate.Only ClassTest.IsAboutName) :
    predicate.selects graph id = predicate.selects graph' id :=
  Condition.holds_congr (hnames.imp (h.passes_class_eq hid))

theorem selects_field (h : WellGrown graph graph') (htype : field.type < graph.size)
    {predicate : FieldPredicate} (hpositive : predicate.IsPositive)
    (htypes : predicate.Only FieldTest.IsPositive) :
    predicate.selects graph field = true → predicate.selects graph' field = true := by
  refine Condition.holds_mono hpositive (htypes.imp fun test htest => ?_)
  cases test with
  | named name => exact fun hpasses => hpasses
  | ofType type => exact h.selects_class htype htest

theorem selects_field_eq (h : WellGrown graph graph') (htype : field.type < graph.size)
    {predicate : FieldPredicate} (hnames : predicate.Only FieldTest.IsAboutNames) :
    predicate.selects graph field = predicate.selects graph' field := by
  refine Condition.holds_congr (hnames.imp fun test htest => ?_)
  cases test with
  | named name => rfl
  | ofType type => exact h.selects_class_eq htype htest

end WellGrown

/-! ## Lines -/

/-- What passes a test is among what passes a weaker one. -/
theorem filter_sublist_filter {α : Type} {l : List α} {p q : α → Bool}
    (h : ∀ a ∈ l, p a = true → q a = true) : (l.filter p).Sublist (l.filter q) := by
  have hfilter : l.filter p = (l.filter q).filter p := by
    rw [List.filter_filter]
    refine List.filter_congr fun a hmem => ?_
    cases hp : p a with
    | true => rw [h a hmem hp, Bool.and_true]
    | false => rfl
  rw [hfilter]
  exact List.filter_sublist

namespace Group

/-- The lines for the class with the given number. -/
def linesNumbered (group : Group) (graph : ClassGraph) (id : ClassId) : List String :=
  (graph.nodes[id]?.map (group.linesOf graph id)).getD []

/-- The lines for the classes whose numbers are among the given ones, in the order of the graph. -/
def linesAmong (group : Group) (graph : ClassGraph) (ids : List ClassId) : List String :=
  (graph.nodes.toList.zipIdx.filter fun (_, id) => id ∈ ids).flatMap fun (node, id) =>
    group.linesOf graph id node

theorem linesNumbered_eq (hnode : graph.nodes[id]? = some node) (group : Group) :
    group.linesNumbered graph id = group.linesOf graph id node := by
  rw [linesNumbered, hnode, Option.map_some, Option.getD_some]

/-- The lines for some classes, number by number. -/
theorem linesAmong_eq (group : Group) (graph : ClassGraph) (ids : List ClassId) :
    group.linesAmong graph ids
      = ((List.range graph.size).filter (· ∈ ids)).flatMap (group.linesNumbered graph) := by
  have hrange : List.range graph.size = graph.nodes.toList.zipIdx.map Prod.snd := by
    rw [List.zipIdx_map_snd, Array.length_toList, ← List.range_eq_range', size]
  rw [linesAmong, hrange, List.filter_map, List.flatMap_map]
  apply List.flatMap_congr
  rintro ⟨node, id⟩ hmem
  have hnode := getElem?_nodes_of_mem_zipIdx (List.mem_of_mem_filter hmem)
  exact (linesNumbered_eq hnode group).symm

/-- More nodes bring no lines for the classes from before. -/
theorem linesAmong_eq_of_size_le {ids : List ClassId} (hsize : graph.size ≤ graph'.size)
    (hids : ∀ id ∈ ids, id < graph.size) (group : Group) :
    group.linesAmong graph' ids
      = ((List.range graph.size).filter (· ∈ ids)).flatMap (group.linesNumbered graph') := by
  obtain ⟨more, hmore⟩ := Nat.exists_eq_add_of_le hsize
  have hnone : ((List.range more).map (graph.size + ·)).filter (· ∈ ids) = [] := by
    refine List.filter_eq_nil_iff.mpr fun id hid hmem => ?_
    obtain ⟨offset, -, rfl⟩ := List.mem_map.mp hid
    exact Nat.not_lt.mpr (Nat.le_add_right _ _) (hids _ (of_decide_eq_true hmem))
  rw [linesAmong_eq, hmore, List.range_add, List.filter_append, hnone, List.append_nil]

variable {group : Group}

theorem constructorLines_sublist (h : WellGrown graph graph') (group : Group) (id : ClassId)
    (node : ClassNode) :
    (group.constructorLines graph id node).Sublist (group.constructorLines graph' id node) := by
  rw [constructorLines, constructorLines]
  by_cases hrecord : graph.hasSuperclass id recordClass = true
  · rw [if_pos hrecord,
      if_pos (h.hasSuperclass h.left.nodup_names h.right.nodup_names hrecord)]
  · rw [if_neg hrecord]
    exact List.nil_sublist _

/-- Without negation, the lines for what a target selects in a class are kept. -/
theorem targetLines_sublist (h : WellGrown graph graph') (hnode : graph.nodes[id]? = some node)
    (hpositive : group.target.IsPositive) :
    (group.targetLines graph id node).Sublist (group.targetLines graph' id node) := by
  unfold targetLines
  cases htarget : group.target with
  | classes =>
    dsimp only
    split
    · exact List.Sublist.refl _
    · exact (constructorLines_sublist h group id node).cons_cons _
  | methods predicate => exact List.Sublist.refl _
  | fields predicate =>
    rw [htarget] at hpositive
    obtain ⟨hpredicate, htypes⟩ := hpositive
    refine (filter_sublist_filter fun field hfield => ?_).map _
    have htype := (h.left.numbers id node hnode).2 field hfield
    rw [Bool.and_eq_true, Bool.and_eq_true]
    exact And.imp_left (h.selects_field htype hpredicate htypes)

/-- Without tests for superclasses, the lines for the members of a class are the same. -/
theorem targetLines_eq_of_isAboutNames (h : WellGrown graph graph')
    (hnode : graph.nodes[id]? = some node) (hkind : group.target.kind ≠ .classes)
    (hnames : group.target.IsAboutNames) :
    group.targetLines graph id node = group.targetLines graph' id node := by
  unfold targetLines
  cases htarget : group.target with
  | classes =>
    rw [htarget] at hkind
    exact absurd rfl hkind
  | methods predicate => rfl
  | fields predicate =>
    rw [htarget] at hnames
    refine congrArg (List.map _) (List.filter_congr fun field hfield => ?_)
    rw [h.selects_field_eq ((h.left.numbers id node hnode).2 field hfield) hnames]

/-- Without negation, the lines for a class are kept. -/
theorem linesOf_sublist (h : WellGrown graph graph') (hnode : graph.nodes[id]? = some node)
    (hpositive : group.IsPositive) :
    (group.linesOf graph id node).Sublist (group.linesOf graph' id node) := by
  have hid := lt_size_of_getElem?_names (getElem?_names_of_getElem?_nodes hnode)
  rw [linesOf, linesOf]
  cases hselects : group.classes.selects graph id with
  | false => exact List.nil_sublist _
  | true =>
    rw [h.selects_class hid hpositive.1 hselects]
    split
    · exact targetLines_sublist h hnode hpositive.2
    · exact List.Sublist.refl _

/-- Without tests for superclasses, the lines for a class are the same, unless they are for the
class itself. -/
theorem linesOf_eq_of_isAboutNames (h : WellGrown graph graph')
    (hnode : graph.nodes[id]? = some node) (hkind : group.target.kind ≠ .classes)
    (hnames : group.IsAboutNames) :
    group.linesOf graph id node = group.linesOf graph' id node := by
  have hid := lt_size_of_getElem?_names (getElem?_names_of_getElem?_nodes hnode)
  rw [linesOf, linesOf, h.selects_class_eq hid hnames.1,
    targetLines_eq_of_isAboutNames h hnode hkind hnames.2]

end Group

/-! ## More visits -/

/-- **More visits take no line away from a class that was visited before.**  A group that negates
nothing has for these classes at least the lines that it had, as often and in the same order.  One
that has no test for superclasses, and that is not for the classes themselves, has just the same
lines for them, with negations or without. -/
theorem linesAmong_sublist_and_eq {declarations more : List ClassDeclaration}
    (hvisits : Visits empty declarations graph) (hmore : Visits graph more graph')
    (group : Group) :
    (group.IsPositive →
      (group.linesAmong graph graph.visited).Sublist (group.linesAmong graph' graph.visited)) ∧
    (group.IsAboutNames → group.target.kind ≠ .classes →
      group.linesAmong graph graph.visited = group.linesAmong graph' graph.visited) := by
  have hgraph := hvisits.represents represents_empty
  have hgrown : WellGrown graph graph' :=
    { toGrows := hmore.grows
      left := hgraph.toWellNumbered
      right := (hmore.represents hgraph).toWellNumbered }
  have hvisited : ∀ id ∈ graph.visited, id < graph.size := by
    intro id hid
    obtain ⟨declaration, -, hname⟩ := (hgraph.mem_visited_iff id).mp hid
    exact lt_size_of_getElem?_names hname
  -- the node of a visited class is the same in both graphs
  have hnodes : ∀ id ∈ (List.range graph.size).filter (· ∈ graph.visited), ∃ node,
      graph.nodes[id]? = some node ∧ graph'.nodes[id]? = some node := by
    intro id hid
    have hmem : id ∈ graph.visited := of_decide_eq_true (List.mem_filter.mp hid).2
    have hnode := Array.getElem?_eq_getElem (hvisited id hmem)
    exact ⟨_, hnode, hgrown.getElem?_nodes hmem hnode⟩
  rw [group.linesAmong_eq_of_size_le (Nat.le_refl _) hvisited,
    group.linesAmong_eq_of_size_le hgrown.size_le hvisited]
  refine ⟨fun hpositive => ?_, fun hnames hkind => ?_⟩
  · refine List.Sublist.flatMap_right _ fun id hid => ?_
    obtain ⟨node, hnode, hnode'⟩ := hnodes id hid
    rw [Group.linesNumbered_eq hnode, Group.linesNumbered_eq hnode']
    exact Group.linesOf_sublist hgrown hnode hpositive
  · refine List.flatMap_congr fun id hid => ?_
    obtain ⟨node, hnode, hnode'⟩ := hnodes id hid
    rw [Group.linesNumbered_eq hnode, Group.linesNumbered_eq hnode']
    exact Group.linesOf_eq_of_isAboutNames hgrown hnode hkind hnames

/-- A class with a constructor and a field of the type of its superclass. -/
def lower : ClassDeclaration :=
  ⟨"R", 0, some "S", [], [⟨2, "x", "LS;"⟩], [⟨2, "<init>", "()V"⟩]⟩

/-- The superclass, declared later: it makes a record of the class below it. -/
def upper : ClassDeclaration := ⟨"S", 1, some "java/lang/Record", [], [], []⟩

/-- The graph of the class alone. -/
def beforeUpper : ClassGraph := (empty.visit lower).1

/-- The graph of both classes. -/
def afterUpper : ClassGraph := (beforeUpper.visit upper).1

/-- All classes, to be public. -/
def publicClasses : Group := ⟨"classes", ⟨"public", false, Access.publicFlag⟩, .always, .classes⟩

/-- All fields of classes with other names than `T`, in classes with other names than `S`. -/
def publicFields : Group :=
  ⟨"fields", ⟨"public", false, Access.publicFlag⟩, .negation (.test (.named "S")),
    .fields (.negation (.test (.ofType (.test (.named "T")))))⟩

/-- A class that turns out to be a record keeps its line and gets one for its constructor; the line
for its field is the same. -/
theorem linesAmong_sublist_and_eq_afterUpper :
    Visits empty [lower] beforeUpper ∧ Visits beforeUpper [upper] afterUpper ∧
      publicClasses.linesAmong beforeUpper [0] = ["public R"] ∧
      publicClasses.linesAmong afterUpper [0] = ["public R", "public R <init>()V"] ∧
      ["public R"].Sublist (publicClasses.linesAmong afterUpper [0]) ∧
      publicFields.linesAmong beforeUpper [0] = ["public R x"] ∧
      publicFields.linesAmong afterUpper [0] = ["public R x"] := by
  have hvisits : Visits empty [lower] beforeUpper :=
    .cons (by rfl : _ = (_, Except.ok 0)) (.nil beforeUpper)
  have hmore : Visits beforeUpper [upper] afterUpper :=
    .cons (by rfl : _ = (_, Except.ok 1)) (.nil afterUpper)
  have hpositive : publicClasses.IsPositive := by
    simp [Group.IsPositive, publicClasses, Condition.IsPositive, Target.IsPositive]
  have hnames : publicFields.IsAboutNames := by
    simp [Group.IsAboutNames, publicFields, Condition.Only, Target.IsAboutNames,
      ClassTest.IsAboutName, FieldTest.IsAboutNames]
  have hclasses : publicClasses.linesAmong beforeUpper [0] = ["public R"] := by cbv
  have hfields : publicFields.linesAmong beforeUpper [0] = ["public R x"] := by cbv
  have hkept := (linesAmong_sublist_and_eq hvisits hmore publicClasses).1 hpositive
  have hsame := (linesAmong_sublist_and_eq hvisits hmore publicFields).2 hnames (by decide)
  exact ⟨hvisits, hmore, hclasses, by cbv, hclasses ▸ hkept, hfields, hsame.symm.trans hfields⟩

end AccessTransformer.Rules
