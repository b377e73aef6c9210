import AccessTransformer.Proofs.ClassGraph.Reachability
import AccessTransformer.Proofs.Rules.Sections
import Mathlib

/-!
# What rule groups mean

The meaning of a rule group is a multiset of lines, said without any way to compute it: conditions
hold or do not, a superclass is one that can be reached, and a line stands in the multiset as often
as there are fields, methods or classes that call for it.

* `Condition.Holds`, `ClassTest.Holds`, `MethodTest.Holds`, `FieldTest.Holds`: what predicates say.
* `Group.meaning`: the lines that a group calls for.
* `Group.coe_lines`: the evaluation of a group lists its meaning.
* `sections_list_meanings`: the evaluation of groups lists their meanings in order, and stops at the
  first group that calls for nothing.
-/

namespace AccessTransformer.Rules

/-! ## Conditions -/

namespace Condition

variable {α : Type}

/-- What a condition says, given what its tests say. -/
def Holds (P : α → Prop) : Condition α → Prop
  | .always => True
  | .test a => P a
  | .all conditions => ∀ condition, condition ∈ conditions → Holds P condition
  | .any conditions => ∃ condition, ∃ _ : condition ∈ conditions, Holds P condition
  | .negation condition => ¬Holds P condition

variable {result : α → Bool} {P : α → Prop}

/-- Evaluation agrees with the meaning of a condition if it does so for the tests. -/
theorem holds_eq_true_iff (h : ∀ a, result a = true ↔ P a) :
    ∀ condition : Condition α, condition.holds result = true ↔ condition.Holds P
  | .always => by simp only [holds, Holds]
  | .test a => by rw [holds, Holds, h]
  | .all conditions => by
    rw [holds, Holds, allHold_eq_all, List.all_eq_true]
    exact forall₂_congr fun condition _ => holds_eq_true_iff h condition
  | .any conditions => by
    rw [holds, Holds, anyHolds_eq_any, List.any_eq_true]
    constructor
    · rintro ⟨condition, hmem, hholds⟩
      exact ⟨condition, hmem, (holds_eq_true_iff h condition).mp hholds⟩
    · rintro ⟨condition, hmem, hholds⟩
      exact ⟨condition, hmem, (holds_eq_true_iff h condition).mpr hholds⟩
  | .negation condition => by
    rw [holds, Holds, Bool.not_eq_true', ← Bool.not_eq_true, holds_eq_true_iff h condition]

end Condition

/-! ## Tests -/

/-- What a test says of a class. -/
def ClassTest.Holds (graph : ClassGraph) (id : ClassId) : ClassTest → Prop
  | .named name => graph.nameOf id = name
  | .hasSuperclass name => graph.IsUnder id name
  | .innerClassOf outer => ∃ inner, graph.nameOf id = outer ++ "$" ++ inner

/-- What a test says of a method. -/
def MethodTest.Holds (method : Member) : MethodTest → Prop
  | .named name => method.name = name
  | .returns className => ∃ front, method.descriptor = front ++ ")L" ++ className ++ ";"
  | .descriptor text => method.descriptor = text

/-- What a test says of a field. -/
def FieldTest.Holds (graph : ClassGraph) (field : Field) : FieldTest → Prop
  | .named name => field.name = name
  | .ofType type => type.Holds (ClassTest.Holds graph field.type)

variable {graph : ClassGraph} {id : ClassId}

theorem ClassTest.passes_eq_true_iff (hnodup : graph.names.Nodup) (test : ClassTest) :
    test.passes graph id = true ↔ test.Holds graph id := by
  cases test with
  | named name => rw [passes, Holds, decide_eq_true_iff]
  | hasSuperclass name => rw [passes, Holds, ClassGraph.hasSuperclass_eq_true_iff hnodup]
  | innerClassOf outer =>
    rw [passes, Holds, List.isPrefixOf_iff_prefix]
    constructor
    · rintro ⟨inner, hinner⟩
      refine ⟨String.ofList inner, String.toList_inj.mp ?_⟩
      rw [← hinner, String.toList_append, String.toList_append, String.toList_ofList (l := inner)]
      rfl
    · rintro ⟨inner, hinner⟩
      rw [hinner, String.toList_append, String.toList_append]
      exact List.prefix_append _ _

theorem ClassPredicate.selects_eq_true_iff (hnodup : graph.names.Nodup)
    (predicate : ClassPredicate) :
    predicate.selects graph id = true ↔ predicate.Holds (ClassTest.Holds graph id) :=
  Condition.holds_eq_true_iff (ClassTest.passes_eq_true_iff hnodup) predicate

theorem MethodTest.passes_eq_true_iff {method : Member} (test : MethodTest) :
    test.passes method = true ↔ test.Holds method := by
  cases test with
  | named name => rw [passes, Holds, decide_eq_true_iff]
  | returns className =>
    rw [passes, Holds, List.isSuffixOf_iff_suffix]
    constructor
    · rintro ⟨front, hfront⟩
      refine ⟨String.ofList front, String.toList_inj.mp ?_⟩
      rw [← hfront]
      simp [String.toList_append]
    · rintro ⟨front, hfront⟩
      refine ⟨front.toList, ?_⟩
      rw [hfront]
      simp [String.toList_append]
  | descriptor text => rw [passes, Holds, decide_eq_true_iff]

theorem MethodPredicate.selects_eq_true_iff {method : Member} (predicate : MethodPredicate) :
    predicate.selects method = true ↔ predicate.Holds (MethodTest.Holds method) :=
  Condition.holds_eq_true_iff MethodTest.passes_eq_true_iff predicate

theorem FieldTest.passes_eq_true_iff {field : Field} (hnodup : graph.names.Nodup)
    (test : FieldTest) : test.passes graph field = true ↔ test.Holds graph field := by
  cases test with
  | named name => rw [passes, Holds, decide_eq_true_iff]
  | ofType type => exact ClassPredicate.selects_eq_true_iff hnodup type

theorem FieldPredicate.selects_eq_true_iff {field : Field} (hnodup : graph.names.Nodup)
    (predicate : FieldPredicate) :
    predicate.selects graph field = true ↔ predicate.Holds (FieldTest.Holds graph field) :=
  Condition.holds_eq_true_iff (FieldTest.passes_eq_true_iff hnodup) predicate

/-! ## Names -/

/-- Whether somewhere in a name a digit follows a dollar sign. -/
def HasNumberedPart (name : String) : Prop :=
  ∃ front digit back, name.toList = front ++ '$' :: digit :: back ∧ digit.isDigit = true

theorem isAnonymous_eq_true_iff_exists (text : List Char) :
    isAnonymous text = true ↔
      ∃ front digit back, text = front ++ '$' :: digit :: back ∧ digit.isDigit = true := by
  induction text with
  | nil => simp [isAnonymous]
  | cons c text ih =>
    rw [isAnonymous, Bool.or_eq_true, ih]
    constructor
    · rintro (hhere | ⟨front, digit, back, rfl, hdigit⟩)
      · rw [Bool.and_eq_true, decide_eq_true_iff] at hhere
        obtain ⟨rfl, hhead⟩ := hhere
        cases text with
        | nil => cases hhead
        | cons digit back => exact ⟨[], digit, back, rfl, hhead⟩
      · exact ⟨c :: front, digit, back, rfl, hdigit⟩
    · rintro ⟨front, digit, back, htext, hdigit⟩
      cases front with
      | nil =>
        obtain ⟨rfl, rfl⟩ := List.cons.inj htext
        exact Or.inl (by simpa using hdigit)
      | cons d front =>
        obtain ⟨rfl, rfl⟩ := List.cons.inj htext
        exact Or.inr ⟨front, digit, back, rfl, hdigit⟩

theorem isAnonymous_eq_true_iff (name : String) :
    isAnonymous name.toList = true ↔ HasNumberedPart name :=
  isAnonymous_eq_true_iff_exists name.toList

/-! ## Groups -/

namespace Group

open Classical in
/-- The lines that a group calls for within a class that it selects. -/
noncomputable def targetMeaning (group : Group) (graph : ClassGraph) (id : ClassId)
    (node : ClassNode) : Multiset String :=
  match group.target with
  | .fields predicate =>
    ((node.fields : Multiset Field).filter fun field =>
      predicate.Holds (FieldTest.Holds graph field) ∧ ¬group.modifier.Satisfies field.access).map
        fun field => group.modifier.name ++ " " ++ dotted node.name ++ " " ++ field.name
  | .methods predicate =>
    ((node.methods : Multiset Member).filter fun method =>
      predicate.Holds (MethodTest.Holds method) ∧ ¬group.modifier.Satisfies method.access).map
        fun method => group.modifier.name ++ " " ++ dotted node.name ++ " " ++ method.name
          ++ method.descriptor
  | .classes =>
    if group.modifier.Satisfies node.access then 0
    else (group.modifier.name ++ " " ++ dotted node.name) ::ₘ
      if graph.IsUnder id "java/lang/Record" then
        ((node.methods : Multiset Member).filter fun method => method.name = "<init>").map
          fun method => group.modifier.name ++ " " ++ dotted node.name ++ " " ++ method.name
            ++ method.descriptor
      else 0

open Classical in
/-- The lines that a group calls for: those of all classes that it selects, except anonymous and
local classes and what is nested in them. -/
noncomputable def meaning (group : Group) (graph : ClassGraph) : Multiset String :=
  ∑ id : Fin graph.nodes.size,
    if group.classes.Holds (ClassTest.Holds graph id) ∧
        ¬HasNumberedPart (graph.nodes[id].name) then
      group.targetMeaning graph id graph.nodes[id]
    else 0

theorem classLine_eq (group : Group) (node : ClassNode) :
    group.classLine node = group.modifier.name ++ " " ++ dotted node.name :=
  rfl

theorem methodLine_eq (group : Group) (node : ClassNode) (method : Member) :
    group.methodLine node method
      = group.modifier.name ++ " " ++ dotted node.name ++ " " ++ method.name
        ++ method.descriptor :=
  rfl

theorem fieldLine_eq (group : Group) (node : ClassNode) (field : Field) :
    group.fieldLine node field
      = group.modifier.name ++ " " ++ dotted node.name ++ " " ++ field.name :=
  rfl

/-- A list that a test selects from another one is the part of which a property holds. -/
theorem coe_map_filter {α β : Type} {p : α → Bool} {P : α → Prop} [DecidablePred P]
    (h : ∀ a, p a = true ↔ P a) (f : α → β) (as : List α) :
    ((as.filter p).map f : Multiset β) = ((as : Multiset α).filter P).map f := by
  rw [Multiset.filter_coe, Multiset.map_coe]
  have hfilter : as.filter p = as.filter fun a => decide (P a) :=
    List.filter_congr fun a _ => by rw [Bool.eq_iff_iff, h, decide_eq_true_iff]
  rw [hfilter]

open Classical in
/-- The evaluation of a group lists what it calls for within a class. -/
theorem coe_targetLines (hnodup : graph.names.Nodup) (group : Group) (node : ClassNode) :
    (group.targetLines graph id node : Multiset String) = group.targetMeaning graph id node := by
  unfold targetLines targetMeaning
  cases group.target with
  | fields predicate =>
    refine coe_map_filter (fun field => ?_) (group.fieldLine node) node.fields
    rw [Bool.and_eq_true, FieldPredicate.selects_eq_true_iff hnodup, Bool.not_eq_true',
      decide_eq_false_iff_not]
  | methods predicate =>
    refine coe_map_filter (fun method => ?_) (group.methodLine node) node.methods
    rw [Bool.and_eq_true, MethodPredicate.selects_eq_true_iff, Bool.not_eq_true',
      decide_eq_false_iff_not]
  | classes =>
    show ((if group.modifier.Satisfies node.access then [] else _ : List String) : Multiset String)
      = _
    by_cases hsatisfies : group.modifier.Satisfies node.access
    · rw [if_pos hsatisfies, if_pos hsatisfies]
      rfl
    · rw [if_neg hsatisfies, if_neg hsatisfies, ← Multiset.cons_coe, classLine_eq]
      congr 1
      unfold constructorLines
      simp only [recordClass, ClassGraph.hasSuperclass_eq_true_iff hnodup]
      by_cases hrecord : graph.IsUnder id "java/lang/Record"
      · rw [if_pos hrecord, if_pos hrecord]
        exact coe_map_filter (fun method => decide_eq_true_iff) (group.methodLine node)
          node.methods
      · rw [if_neg hrecord, if_neg hrecord]
        rfl

/-- A group looks into the classes of which its predicate holds, if their names are no numbered
ones. -/
theorem selects_and_not_isAnonymous_iff {group : Group} {name : String}
    (hnodup : graph.names.Nodup) :
    (group.classes.selects graph id && !isAnonymous name.toList) = true ↔
      group.classes.Holds (ClassTest.Holds graph id) ∧ ¬HasNumberedPart name := by
  rw [Bool.and_eq_true, ClassPredicate.selects_eq_true_iff hnodup, Bool.not_eq_true',
    ← Bool.not_eq_true, isAnonymous_eq_true_iff]

open Classical in
/-- The evaluation of a group lists what it calls for in a class. -/
theorem coe_linesOf (hnodup : graph.names.Nodup) (group : Group) (node : ClassNode) :
    (group.linesOf graph id node : Multiset String)
      = if group.classes.Holds (ClassTest.Holds graph id) ∧ ¬HasNumberedPart node.name then
          group.targetMeaning graph id node
        else 0 := by
  unfold linesOf
  simp only [selects_and_not_isAnonymous_iff hnodup]
  split
  · exact coe_targetLines hnodup group node
  · rfl

/-- The parts of a list in a row are a sum of multisets. -/
theorem coe_flatMap {α β : Type} (as : List α) (f : α → List β) :
    (as.flatMap f : Multiset β) = (as.map fun a => (f a : Multiset β)).sum := by
  rw [← Multiset.coe_bind, Multiset.bind, Multiset.join, Multiset.map_coe, Multiset.sum_coe]

/-- **The evaluation of a group lists its meaning.** -/
theorem coe_lines (hnodup : graph.names.Nodup) (group : Group) :
    (group.lines graph : Multiset String) = group.meaning graph := by
  have hnodes : graph.nodes.toList.zipIdx
      = List.ofFn fun id : Fin graph.nodes.size => (graph.nodes[id], (id : Nat)) := by
    apply List.ext_getElem
    · simp
    · intro i h₁ h₂
      simp
  rw [lines, coe_flatMap, hnodes, List.map_ofFn, List.sum_ofFn, meaning]
  refine Finset.sum_congr rfl fun id _ => ?_
  exact coe_linesOf hnodup group graph.nodes[id]

end Group

/-! ## The whole evaluation -/

theorem Group.lines_eq_nil_iff (hnodup : graph.names.Nodup) (group : Group) :
    group.lines graph = [] ↔ group.meaning graph = 0 := by
  rw [← Group.coe_lines hnodup, Multiset.coe_eq_zero]

/-- **The evaluation of groups lists their meanings in order.**  It succeeds exactly when every
group calls for something, and otherwise it names the first group that calls for nothing.  Names
are what classes are looked up by; operations on a graph keep them distinct (`Mentions.nodup_names`,
`names_modify`). -/
theorem sections_list_meanings (graph : ClassGraph) (hnodup : graph.names.Nodup)
    (groups : List Group) :
    ((∃ sections', sections graph groups = .ok sections') ↔
      ∀ group ∈ groups, group.meaning graph ≠ 0) ∧
    (∀ sections', sections graph groups = .ok sections' →
      List.Forall₂ (fun group s => s.name = group.name ∧
        (s.lines : Multiset String) = group.meaning graph) groups sections') ∧
    (∀ fault, sections graph groups = .error fault ↔
      ∃ before group after, groups = before ++ group :: after ∧
        (∀ earlier ∈ before, earlier.meaning graph ≠ 0) ∧ group.meaning graph = 0 ∧
        fault = .emptyGroup group.name) := by
  simp only [ne_eq, ← Group.lines_eq_nil_iff hnodup]
  refine ⟨?_, fun sections' h => ?_, fun fault => ?_⟩
  · constructor
    · rintro ⟨sections', h⟩
      exact (sections_eq_ok_iff.mp h).1
    · exact fun h => ⟨_, sections_eq_ok_iff.mpr ⟨h, rfl⟩⟩
  · obtain ⟨-, rfl⟩ := sections_eq_ok_iff.mp h
    rw [List.forall₂_map_right_iff, List.forall₂_same]
    exact fun group _ => ⟨rfl, Group.coe_lines hnodup group⟩
  · exact sections_eq_error_iff

/-- Two classes that are each above the other, one of them a record. -/
def loopedRecord : ClassGraph :=
  .ofNodes #[
    { name := "java/lang/Record" },
    { name := "a/R", access := Access.finalFlag, parents := [2],
      methods := [⟨Access.publicFlag, "<init>", "(I)V"⟩, ⟨0, "value", "()I"⟩] },
    { name := "a/S", access := Access.publicFlag, parents := [1, 0] },
    { name := "a/R$1", parents := [1] }] []

/-- The group by which everything below `a/S` is to be public. -/
def belowS : Group :=
  ⟨"below", ⟨"public", false, Access.publicFlag⟩, .test (.hasSuperclass "a/S"), .classes⟩

theorem sections_list_meanings_loopedRecord :
    loopedRecord.names.Nodup ∧
      belowS.meaning loopedRecord = ↑["public a.R", "public a.R <init>(I)V"] := by
  have hnodup : loopedRecord.names.Nodup := by decide
  have hsections : sections loopedRecord [belowS]
      = .ok [⟨"below", ["public a.R", "public a.R <init>(I)V"]⟩] := by cbv
  obtain ⟨-, hlisted, -⟩ := sections_list_meanings loopedRecord hnodup [belowS]
  obtain ⟨⟨-, hlines⟩, -⟩ := List.forall₂_cons.mp (hlisted _ hsections)
  exact ⟨hnodup, hlines.symm⟩

end AccessTransformer.Rules
