import AccessTransformer.ClassGraph.Ancestors
import AccessTransformer.Proofs.ClassGraph.Handles
import Mathlib.Logic.Relation

/-!
# Reachability

The search for the ancestors of a class finds what can be reached by going to a parent any number
of times, in any graph, with ways from a class back to itself or without.

The search is right because of what holds between its steps: a parent of a node that was seen was
seen as well, or is pending.  When nothing is pending any more, the seen nodes are closed under
parents.

The search ends, since it goes into a node only when it sees it for the first time.  Where all
numbers are those of nodes, it goes into no more nodes than there are.

* `mem_ancestors_iff`: the ancestors of a class are what can be reached from it.
* `hasSuperclass_eq_true_iff`: where names are distinct, a class has the superclasses that can be
  reached from it.
* `HandedOut.hasSuperclass_iff_isUnder`: in every graph that operations lead to.
-/

namespace AccessTransformer.ClassGraph

open Relation (ReflTransGen)

variable {graph : ClassGraph} {seen pending : List ClassId} {id target : ClassId} {name : String}

/-- Whether the second node is a parent of the first. -/
def IsParent (graph : ClassGraph) (child parent : ClassId) : Prop :=
  parent ∈ graph.parentsOf child

theorem isParent_iff {child parent : ClassId} :
    graph.IsParent child parent ↔
      ∃ node, graph.nodes[child]? = some node ∧ parent ∈ node.parents := by
  rw [IsParent, parentsOf]
  cases graph.nodes[child]? with
  | none => simp
  | some node => simp

/-- Whether the second node can be reached from the first over any number of parents. -/
def Reaches (graph : ClassGraph) : ClassId → ClassId → Prop := ReflTransGen graph.IsParent

/-- Whether a class of the given name can be reached from a node. -/
def IsUnder (graph : ClassGraph) (id : ClassId) (name : String) : Prop :=
  ∃ target, graph.names[target]? = some name ∧ graph.Reaches id target

/-! ## The search -/

/-- Whether every parent of a seen node was seen or is pending. -/
def IsExplored (graph : ClassGraph) (seen pending : List ClassId) : Prop :=
  ∀ child ∈ seen, ∀ parent, graph.IsParent child parent → parent ∈ seen ∨ parent ∈ pending

/-- What the search finds was seen before or can be reached from what was pending. -/
theorem mem_or_reaches_of_mem_search (h : target ∈ graph.search seen pending) :
    target ∈ seen ∨ ∃ start ∈ pending, graph.Reaches start target := by
  induction seen, pending using search.induct graph with
  | case1 seen =>
    rw [search] at h
    exact Or.inl h
  | case2 seen id pending hid ih =>
    rw [search, if_pos hid] at h
    rcases ih h with hseen | ⟨start, hstart, hreach⟩
    · exact Or.inl hseen
    · exact Or.inr ⟨start, List.mem_cons_of_mem _ hstart, hreach⟩
  | case3 seen id pending hid ih =>
    rw [search, if_neg hid] at h
    rcases ih h with hseen | ⟨start, hstart, hreach⟩
    · rcases List.mem_cons.mp hseen with rfl | hseen
      · exact Or.inr ⟨target, List.mem_cons_self, ReflTransGen.refl⟩
      · exact Or.inl hseen
    · rcases List.mem_append.mp hstart with hparent | hpending
      · exact Or.inr ⟨id, List.mem_cons_self, ReflTransGen.head hparent hreach⟩
      · exact Or.inr ⟨start, List.mem_cons_of_mem _ hpending, hreach⟩

/-- The search finds what was seen before and what was pending. -/
theorem mem_search_of_mem (h : target ∈ seen ∨ target ∈ pending) :
    target ∈ graph.search seen pending := by
  induction seen, pending using search.induct graph with
  | case1 seen =>
    rw [search]
    exact h.resolve_right List.not_mem_nil
  | case2 seen id pending hid ih =>
    rw [search, if_pos hid]
    rcases h with hseen | hpending
    · exact ih (Or.inl hseen)
    · rcases List.mem_cons.mp hpending with rfl | hpending
      · exact ih (Or.inl hid)
      · exact ih (Or.inr hpending)
  | case3 seen id pending hid ih =>
    rw [search, if_neg hid]
    rcases h with hseen | hpending
    · exact ih (Or.inl (List.mem_cons_of_mem _ hseen))
    · rcases List.mem_cons.mp hpending with rfl | hpending
      · exact ih (Or.inl List.mem_cons_self)
      · exact ih (Or.inr (List.mem_append_right _ hpending))

/-- What the search finds is closed under parents. -/
theorem mem_search_of_isParent {parent : ClassId} (hexplored : graph.IsExplored seen pending)
    (h : target ∈ graph.search seen pending) (hparent : graph.IsParent target parent) :
    parent ∈ graph.search seen pending := by
  induction seen, pending using search.induct graph with
  | case1 seen =>
    rw [search] at h ⊢
    exact (hexplored target h parent hparent).resolve_right List.not_mem_nil
  | case2 seen id pending hid ih =>
    rw [search, if_pos hid] at h ⊢
    refine ih (fun child hchild above habove => ?_) h
    rcases hexplored child hchild above habove with hseen | hpending
    · exact Or.inl hseen
    · rcases List.mem_cons.mp hpending with rfl | hpending
      · exact Or.inl hid
      · exact Or.inr hpending
  | case3 seen id pending hid ih =>
    rw [search, if_neg hid] at h ⊢
    refine ih (fun child hchild above habove => ?_) h
    rcases List.mem_cons.mp hchild with rfl | hchild
    · exact Or.inr (List.mem_append_left _ habove)
    · rcases hexplored child hchild above habove with hseen | hpending
      · exact Or.inl (List.mem_cons_of_mem _ hseen)
      · rcases List.mem_cons.mp hpending with rfl | hpending
        · exact Or.inl List.mem_cons_self
        · exact Or.inr (List.mem_append_right _ hpending)

/-- The search goes into every node once. -/
theorem nodup_search (h : seen.Nodup) : (graph.search seen pending).Nodup := by
  induction seen, pending using search.induct graph with
  | case1 seen =>
    rw [search]
    exact h
  | case2 seen id pending hid ih =>
    rw [search, if_pos hid]
    exact ih h
  | case3 seen id pending hid ih =>
    rw [search, if_neg hid]
    exact ih (List.nodup_cons.mpr ⟨hid, h⟩)

/-! ## Ancestors -/

/-- **The ancestors of a class are what can be reached from it.** -/
theorem mem_ancestors_iff : target ∈ graph.ancestors id ↔ graph.Reaches id target := by
  constructor
  · intro h
    rcases mem_or_reaches_of_mem_search h with hseen | ⟨start, hstart, hreach⟩
    · exact absurd hseen List.not_mem_nil
    · rwa [List.mem_singleton.mp hstart] at hreach
  · intro h
    induction h with
    | refl => exact mem_search_of_mem (Or.inr (List.mem_singleton_self id))
    | tail _ hparent ih =>
      have hexplored : graph.IsExplored [] [id] := fun _ hchild => absurd hchild List.not_mem_nil
      exact mem_search_of_isParent hexplored ih hparent

/-- **Where names are distinct, a class has the superclasses that can be reached from it.** -/
theorem hasSuperclass_eq_true_iff (hnodup : graph.names.Nodup) :
    graph.hasSuperclass id name = true ↔ graph.IsUnder id name := by
  unfold hasSuperclass
  cases hfind : graph.find? name with
  | none =>
    refine iff_of_false Bool.false_ne_true ?_
    rintro ⟨target, htarget, -⟩
    exact find?_eq_none_iff.mp hfind (List.mem_of_getElem? htarget)
  | some found =>
    rw [decide_eq_true_iff, mem_ancestors_iff]
    constructor
    · exact fun hreach => ⟨found, getElem?_names_of_find? hfind, hreach⟩
    · rintro ⟨target, htarget, hreach⟩
      rw [(find?_eq_some_iff hnodup).mpr htarget] at hfind
      rwa [← Option.some.inj hfind]

/-! ## Graphs that operations lead to -/

/-- From a node only nodes can be reached. -/
theorem WellNumbered.lt_size_of_reaches (h : graph.WellNumbered) (hid : id < graph.size)
    (hreach : graph.Reaches id target) : target < graph.size := by
  induction hreach with
  | refl => exact hid
  | tail _ hparent _ =>
    obtain ⟨node, hnode, hmem⟩ := isParent_iff.mp hparent
    exact (h.numbers _ node hnode).1 _ hmem

/-- **Whatever was done with a graph, a class has the superclasses that can be reached from it.**
It has none of a name that no node has, and it is one itself.  The search for them goes into nodes
of the graph only, and into each of them once. -/
theorem HandedOut.hasSuperclass_iff_isUnder {handles : List Handle} {node : ClassNode}
    (h : HandedOut graph handles) (hnode : graph.nodes[id]? = some node) (name : String) :
    (graph.hasSuperclass id name = true ↔ graph.IsUnder id name) ∧
    (name ∉ graph.names → graph.hasSuperclass id name = false) ∧
    graph.hasSuperclass id node.name = true ∧
    (graph.ancestors id).Nodup ∧ ∀ other ∈ graph.ancestors id, other < graph.size := by
  have hsound := h.sound
  have hname := getElem?_names_of_getElem?_nodes hnode
  have hiff : ∀ name, graph.hasSuperclass id name = true ↔ graph.IsUnder id name := fun name =>
    hasSuperclass_eq_true_iff hsound.nodup_names
  refine ⟨hiff name, fun hnone => ?_, ?_, nodup_search List.nodup_nil, fun other hother => ?_⟩
  · rw [← Bool.not_eq_true, hiff]
    rintro ⟨target, htarget, -⟩
    exact hnone (List.mem_of_getElem? htarget)
  · exact (hiff node.name).mpr ⟨id, hname, ReflTransGen.refl⟩
  · exact hsound.lt_size_of_reaches (lt_size_of_getElem?_names hname) (mem_ancestors_iff.mp hother)

/-- Two classes, each a parent of the other one, and one of them a parent of itself. -/
def looped : ClassGraph :=
  ((((empty.ensure "A").1.ensure "B").1.pushParent 0 1).pushParent 1 0).pushParent 0 0

theorem hasSuperclass_iff_isUnder_looped :
    HandedOut looped [⟨1, "B"⟩, ⟨0, "A"⟩] ∧ looped.nodes[0]? = some ⟨"A", 0, [1, 0], [], []⟩ ∧
      looped.hasSuperclass 0 "B" = true ∧ looped.hasSuperclass 0 "C" = false ∧
      looped.hasSuperclass 0 "A" = true ∧
      (looped.ancestors 0).Nodup ∧ ∀ other ∈ looped.ancestors 0, other < looped.size := by
  have hasked : HandedOut ((empty.ensure "A").1.ensure "B").1 [⟨1, "B"⟩, ⟨0, "A"⟩] :=
    .ensure (.ensure .empty "A") "B"
  have hup := hasked.addParent (.tail _ (.head _)) (.head _)
  have hdown := hup.addParent (.head _) (.tail _ (.head _))
  have h : HandedOut looped [⟨1, "B"⟩, ⟨0, "A"⟩] :=
    hdown.addParent (.tail _ (.head _)) (.tail _ (.head _))
  have hnode : looped.nodes[0]? = some ⟨"A", 0, [1, 0], [], []⟩ := rfl
  have hunder : looped.IsUnder 0 "B" :=
    ⟨1, rfl, ReflTransGen.single (isParent_iff.mpr ⟨_, hnode, .head _⟩)⟩
  obtain ⟨hfound, -, hself, hnodup, hlt⟩ := h.hasSuperclass_iff_isUnder hnode "B"
  obtain ⟨-, hnone, -⟩ := h.hasSuperclass_iff_isUnder hnode "C"
  exact ⟨h, hnode, hfound.mpr hunder, hnone (by decide), hself, hnodup, hlt⟩

end AccessTransformer.ClassGraph
