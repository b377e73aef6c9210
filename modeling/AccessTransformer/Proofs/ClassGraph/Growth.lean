import AccessTransformer.Proofs.ClassGraph.Reachability

/-!
# Growing graphs

Visits add to a graph and take nothing away.  A class that was visited stays as it is; one that was
only mentioned may be declared later on, in the middle of what is known of others, and then it has
more parents than before.  So there is always more that can be reached from a class, never less.

* `Grows`: what one graph has of another one.
* `grows_visit`: a visit does not make a graph smaller, whether it succeeds or fails.
* `Visits.grows`: neither does a run.
* `Grows.hasSuperclass`: superclasses are kept.
-/

namespace AccessTransformer.ClassGraph

open Relation (ReflTransGen)

variable {graph graph' middle : ClassGraph} {mentioned : List String}
  {declarations : List ClassDeclaration} {id target : ClassId} {node : ClassNode} {name : String}

/-- The second graph has all nodes of the first one under their numbers, with all their parents, and
those of visited classes unchanged. -/
structure Grows (graph graph' : ClassGraph) : Prop where
  visited_subset : graph.visited ⊆ graph'.visited
  exists_node : ∀ (id : ClassId) node, graph.nodes[id]? = some node →
    ∃ node', graph'.nodes[id]? = some node' ∧ node'.name = node.name ∧
      node.parents ⊆ node'.parents ∧ (id ∈ graph.visited → node' = node)

namespace Grows

theorem refl (graph : ClassGraph) : Grows graph graph where
  visited_subset := List.Subset.refl _
  exists_node := fun _ node hnode => ⟨node, hnode, rfl, List.Subset.refl _, fun _ => rfl⟩

theorem trans (h : Grows graph middle) (h' : Grows middle graph') : Grows graph graph' where
  visited_subset := List.Subset.trans h.visited_subset h'.visited_subset
  exists_node := by
    intro id node hnode
    obtain ⟨between, hbetween, hname, hparents, hsame⟩ := h.exists_node id node hnode
    obtain ⟨node', hnode', hname', hparents', hsame'⟩ := h'.exists_node id between hbetween
    refine ⟨node', hnode', hname'.trans hname, List.Subset.trans hparents hparents',
      fun hvisited => ?_⟩
    exact (hsame' (h.visited_subset hvisited)).trans (hsame hvisited)

end Grows

theorem Mentions.grows (h : Mentions graph mentioned graph') : Grows graph graph' where
  visited_subset := h.visited_eq ▸ List.Subset.refl _
  exists_node := fun _ node hnode =>
    ⟨node, h.getElem?_nodes hnode, rfl, List.Subset.refl _, fun _ => rfl⟩

/-- A declaration adds to the node of a class that was not visited. -/
theorem grows_declareAt {declaration : ClassDeclaration} {parents : List ClassId}
    {fields : List Field} (hid : id ∉ graph.visited) :
    Grows graph (graph.declareAt id declaration parents fields) where
  visited_subset := List.subset_cons_self id graph.visited
  exists_node := by
    intro other node hnode
    rw [declareAt, getElem?_nodes_modify]
    by_cases heq : id = other
    · subst heq
      exact ⟨declare declaration parents fields node, by rw [if_pos rfl, hnode, Option.map_some],
        rfl, List.subset_append_left _ _, fun hvisited => absurd hvisited hid⟩
    · exact ⟨node, by rw [if_neg heq, hnode], rfl, List.Subset.refl _, fun _ => rfl⟩

/-- **A visit does not make a graph smaller**, whether it succeeds or fails. -/
theorem grows_visit (graph : ClassGraph) (declaration : ClassDeclaration) :
    Grows graph (graph.visit declaration).1 := by
  rcases visit_cases graph declaration with ⟨-, hvisit⟩ |
    ⟨hvisited, full, hfull, ⟨-, failure, hvisit⟩ |
      ⟨-, id, parents, fields, -, hid, -, -, hvisit⟩⟩
  · rw [hvisit]
    exact (mentions_ensure graph declaration.name).grows
  · rw [hvisit]
    exact hfull.grows
  · rw [hvisit]
    refine hfull.grows.trans (grows_declareAt ?_)
    rw [hfull.visited_eq, hid]
    exact hvisited

/-- **A run of visits does not make a graph smaller.** -/
theorem Visits.grows (h : Visits graph declarations graph') : Grows graph graph' := by
  induction h with
  | nil graph => exact Grows.refl graph
  | @cons graph next after declaration id declarations hvisit hrest ih =>
    have hnext : (graph.visit declaration).1 = next := congrArg Prod.fst hvisit
    exact (hnext ▸ grows_visit graph declaration).trans ih

namespace Grows

/-- The nodes of visited classes are the same. -/
theorem getElem?_nodes (h : Grows graph graph') (hid : id ∈ graph.visited)
    (hnode : graph.nodes[id]? = some node) : graph'.nodes[id]? = some node := by
  obtain ⟨node', hnode', -, -, hsame⟩ := h.exists_node id node hnode
  rw [hnode', hsame hid]

theorem getElem?_names (h : Grows graph graph') (hid : graph.names[id]? = some name) :
    graph'.names[id]? = some name := by
  rw [ClassGraph.getElem?_names, Option.map_eq_some_iff] at hid ⊢
  obtain ⟨node, hnode, rfl⟩ := hid
  obtain ⟨node', hnode', hname, -⟩ := h.exists_node id node hnode
  exact ⟨node', hnode', hname⟩

theorem nameOf_eq (h : Grows graph graph') (hid : id < graph.size) :
    graph'.nameOf id = graph.nameOf id :=
  nameOf_eq_of_getElem?_names (h.getElem?_names (getElem?_names_eq_nameOf hid))

theorem size_le (h : Grows graph graph') : graph.size ≤ graph'.size := by
  by_contra hlt
  have hname := h.getElem?_names (getElem?_names_eq_nameOf (Nat.lt_of_not_le hlt))
  exact Nat.lt_irrefl _ (lt_size_of_getElem?_names hname)

/-- **What can be reached stays within reach.** -/
theorem reaches (h : Grows graph graph') (hreach : graph.Reaches id target) :
    graph'.Reaches id target := by
  refine ReflTransGen.mono (fun child parent hparent => ?_) _ _ hreach
  obtain ⟨node, hnode, hmem⟩ := isParent_iff.mp hparent
  obtain ⟨node', hnode', -, hparents, -⟩ := h.exists_node child node hnode
  exact isParent_iff.mpr ⟨node', hnode', hparents hmem⟩

/-- **A class keeps its superclasses.** -/
theorem hasSuperclass (h : Grows graph graph') (hnodup : graph.names.Nodup)
    (hnodup' : graph'.names.Nodup) (hsuper : graph.hasSuperclass id name = true) :
    graph'.hasSuperclass id name = true := by
  obtain ⟨target, htarget, hreach⟩ := (hasSuperclass_eq_true_iff hnodup).mp hsuper
  exact (hasSuperclass_eq_true_iff hnodup').mpr ⟨target, h.getElem?_names htarget, h.reaches hreach⟩

end Grows

end AccessTransformer.ClassGraph
