import AccessTransformer.ClassGraph.Basic

/-!
# Ancestors

The classes that can be reached from a class by going to a parent any number of times, the class
itself among them.  Class files may be wrong, so there may be a way from a class back to itself;
the search keeps the nodes that it has seen and goes into each of them once.

Every step takes a node from the pending ones.  It either sees a node of the graph for the first
time, or it adds nothing to what is pending; that is why the search ends.
-/

namespace AccessTransformer.ClassGraph

/-- The number of nodes that are not among those seen. -/
def unseen (graph : ClassGraph) (seen : List ClassId) : Nat :=
  ((List.range graph.size).filter (· ∉ seen)).length

theorem parentsOf_of_size_le {graph : ClassGraph} {id : ClassId} (h : graph.size ≤ id) :
    graph.parentsOf id = [] := by
  simp only [parentsOf, Array.getElem?_eq_none (show graph.nodes.size ≤ id from h),
    Option.map_none, Option.getD_none]

theorem unseen_cons_eq (graph : ClassGraph) (id : ClassId) (seen : List ClassId) :
    graph.unseen (id :: seen)
      = (((List.range graph.size).filter (· ∉ seen)).filter (· ≠ id)).length := by
  simp only [unseen]
  rw [List.filter_filter]
  congr 2
  funext other
  simp

theorem unseen_cons_le (graph : ClassGraph) (id : ClassId) (seen : List ClassId) :
    graph.unseen (id :: seen) ≤ graph.unseen seen := by
  rw [unseen_cons_eq]
  exact List.length_filter_le _ _

theorem unseen_cons_lt {graph : ClassGraph} {id : ClassId} {seen : List ClassId}
    (h : id < graph.size) (hseen : id ∉ seen) : graph.unseen (id :: seen) < graph.unseen seen := by
  rw [unseen_cons_eq]
  apply List.length_filter_lt_length_iff_exists.2
  exact ⟨id, by simp [h, hseen], by simp⟩

/-- The nodes that were seen, and all that can be reached from the pending ones. -/
def search (graph : ClassGraph) (seen : List ClassId) : List ClassId → List ClassId
  | [] => seen
  | id :: pending =>
    if id ∈ seen then graph.search seen pending
    else graph.search (id :: seen) (graph.parentsOf id ++ pending)
termination_by pending => (graph.unseen seen, pending.length)
decreasing_by
  · exact Prod.Lex.right _ (by simp)
  · rename_i hseen
    by_cases h : id < graph.size
    · exact Prod.Lex.left _ _ (unseen_cons_lt h hseen)
    · rw [parentsOf_of_size_le (Nat.le_of_not_lt h), List.nil_append]
      have hle := graph.unseen_cons_le id seen
      rcases Nat.lt_or_eq_of_le hle with hlt | heq
      · exact Prod.Lex.left _ _ hlt
      · rw [heq]
        exact Prod.Lex.right _ (by simp)

/-- A class and everything above it. -/
def ancestors (graph : ClassGraph) (id : ClassId) : List ClassId :=
  graph.search [] [id]

/-- Whether a class has the given name itself, or has an ancestor of that name. -/
def hasSuperclass (graph : ClassGraph) (id : ClassId) (name : String) : Bool :=
  match graph.find? name with
  | some target => target ∈ graph.ancestors id
  | none => false

end AccessTransformer.ClassGraph
