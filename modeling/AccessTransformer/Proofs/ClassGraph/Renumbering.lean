import AccessTransformer.Proofs.ClassGraph.Reachability
import AccessTransformer.Proofs.ClassGraph.Visits

/-!
# Renumbering

The order of visits decides which number a class gets, and nothing else.  Graphs that differ only
in that have the same outlines; this module says that what can be reached depends on the outlines
alone, and that runs over the same declarations in another order end in the same outlines.

* `SameOutlines`: two graphs have the same outlines.
* `isUnder_iff_namedAbove`: reachability in terms of names.
* `Visits.sameOutlines`: runs over permuted declarations.
-/

namespace AccessTransformer

open Relation (ReflTransGen)

/-- Whether the second name can be reached from the first over any number of parents in
outlines. -/
def NamedAbove (outlines : List Outline) : String → String → Prop :=
  ReflTransGen fun child parent => ∃ o ∈ outlines, o.name = child ∧ parent ∈ o.parents

theorem NamedAbove.mono {outlines outlines' : List Outline} {start name : String}
    (h : ∀ o ∈ outlines, o ∈ outlines') (habove : NamedAbove outlines start name) :
    NamedAbove outlines' start name :=
  ReflTransGen.mono (fun _ _ ⟨o, hmem, ho⟩ => ⟨o, h o hmem, ho⟩) start name habove

/-- Permuted declarations give the same outlines. -/
theorem outlineAmong_perm {declared declared' : List ClassDeclaration}
    (hperm : declared.Perm declared') (hnodup : (declared.map (·.name)).Nodup) (name : String) :
    outlineAmong declared name = outlineAmong declared' name := by
  have hnames : (declared.map (·.name)).Perm (declared'.map (·.name)) := hperm.map _
  by_cases hmem : name ∈ declared.map (·.name)
  · obtain ⟨declaration, hdeclared, rfl⟩ := List.mem_map.mp hmem
    rw [outlineAmong_of_mem hnodup hdeclared,
      outlineAmong_of_mem (hnames.nodup_iff.mp hnodup) (hperm.mem_iff.mp hdeclared)]
  · rw [outlineAmong_of_notMem hmem,
      outlineAmong_of_notMem fun hmem' => hmem (hnames.mem_iff.mpr hmem')]

namespace ClassGraph

variable {graph graph' : ClassGraph} {id id' : ClassId} {node node' : ClassNode}
  {start name : String}

theorem mem_outlines_iff {o : Outline} :
    o ∈ graph.outlines ↔
      ∃ (id : ClassId) (node : ClassNode), graph.nodes[id]? = some node ∧
        graph.outline node = o := by
  rw [outlines, List.mem_map]
  constructor
  · rintro ⟨node, hmem, ho⟩
    obtain ⟨id, hid⟩ := List.mem_iff_getElem?.mp hmem
    exact ⟨id, node, by rwa [Array.getElem?_toList] at hid, ho⟩
  · rintro ⟨id, node, hnode, ho⟩
    exact ⟨node, List.mem_of_getElem? (by rwa [Array.getElem?_toList]), ho⟩

theorem exists_getElem?_nodes (h : graph.names[id]? = some name) :
    ∃ node, graph.nodes[id]? = some node ∧ node.name = name := by
  rwa [getElem?_names, Option.map_eq_some_iff] at h

/-! ## Reachability by names -/

/-- **What is above a node can be told from the outlines.** -/
theorem isUnder_iff_namedAbove (h : graph.WellNumbered) (hid : graph.names[id]? = some start) :
    graph.IsUnder id name ↔ NamedAbove graph.outlines start name := by
  constructor
  · rintro ⟨target, htarget, hreach⟩
    -- every node on the way has a name, and that name is above the first one
    have hstep : ∀ target, graph.Reaches id target →
        ∃ name, graph.names[target]? = some name ∧ NamedAbove graph.outlines start name := by
      intro target hreach
      induction hreach with
      | refl => exact ⟨start, hid, ReflTransGen.refl⟩
      | tail _ hparent ih =>
        obtain ⟨name, hname, habove⟩ := ih
        obtain ⟨node, hnode, hmem⟩ := isParent_iff.mp hparent
        rw [getElem?_names_of_getElem?_nodes hnode, Option.some.injEq] at hname
        refine ⟨_, getElem?_names_eq_nameOf ((h.numbers _ node hnode).1 _ hmem),
          habove.tail ⟨graph.outline node, mem_outlines_iff.mpr ⟨_, node, hnode, rfl⟩, hname, ?_⟩⟩
        exact List.mem_map.mpr ⟨_, hmem, rfl⟩
    obtain ⟨name', hname', habove⟩ := hstep target hreach
    rwa [Option.some.inj (htarget.symm.trans hname')]
  · intro habove
    induction habove with
    | refl => exact ⟨id, hid, ReflTransGen.refl⟩
    | tail _ hparent ih =>
      obtain ⟨target, htarget, hreach⟩ := ih
      obtain ⟨o, ho, hname, hmem⟩ := hparent
      obtain ⟨other, node, hnode, rfl⟩ := mem_outlines_iff.mp ho
      obtain ⟨parent, hparent, rfl⟩ := List.mem_map.mp hmem
      have hother : graph.names[other]? = some _ := getElem?_names_of_getElem?_nodes hnode
      rw [show node.name = _ from hname] at hother
      obtain rfl := eq_of_getElem?_names h.nodup_names hother htarget
      exact ⟨parent, getElem?_names_eq_nameOf ((h.numbers _ node hnode).1 _ hparent),
        hreach.tail (isParent_iff.mpr ⟨node, hnode, hparent⟩)⟩

/-! ## Graphs with the same outlines -/

/-- Both graphs know the same of the same classes, under whatever numbers. -/
structure SameOutlines (graph graph' : ClassGraph) : Prop where
  left : graph.WellNumbered
  right : graph'.WellNumbered
  mem_iff : ∀ o, o ∈ graph.outlines ↔ o ∈ graph'.outlines

namespace SameOutlines

theorem symm (h : SameOutlines graph graph') : SameOutlines graph' graph :=
  ⟨h.right, h.left, fun o => (h.mem_iff o).symm⟩

/-- A class has a node in both graphs, with the same outline. -/
theorem exists_node (h : SameOutlines graph graph') (hnode : graph.nodes[id]? = some node) :
    ∃ (id' : ClassId) (node' : ClassNode), graph'.nodes[id']? = some node' ∧
      graph'.outline node' = graph.outline node :=
  mem_outlines_iff.mp ((h.mem_iff _).mp (mem_outlines_iff.mpr ⟨id, node, hnode, rfl⟩))

theorem mem_names_iff (h : SameOutlines graph graph') (name : String) :
    name ∈ graph.names ↔ name ∈ graph'.names := by
  have himp : ∀ {graph graph' : ClassGraph}, SameOutlines graph graph' →
      name ∈ graph.names → name ∈ graph'.names := by
    intro graph graph' h hmem
    obtain ⟨id, hid⟩ := mem_names_iff_exists.mp hmem
    obtain ⟨node, hnode, rfl⟩ := exists_getElem?_nodes hid
    obtain ⟨id', node', hnode', houtline⟩ := h.exists_node hnode
    have hname : node'.name = node.name := congrArg Outline.name houtline
    rw [← hname]
    exact List.mem_of_getElem? (getElem?_names_of_getElem?_nodes hnode')
  exact ⟨himp h, himp h.symm⟩

theorem perm_names (h : SameOutlines graph graph') : graph.names.Perm graph'.names :=
  (List.perm_ext_iff_of_nodup h.left.nodup_names h.right.nodup_names).mpr h.mem_names_iff

theorem size_eq (h : SameOutlines graph graph') : graph.size = graph'.size := by
  rw [← length_names, ← length_names, h.perm_names.length_eq]

/-- The same superclasses are above a class in both graphs. -/
theorem hasSuperclass_eq (h : SameOutlines graph graph') (hid : graph.names[id]? = some start)
    (hid' : graph'.names[id']? = some start) (name : String) :
    graph.hasSuperclass id name = graph'.hasSuperclass id' name := by
  rw [Bool.eq_iff_iff, hasSuperclass_eq_true_iff h.left.nodup_names,
    hasSuperclass_eq_true_iff h.right.nodup_names, isUnder_iff_namedAbove h.left hid,
    isUnder_iff_namedAbove h.right hid']
  exact ⟨NamedAbove.mono fun o => (h.mem_iff o).mp, NamedAbove.mono fun o => (h.mem_iff o).mpr⟩

end SameOutlines

/-! ## Runs over permuted declarations -/

theorem Represents.mem_outlines_iff {mentioned : List String} {declared : List ClassDeclaration}
    (h : Represents graph mentioned declared) {o : Outline} :
    o ∈ graph.outlines ↔ ∃ name ∈ mentioned, outlineAmong declared name = o := by
  rw [ClassGraph.mem_outlines_iff]
  constructor
  · rintro ⟨id, node, hnode, rfl⟩
    refine ⟨node.name, (h.mem_names_iff _).mp ?_, (h.outline_eq id node hnode).symm⟩
    exact List.mem_of_getElem? (getElem?_names_of_getElem?_nodes hnode)
  · rintro ⟨name, hname, rfl⟩
    obtain ⟨id, hid⟩ := mem_names_iff_exists.mp ((h.mem_names_iff _).mpr hname)
    obtain ⟨node, hnode, rfl⟩ := exists_getElem?_nodes hid
    exact ⟨id, node, hnode, h.outline_eq id node hnode⟩

/-- **Runs over permuted declarations end in the same outlines.** -/
theorem Visits.sameOutlines {declarations declarations' : List ClassDeclaration}
    (hvisits : Visits empty declarations graph) (hvisits' : Visits empty declarations' graph')
    (hperm : declarations.Perm declarations') : SameOutlines graph graph' := by
  have h := hvisits.represents represents_empty
  have h' := hvisits'.represents represents_empty
  refine ⟨h.toWellNumbered, h'.toWellNumbered, fun o => ?_⟩
  rw [h.mem_outlines_iff, h'.mem_outlines_iff]
  refine exists_congr fun name => and_congr ?_ ?_
  · simp only [List.nil_append, List.mem_flatMap, hperm.mem_iff]
  · rw [outlineAmong_perm (hperm.append_left []) h.nodup_declared]

end ClassGraph

end AccessTransformer
