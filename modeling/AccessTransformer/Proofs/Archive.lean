import AccessTransformer.Archive
import AccessTransformer.Proofs.ClassGraph.Renumbering
import AccessTransformer.Proofs.Text.Order
import Mathlib.Data.List.Perm.Basic

/-!
# The graph of an archive

The graph of an archive comes from a run of visits, one for the declaration in each of its class
files.  The names of the entries decide the order of the visits and nothing else.

* `Archive.classGraph_eq_ok_iff`: the graphs of archives are those of runs over their declarations.
* `Archive.exists_classGraph_eq_ok_iff`: when an archive has a graph.
* `Archive.sameOutlines_of_perm`: archives with the same class files have the same outlines.
* `Archive.exists_represents`: the graph knows just what the archive declares.
-/

namespace AccessTransformer.Archive

open ClassGraph

variable {archive archive' : Archive} {path path' : String} {entries entries' : List Entry}
  {graph graph' after : ClassGraph} {contents contents' : List Bytes}
  {declarations declarations' : List ClassDeclaration}

/-- The contents of the class files, as the archive holds them. -/
def classContents (archive : Archive) : List Bytes :=
  (archive.entries.filter Entry.isClass).map (·.content)

/-- Whether the contents are class files with the given declarations. -/
def Hold (contents : List Bytes) (declarations : List ClassDeclaration) : Prop :=
  List.Forall₂ (fun content declaration => ClassDeclaration.read content = .ok declaration)
    contents declarations

theorem Hold.exists_perm (h : Hold contents declarations) (hperm : contents'.Perm contents) :
    ∃ declarations', Hold contents' declarations' ∧ declarations'.Perm declarations :=
  List.perm_comp_forall₂ hperm h

/-- Contents are read in one way only. -/
theorem Hold.unique (h : Hold contents declarations) (h' : Hold contents declarations') :
    declarations = declarations' := by
  refine List.right_unique_forall₂' ?_ h h'
  intro content declaration declaration' hread hread'
  exact Except.ok.inj (hread.symm.trans hread')

/-- Whether contents are class files that can stand in one archive: no class is declared twice, and
all fields have types. -/
def Consistent (contents : List Bytes) : Prop :=
  ∃ declarations, Hold contents declarations ∧ (declarations.map (·.name)).Nodup ∧
    ∀ declaration ∈ declarations, AllTyped declaration.fields

theorem Consistent.perm (h : Consistent contents) (hperm : contents'.Perm contents) :
    Consistent contents' := by
  obtain ⟨declarations, hhold, hnodup, htypes⟩ := h
  obtain ⟨declarations', hhold', hperm'⟩ := hhold.exists_perm hperm
  refine ⟨declarations', hhold', (hperm'.map _).nodup_iff.mpr hnodup, fun declaration hmem => ?_⟩
  exact htypes declaration (hperm'.mem_iff.mp hmem)

/-- Going through the classes meets each of them once. -/
theorem perm_classContents (archive : Archive) :
    (archive.classes.map (·.content)).Perm archive.classContents :=
  (List.mergeSort_perm _ _).map _

theorem mem_classes_iff {entry : Entry} :
    entry ∈ archive.classes ↔ entry ∈ archive.entries ∧ entry.isClass = true := by
  rw [classes, List.mem_mergeSort, List.mem_filter]

/-- Going through the classes meets them in the order of their names. -/
theorem pairwise_classes (archive : Archive) :
    archive.classes.Pairwise (Text.le ·.name ·.name = true) :=
  Text.pairwise_mergeSort Entry.name _

/-! ## Runs over entries -/

/-- An entry is visited successfully exactly if its class file can be read and its declaration be
visited. -/
theorem visitEntry_eq_ok_iff {entry : Entry} :
    visitEntry path graph entry = (after, .ok ()) ↔
      ∃ declaration id, ClassDeclaration.read entry.content = .ok declaration ∧
        graph.visit declaration = (after, .ok id) := by
  unfold visitEntry
  cases ClassDeclaration.read entry.content with
  | error failure => simp [Outcome.during]
  | ok declaration =>
    rcases hvisit : graph.visit declaration with ⟨next, failure | id⟩
    · simp [Outcome.during, hvisit]
    · simp [hvisit]

/-- Entries are visited successfully exactly if their declarations are. -/
theorem steps_visitEntry_eq_ok_iff (path : String) :
    steps (visitEntry path) graph entries = (after, .ok ()) ↔
      ∃ declarations, Hold (entries.map (·.content)) declarations ∧
        Visits graph declarations after := by
  induction entries generalizing graph with
  | nil =>
    constructor
    · intro h
      obtain rfl : graph = after := congrArg Prod.fst h
      exact ⟨[], .nil, .nil graph⟩
    · rintro ⟨declarations, hhold, hvisits⟩
      cases hhold
      cases hvisits
      rfl
  | cons entry entries ih =>
    constructor
    · intro h
      rw [steps] at h
      rcases hstep : visitEntry path graph entry with ⟨next, failure | ⟨⟩⟩
      · rw [hstep] at h
        exact nomatch congrArg Prod.snd h
      · rw [hstep] at h
        obtain ⟨declaration, id, hread, hvisit⟩ := visitEntry_eq_ok_iff.mp hstep
        obtain ⟨declarations, hhold, hvisits⟩ := ih.mp h
        exact ⟨declaration :: declarations, .cons hread hhold, .cons hvisit hvisits⟩
    · rintro ⟨declarations, hhold, hvisits⟩
      cases hhold with
      | cons hread hhold =>
        cases hvisits with
        | cons hvisit hvisits =>
          rw [steps, visitEntry_eq_ok_iff.mpr ⟨_, _, hread, hvisit⟩]
          exact ih.mpr ⟨_, hhold, hvisits⟩

/-! ## Graphs of archives -/

/-- **An archive has the graphs of runs over its declarations.** -/
theorem classGraph_eq_ok_iff :
    archive.classGraph path = .ok graph ↔
      ∃ declarations, Hold (archive.classes.map (·.content)) declarations ∧
        Visits empty declarations graph := by
  rw [← steps_visitEntry_eq_ok_iff path, classGraph, walk]
  rcases steps (visitEntry path) empty archive.classes with ⟨after, failure | ⟨⟩⟩
  · simp
  · simp

/-- **An archive has a graph exactly if its class files can stand in one archive.** -/
theorem exists_classGraph_eq_ok_iff :
    (∃ graph, archive.classGraph path = .ok graph) ↔ Consistent archive.classContents := by
  have hclasses : Consistent archive.classContents ↔
      Consistent (archive.classes.map (·.content)) :=
    ⟨fun h => h.perm archive.perm_classContents, fun h => h.perm archive.perm_classContents.symm⟩
  rw [hclasses]
  constructor
  · rintro ⟨graph, hgraph⟩
    obtain ⟨declarations, hhold, hvisits⟩ := classGraph_eq_ok_iff.mp hgraph
    exact ⟨declarations, hhold, represents_empty.exists_visits_iff.mp ⟨graph, hvisits⟩⟩
  · rintro ⟨declarations, hhold, hvisitable⟩
    obtain ⟨graph, hvisits⟩ := represents_empty.exists_visits_iff.mpr hvisitable
    exact ⟨graph, classGraph_eq_ok_iff.mpr ⟨declarations, hhold, hvisits⟩⟩

/-- **Archives with the same class files have graphs with the same outlines.** -/
theorem sameOutlines_of_perm (hperm : archive.classContents.Perm archive'.classContents)
    (h : archive.classGraph path = .ok graph) (h' : archive'.classGraph path' = .ok graph') :
    SameOutlines graph graph' := by
  obtain ⟨declarations, hhold, hvisits⟩ := classGraph_eq_ok_iff.mp h
  obtain ⟨declarations', hhold', hvisits'⟩ := classGraph_eq_ok_iff.mp h'
  have hclasses : (archive.classes.map (·.content)).Perm (archive'.classes.map (·.content)) :=
    archive.perm_classContents.trans (hperm.trans archive'.perm_classContents.symm)
  obtain ⟨declarations'', hhold'', hperm''⟩ := hhold'.exists_perm hclasses
  rw [← hhold.unique hhold''] at hperm''
  exact hvisits.sameOutlines hvisits' hperm''

/-! ## Declared classes -/

/-- Whether a class file of the archive declares a class of the given name. -/
def Declares (archive : Archive) (name : String) : Prop :=
  ∃ content ∈ archive.classContents, ∃ declaration,
    ClassDeclaration.read content = .ok declaration ∧ declaration.name = name

/-- **The graph of an archive represents just the classes that the archive declares.** -/
theorem exists_represents (h : archive.classGraph path = .ok graph) :
    ∃ mentioned declared, Represents graph mentioned declared ∧
      ∀ name, archive.Declares name ↔ name ∈ declared.map (·.name) := by
  obtain ⟨declarations, hhold, hvisits⟩ := classGraph_eq_ok_iff.mp h
  refine ⟨_, _, hvisits.represents represents_empty, fun name => ?_⟩
  rw [List.nil_append, List.mem_map]
  constructor
  · rintro ⟨content, hcontent, declaration, hread, rfl⟩
    have hmem := archive.perm_classContents.mem_iff.mpr hcontent
    obtain ⟨declaration', hdeclaration', hread'⟩ := exists_of_forall₂_of_mem hhold.flip hmem
    rw [Except.ok.inj (hread.symm.trans hread')]
    exact ⟨declaration', hdeclaration', rfl⟩
  · rintro ⟨declaration, hdeclaration, rfl⟩
    obtain ⟨content, hcontent, hread⟩ := exists_of_forall₂_of_mem hhold hdeclaration
    exact ⟨content, archive.perm_classContents.mem_iff.mp hcontent, declaration, hread, rfl⟩

end AccessTransformer.Archive
