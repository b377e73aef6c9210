import AccessTransformer.Proofs.Archive
import AccessTransformer.Proofs.Rules.Renumbering
import AccessTransformer.Rules.Generation
import Mathlib

/-!
# Generation from the same classes

What is generated depends on the class files of an archive alone.  Neither the names of the entries
nor their order matter, although both decide in which order the classes get their numbers.

* `generate_eq_of_classGraph`: a generation is the listing for the graph.
* `generate_same_of_perm`: archives with the same class files.
-/

namespace AccessTransformer.Rules

variable {groups : List Group} {archive archive' : Archive} {path path' : String}
  {graph : ClassGraph}

/-- What becomes of a graph. -/
def outcome (groups : List Group) (graph : ClassGraph) : Outcome Generation :=
  (Outcome.lift .rules ((sections graph groups).map listing)).map (⟨·, graph.size⟩)

variable {generation : Generation} {failure : Failure}

theorem outcome_of_sections_eq_ok {listed : List Section}
    (h : sections graph groups = .ok listed) :
    outcome groups graph = .ok ⟨listing listed, graph.size⟩ := by
  rw [outcome, h]
  rfl

theorem outcome_of_sections_eq_error {fault : Fault} (h : sections graph groups = .error fault) :
    outcome groups graph = .error ⟨[], .rules fault⟩ := by
  rw [outcome, h]
  rfl

/-- Where there is a graph, a generation depends on it alone. -/
theorem generate_eq_of_classGraph (hgraph : archive.classGraph path = .ok graph) :
    generate groups archive path = outcome groups graph := by
  rw [generate, hgraph]
  show (Outcome.lift .rules (sections graph groups) >>= fun listed =>
    pure ⟨listing listed, graph.size⟩) = outcome groups graph
  cases hsections : sections graph groups with
  | ok listed =>
    rw [outcome_of_sections_eq_ok hsections]
    rfl
  | error fault =>
    rw [outcome_of_sections_eq_error hsections]
    rfl

/-- Where there is no graph, there is no generation. -/
theorem generate_eq_error_of_classGraph (hgraph : archive.classGraph path = .error failure) :
    generate groups archive path = .error failure := by
  rw [generate, hgraph]
  rfl

/-- Graphs with the same outlines become the same. -/
theorem outcome_eq {graph' : ClassGraph} (h : graph.SameOutlines graph') :
    outcome groups graph = outcome groups graph' := by
  rw [outcome, outcome, listing_sections_eq h, h.size_eq]

/-- A graph becomes a listing of the sections of all groups. -/
theorem eq_of_outcome_eq_ok (h : outcome groups graph = .ok generation) :
    generation = ⟨listing (groups.map (·.section graph)), graph.size⟩ := by
  cases hsections : sections graph groups with
  | ok listed =>
    rw [outcome_of_sections_eq_ok hsections, Except.ok.injEq] at h
    obtain ⟨-, rfl⟩ := sections_eq_ok_iff.mp hsections
    exact h.symm
  | error fault =>
    rw [outcome_of_sections_eq_error hsections] at h
    cases h

/-- A graph becomes no listing exactly if a group has no lines; the first such group is named. -/
theorem outcome_eq_error_iff :
    outcome groups graph = .error failure ↔
      ∃ before group after, groups = before ++ group :: after ∧
        (∀ earlier ∈ before, earlier.lines graph ≠ []) ∧ group.lines graph = [] ∧
        failure = ⟨[], .rules (.emptyGroup group.name)⟩ := by
  constructor
  · intro h
    cases hsections : sections graph groups with
    | ok listed =>
      rw [outcome_of_sections_eq_ok hsections] at h
      cases h
    | error fault =>
      rw [outcome_of_sections_eq_error hsections, Except.error.injEq] at h
      obtain ⟨before, group, after, hgroups, hbefore, hgroup, rfl⟩ :=
        sections_eq_error_iff.mp hsections
      exact ⟨before, group, after, hgroups, hbefore, hgroup, h.symm⟩
  · rintro ⟨before, group, after, hgroups, hbefore, hgroup, rfl⟩
    exact outcome_of_sections_eq_error
      (sections_eq_error_iff.mpr ⟨before, group, after, hgroups, hbefore, hgroup, rfl⟩)

/-- **Archives with the same class files give the same text and count, or both fail**; and if the
classes of one of them make up a graph, then those of the other do, and both fail on the same group
without lines. -/
theorem generate_same_of_perm (hperm : archive.classContents.Perm archive'.classContents)
    (groups : List Group) (path path' : String) :
    (∃ generation, generate groups archive path = .ok generation ∧
      generate groups archive' path' = .ok generation) ∨
    (∃ failure failure', generate groups archive path = .error failure ∧
      generate groups archive' path' = .error failure' ∧
      ((∃ graph, archive.classGraph path = .ok graph) ∨
          (∃ graph, archive'.classGraph path' = .ok graph) →
        failure = failure' ∧
          ∃ group ∈ groups, failure = ⟨[], .rules (.emptyGroup group.name)⟩)) := by
  have hgraphs : (∃ graph, archive.classGraph path = .ok graph) ↔
      ∃ graph, archive'.classGraph path' = .ok graph := by
    rw [Archive.exists_classGraph_eq_ok_iff, Archive.exists_classGraph_eq_ok_iff]
    exact ⟨fun h => h.perm hperm.symm, fun h => h.perm hperm⟩
  cases hgraph : archive.classGraph path with
  | ok graph =>
    obtain ⟨graph', hgraph'⟩ := hgraphs.mp ⟨graph, hgraph⟩
    have hsame := Archive.sameOutlines_of_perm hperm hgraph hgraph'
    rw [generate_eq_of_classGraph hgraph, generate_eq_of_classGraph hgraph', ← outcome_eq hsame]
    cases houtcome : outcome groups graph with
    | ok generation => exact Or.inl ⟨generation, rfl, rfl⟩
    | error failure =>
      obtain ⟨before, group, after, rfl, -, -, hfailure⟩ := outcome_eq_error_iff.mp houtcome
      refine Or.inr ⟨failure, failure, rfl, rfl, fun _ => ⟨rfl, group, ?_, hfailure⟩⟩
      exact List.mem_append_right _ List.mem_cons_self
  | error failure =>
    have hnone : ¬∃ graph, archive'.classGraph path' = .ok graph := by
      rw [← hgraphs, hgraph]
      exact fun ⟨_, h⟩ => nomatch h
    cases hgraph' : archive'.classGraph path' with
    | ok graph' => exact absurd ⟨graph', hgraph'⟩ hnone
    | error failure' =>
      refine Or.inr ⟨failure, failure', generate_eq_error_of_classGraph hgraph,
        generate_eq_error_of_classGraph hgraph', ?_⟩
      rintro (⟨graph, h⟩ | ⟨graph, h⟩)
      · exact nomatch h
      · exact nomatch h

/-- A class file for a class `A` below `B`. -/
def fileA : Bytes :=
  [0xCA, 0xFE, 0xBA, 0xBE, 0x00, 0x00, 0x00, 0x34, 0x00, 0x05, 0x01, 0x00, 0x01, 0x41, 0x07, 0x00,
    0x01, 0x01, 0x00, 0x01, 0x42, 0x07, 0x00, 0x03, 0x00, 0x00, 0x00, 0x02, 0x00, 0x04, 0x00, 0x00,
    0x00, 0x00, 0x00, 0x00, 0x00, 0x00]

/-- A class file for a class `B` without a superclass. -/
def fileB : Bytes :=
  [0xCA, 0xFE, 0xBA, 0xBE, 0x00, 0x00, 0x00, 0x34, 0x00, 0x03, 0x01, 0x00, 0x01, 0x42, 0x07, 0x00,
    0x01, 0x00, 0x00, 0x00, 0x02, 0x00, 0x00, 0x00, 0x00, 0x00, 0x00, 0x00, 0x00, 0x00, 0x00]

/-- An archive with both classes. -/
def twoClasses : Archive := ⟨[⟨"A.class", fileA⟩, ⟨"B.class", fileB⟩]⟩

/-- An archive with both classes under other names and in another order. -/
def twoClassesRenamed : Archive :=
  ⟨[⟨"1.class", fileB⟩, ⟨"notes", []⟩, ⟨"2.class", fileA⟩]⟩

/-- The group by which everything below `B` is to be public. -/
def belowB : Group :=
  ⟨"below", ⟨"public", false, Access.publicFlag⟩, .test (.hasSuperclass "B"), .classes⟩

theorem generate_same_of_perm_twoClasses :
    twoClasses.classContents.Perm twoClassesRenamed.classContents ∧
      generate [belowB] twoClassesRenamed "b.jar"
        = .ok ⟨listing [⟨"below", ["public A", "public B"]⟩], 2⟩ := by
  have hperm : twoClasses.classContents.Perm twoClassesRenamed.classContents := by decide
  have hgraph : twoClasses.classGraph "a.jar"
      = .ok (.ofNodes #[{ name := "A", parents := [1] }, { name := "B" }] [1, 0]) := by cbv
  have hsections :
      sections (.ofNodes #[{ name := "A", parents := [1] }, { name := "B" }] [1, 0]) [belowB]
        = .ok [⟨"below", ["public A", "public B"]⟩] := by cbv
  have hgenerate : generate [belowB] twoClasses "a.jar"
      = .ok ⟨listing [⟨"below", ["public A", "public B"]⟩], 2⟩ := by
    rw [generate_eq_of_classGraph hgraph, outcome_of_sections_eq_ok hsections]
    rfl
  refine ⟨hperm, ?_⟩
  rcases generate_same_of_perm hperm [belowB] "a.jar" "b.jar" with
    ⟨generation, h, h'⟩ | ⟨failure, failure', h, -⟩
  · rw [h', ← h, hgenerate]
  · rw [hgenerate] at h
    cases h

end AccessTransformer.Rules
