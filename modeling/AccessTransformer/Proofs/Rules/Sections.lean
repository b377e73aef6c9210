import AccessTransformer.Rules.Selection

/-!
# Sections in order

The evaluation of a list of groups goes through them in order: it either gives a section for every
group, or the fault of the first group without lines.

* `sections_eq_ok_iff`: when it succeeds, and with which sections.
* `sections_eq_error_iff`: when it fails, and on which group.
-/

namespace AccessTransformer.Rules

/-- The section of a group. -/
def Group.section (group : Group) (graph : ClassGraph) : Section :=
  ⟨group.name, group.lines graph⟩

variable {graph : ClassGraph} {groups : List Group}

/-- A group without lines stops the evaluation, and another one adds its section. -/
theorem sections_cons (graph : ClassGraph) (group : Group) (groups : List Group) :
    sections graph (group :: groups) =
      if group.lines graph = [] then .error (.emptyGroup group.name)
      else (sections graph groups).map (group.section graph :: ·) := by
  rw [sections, Group.section]
  cases group.lines graph with
  | nil => rfl
  | cons line lines =>
    rw [if_neg (List.cons_ne_nil line lines)]
    cases sections graph groups <;> rfl

/-- **The evaluation succeeds exactly when every group has lines**, with the section of each. -/
theorem sections_eq_ok_iff {listed : List Section} :
    sections graph groups = .ok listed ↔
      (∀ group ∈ groups, group.lines graph ≠ []) ∧ listed = groups.map (·.section graph) := by
  induction groups generalizing listed with
  | nil => simp [sections]
  | cons group groups ih =>
    rw [sections_cons, List.forall_mem_cons, List.map_cons]
    by_cases hlines : group.lines graph = []
    · rw [if_pos hlines]
      exact iff_of_false (fun h => nomatch h) fun h => h.1.1 hlines
    · rw [if_neg hlines]
      cases hrest : sections graph groups with
      | error fault =>
        refine iff_of_false (fun h => nomatch h) fun h => ?_
        exact nomatch hrest.symm.trans (ih.mpr ⟨h.1.2, rfl⟩)
      | ok rest =>
        obtain ⟨hgroups, rfl⟩ := ih.mp hrest
        simp only [Except.map, Except.ok.injEq, ne_eq, hlines, not_false_eq_true, true_and]
        exact ⟨fun h => ⟨hgroups, h.symm⟩, fun h => h.2.symm⟩

/-- **The evaluation fails exactly when a group has no lines**, on the first such group. -/
theorem sections_eq_error_iff {fault : Fault} :
    sections graph groups = .error fault ↔
      ∃ before group after, groups = before ++ group :: after ∧
        (∀ earlier ∈ before, earlier.lines graph ≠ []) ∧ group.lines graph = [] ∧
        fault = .emptyGroup group.name := by
  induction groups with
  | nil => simp [sections]
  | cons first groups ih =>
    rw [sections_cons]
    by_cases hlines : first.lines graph = []
    · rw [if_pos hlines]
      constructor
      · intro h
        exact ⟨[], first, groups, rfl, by simp, hlines, (Except.error.inj h).symm⟩
      · rintro ⟨before, group, after, hgroups, hbefore, hgroup, rfl⟩
        cases before with
        | nil =>
          obtain ⟨rfl, rfl⟩ := List.cons.inj hgroups
          rfl
        | cons earlier before =>
          obtain ⟨rfl, rfl⟩ := List.cons.inj hgroups
          exact absurd hlines (hbefore first List.mem_cons_self)
    · rw [if_neg hlines]
      have hmap : (sections graph groups).map (first.section graph :: ·) = .error fault ↔
          sections graph groups = .error fault := by
        cases sections graph groups <;> simp [Except.map]
      rw [hmap, ih]
      constructor
      · rintro ⟨before, group, after, rfl, hbefore, hgroup, hfault⟩
        exact ⟨first :: before, group, after, rfl,
          List.forall_mem_cons.mpr ⟨hlines, hbefore⟩, hgroup, hfault⟩
      · rintro ⟨before, group, after, hgroups, hbefore, hgroup, hfault⟩
        cases before with
        | nil =>
          obtain ⟨rfl, rfl⟩ := List.cons.inj hgroups
          exact absurd hgroup hlines
        | cons earlier before =>
          obtain ⟨rfl, rfl⟩ := List.cons.inj hgroups
          exact ⟨before, group, after, rfl, (List.forall_mem_cons.mp hbefore).2, hgroup, hfault⟩

end AccessTransformer.Rules
