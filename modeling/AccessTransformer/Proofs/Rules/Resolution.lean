import AccessTransformer.Proofs.Outcomes
import AccessTransformer.Proofs.Rules.Modifier
import AccessTransformer.Rules.Group

/-!
# The groups of a rules file

The entries of a rules file become groups in order, or the first entry with a fault decides what is
wrong with the file.  An entry can be at fault by itself: in its modifier, in its member predicates,
or in its name, and what comes first of these is what counts.  And an entry can be at fault for
having the name of an earlier one.

* `GroupEntry.StandsFor`, `GroupEntry.Breaks`: what an entry means, and what can be wrong with it.
* `GroupEntry.exists_breaks_or_isValid`: an entry behind others is at fault or it is not.
* `GroupEntry.exists_groups_eq_ok_iff`, `GroupEntry.forall₂_of_groups_eq_ok`,
  `GroupEntry.groups_eq_error_iff`: when entries become groups, which, and what is wrong otherwise.
* `RulesFile.resolve_groups_or_first_fault`: the whole file.
-/

namespace AccessTransformer.Rules

/-- The member predicate by which a kind selects. -/
def Kind.required? : Kind → Option MemberKey
  | .classes => none
  | .methods => some .methods
  | .fields => some .fields

namespace GroupEntry

variable {entry : GroupEntry} {entries : List GroupEntry} {group : Group} {groups : List Group}
  {fault fault' : Fault} {names names' : List String}

/-! ## Member predicates -/

/-- Whether an entry has the member predicate with the given key. -/
def Has (entry : GroupEntry) : MemberKey → Prop
  | .methods => entry.methods ≠ none
  | .fields => entry.fields ≠ none

/-- Whether an entry has the member predicate that its kind requires, and no other. -/
def IsSelective (entry : GroupEntry) : Prop :=
  ∀ key, entry.Has key ↔ entry.kind.required? = some key

/-- Whether a target is the one of the entry's kind, with the member predicate for it. -/
def Aims (entry : GroupEntry) : Target → Prop
  | .classes => entry.kind = .classes
  | .methods predicate => entry.kind = .methods ∧ entry.methods = some predicate
  | .fields predicate => entry.kind = .fields ∧ entry.fields = some predicate

/-- What is wrong with the member predicates of an entry.  That one is missing counts before that
another one is there, and of two that should not be there the one on methods counts. -/
inductive BreaksMembers (entry : GroupEntry) : Fault → Prop where
  | missing {key : MemberKey} (hrequired : entry.kind.required? = some key)
      (hlacks : ¬entry.Has key) :
      BreaksMembers entry (.missingMemberPredicate entry.name entry.kind key)
  | unexpected {key : MemberKey} (hhas : entry.Has key)
      (hother : entry.kind.required? ≠ some key)
      (hrequired : ∀ required, entry.kind.required? = some required → entry.Has required)
      (hfirst : key = .fields → entry.Has .methods → entry.kind.required? = some .methods) :
      BreaksMembers entry (.unexpectedMemberPredicate entry.name entry.kind key)

theorem isSelective_iff : entry.IsSelective ↔
    (entry.methods ≠ none ↔ entry.kind = .methods) ∧
      (entry.fields ≠ none ↔ entry.kind = .fields) := by
  have hkind : ∀ key, entry.kind.required? = some key ↔
      entry.kind = match key with | .methods => .methods | .fields => .fields := by
    intro key
    cases entry.kind <;> cases key <;> simp [Kind.required?]
  constructor
  · intro h
    exact ⟨(h .methods).trans (hkind .methods), (h .fields).trans (hkind .fields)⟩
  · rintro ⟨hmethods, hfields⟩ (_ | _)
    · exact hmethods.trans (hkind .methods).symm
    · exact hfields.trans (hkind .fields).symm

theorem BreaksMembers.not_isSelective (h : entry.BreaksMembers fault) : ¬entry.IsSelective := by
  intro hselective
  cases h with
  | missing hrequired hlacks => exact hlacks ((hselective _).mpr hrequired)
  | unexpected hhas hother _ _ => exact hother ((hselective _).mp hhas)

theorem BreaksMembers.unique (h : entry.BreaksMembers fault) (h' : entry.BreaksMembers fault') :
    fault = fault' := by
  cases h with
  | missing hrequired hlacks =>
    cases h' with
    | missing hrequired' _ => rw [Option.some.inj (hrequired.symm.trans hrequired')]
    | unexpected _ _ hrequired' _ => exact absurd (hrequired' _ hrequired) hlacks
  | @unexpected key hhas hother hrequired hfirst =>
    cases h' with
    | missing hrequired' hlacks' => exact absurd (hrequired _ hrequired') hlacks'
    | @unexpected key' hhas' hother' _ hfirst' =>
      cases key <;> cases key'
      · rfl
      · exact absurd (hfirst' rfl hhas) hother
      · exact absurd (hfirst rfl hhas') hother'
      · rfl

/-- **An entry has a target if it has just the member predicate that its kind requires, and else it
is refused for its member predicates.** -/
theorem target_cases (entry : GroupEntry) :
    (∃ target, entry.IsSelective ∧ entry.Aims target ∧ entry.target = .ok target) ∨
      ∃ fault, entry.BreaksMembers fault ∧ entry.target = .error fault := by
  obtain ⟨name, modifier, kind, classes, methods, fields⟩ := entry
  cases kind with
  | classes =>
    cases methods with
    | some _ =>
      exact Or.inr ⟨.unexpectedMemberPredicate name .classes .methods,
        .unexpected nofun nofun nofun nofun, rfl⟩
    | none =>
      cases fields with
      | some _ =>
        exact Or.inr ⟨.unexpectedMemberPredicate name .classes .fields,
          .unexpected nofun nofun nofun fun _ => absurd rfl, rfl⟩
      | none => exact Or.inl ⟨.classes, isSelective_iff.mpr (by simp), rfl, rfl⟩
  | methods =>
    have hrequired : ∀ key, Kind.methods.required? = some key → key = .methods :=
      fun _ h => (Option.some.inj h).symm
    cases methods with
    | none =>
      exact Or.inr ⟨.missingMemberPredicate name .methods .methods,
        .missing rfl (absurd rfl ·), rfl⟩
    | some predicate =>
      cases fields with
      | some _ =>
        refine Or.inr ⟨.unexpectedMemberPredicate name .methods .fields,
          .unexpected nofun nofun (fun key h => ?_) fun _ _ => rfl, rfl⟩
        rw [hrequired key h]
        nofun
      | none => exact Or.inl ⟨.methods predicate, isSelective_iff.mpr (by simp), ⟨rfl, rfl⟩, rfl⟩
  | fields =>
    have hrequired : ∀ key, Kind.fields.required? = some key → key = .fields :=
      fun _ h => (Option.some.inj h).symm
    cases fields with
    | none =>
      refine Or.inr ⟨.missingMemberPredicate name .fields .fields,
        .missing rfl (absurd rfl ·), ?_⟩
      cases methods <;> rfl
    | some predicate =>
      cases methods with
      | some _ =>
        refine Or.inr ⟨.unexpectedMemberPredicate name .fields .methods,
          .unexpected nofun nofun (fun key h => ?_) nofun, rfl⟩
        rw [hrequired key h]
        nofun
      | none => exact Or.inl ⟨.fields predicate, isSelective_iff.mpr (by simp), ⟨rfl, rfl⟩, rfl⟩

theorem target_eq_error_of_breaksMembers (h : entry.BreaksMembers fault) :
    entry.target = .error fault := by
  rcases entry.target_cases with ⟨target, hselective, -, -⟩ | ⟨found, hfound, htarget⟩
  · exact absurd hselective h.not_isSelective
  · rw [htarget, hfound.unique h]

/-! ## An entry behind others -/

/-- Whether nothing is wrong with an entry by itself. -/
structure IsValid (entry : GroupEntry) : Prop where
  modifier : entry.modifier.IsValid
  members : entry.IsSelective
  name : ¬Text.Blank entry.name

/-- Whether a group has the name, the modifier, the class predicate and the member predicate of an
entry. -/
structure StandsFor (entry : GroupEntry) (group : Group) : Prop where
  name_eq : group.name = entry.name
  modifier : entry.modifier.StandsFor group.modifier
  classes_eq : group.classes = entry.classes
  target : entry.Aims group.target

/-- What is wrong with an entry behind entries with the given names: the first of what can be wrong
with it by itself, or else that one of the names is its own. -/
inductive Breaks (names : List String) (entry : GroupEntry) : Fault → Prop where
  | modifier {fault : Fault} (hbreaks : entry.modifier.Breaks fault) : Breaks names entry fault
  | members {fault : Fault} (hmodifier : entry.modifier.IsValid)
      (hbreaks : entry.BreaksMembers fault) : Breaks names entry fault
  | blankName (hmodifier : entry.modifier.IsValid) (hmembers : entry.IsSelective)
      (hname : Text.Blank entry.name) : Breaks names entry .emptyGroupName
  | duplicate (hvalid : entry.IsValid) (hname : entry.name ∈ names) :
      Breaks names entry (.duplicateGroup entry.name)

/-- Of other entries only the names matter, and of these only whether the entry's own is one. -/
theorem Breaks.congr (h : entry.Breaks names fault)
    (hmem : entry.name ∈ names → entry.name ∈ names') : entry.Breaks names' fault := by
  cases h with
  | modifier hbreaks => exact .modifier hbreaks
  | members hmodifier hbreaks => exact .members hmodifier hbreaks
  | blankName hmodifier hmembers hname => exact .blankName hmodifier hmembers hname
  | duplicate hvalid hname => exact .duplicate hvalid (hmem hname)

/-- An entry with a name of its own is at fault only if it is not valid. -/
theorem Breaks.not_isValid (h : entry.Breaks names fault) (hname : entry.name ∉ names) :
    ¬entry.IsValid := by
  cases h with
  | modifier hbreaks => exact fun hvalid => hbreaks.not_isValid hvalid.modifier
  | members _ hbreaks => exact fun hvalid => hbreaks.not_isSelective hvalid.members
  | blankName _ _ hblank => exact fun hvalid => hvalid.name hblank
  | duplicate _ hmem => exact absurd hmem hname

/-- An entry with a modifier and a target is a group, unless its name is blank. -/
theorem exists_group_eq (hmodifier : entry.modifier.IsValid) (hmembers : entry.IsSelective) :
    ∃ group, entry.StandsFor group ∧
      entry.group = if Text.isBlank entry.name then .error .emptyGroupName else .ok group := by
  obtain ⟨modifier, hmodifier⟩ := ModifierEntry.exists_modifier_eq_ok_iff.mpr hmodifier
  rcases entry.target_cases with ⟨target, -, haims, htarget⟩ | ⟨fault, hbreaks, -⟩
  · rw [GroupEntry.group, hmodifier, htarget]
    exact ⟨_, ⟨rfl, ModifierEntry.modifier_eq_ok_iff.mp hmodifier, rfl, haims⟩, rfl⟩
  · exact absurd hmembers hbreaks.not_isSelective

/-- An entry that is at fault ends the reading with its fault, whatever comes behind it. -/
theorem groups_cons_of_breaks (h : entry.Breaks names fault) (entries : List GroupEntry) :
    GroupEntry.groups names (entry :: entries) = .error fault := by
  rw [GroupEntry.groups]
  cases h with
  | modifier hbreaks =>
    rw [GroupEntry.group, ModifierEntry.modifier_eq_error_iff.mpr hbreaks]
    rfl
  | members hmodifier hbreaks =>
    obtain ⟨modifier, hmodifier⟩ := ModifierEntry.exists_modifier_eq_ok_iff.mpr hmodifier
    rw [GroupEntry.group, hmodifier, target_eq_error_of_breaksMembers hbreaks]
    rfl
  | blankName hmodifier hmembers hname =>
    obtain ⟨group, -, hgroup⟩ := exists_group_eq hmodifier hmembers
    rw [hgroup, if_pos (Text.isBlank_eq_true_iff.mpr hname)]
    rfl
  | duplicate hvalid hmem =>
    obtain ⟨group, hstands, hgroup⟩ := exists_group_eq hvalid.modifier hvalid.members
    rw [hgroup, if_neg (mt Text.isBlank_eq_true_iff.mp hvalid.name), ← hstands.name_eq]
    exact if_pos (hstands.name_eq ▸ hmem)

/-- An entry that is not at fault is the first group, and its name is taken. -/
theorem groups_cons_of_isValid (hvalid : entry.IsValid) (hname : entry.name ∉ names)
    (entries : List GroupEntry) : ∃ group, entry.StandsFor group ∧
      GroupEntry.groups names (entry :: entries)
        = (GroupEntry.groups (entry.name :: names) entries).map (group :: ·) := by
  obtain ⟨group, hstands, hgroup⟩ := exists_group_eq hvalid.modifier hvalid.members
  refine ⟨group, hstands, ?_⟩
  rw [GroupEntry.groups, hgroup, if_neg (mt Text.isBlank_eq_true_iff.mp hvalid.name)]
  rw [← hstands.name_eq] at hname ⊢
  refine (if_neg hname).trans ?_
  cases GroupEntry.groups (group.name :: names) entries <;> rfl

/-- An entry is at fault, or it is valid and has a name of its own. -/
theorem exists_breaks_or_isValid (names : List String) (entry : GroupEntry) :
    (∃ fault, entry.Breaks names fault) ∨ entry.IsValid ∧ entry.name ∉ names := by
  rcases entry.modifier.modifier_cases with ⟨modifier, hstands, -⟩ | ⟨fault, hbreaks, -⟩
  · rcases entry.target_cases with ⟨target, hselective, -, -⟩ | ⟨fault, hbreaks, -⟩
    · by_cases hblank : Text.Blank entry.name
      · exact Or.inl ⟨_, .blankName hstands.isValid hselective hblank⟩
      · have hvalid : entry.IsValid := ⟨hstands.isValid, hselective, hblank⟩
        by_cases hname : entry.name ∈ names
        · exact Or.inl ⟨_, .duplicate hvalid hname⟩
        · exact Or.inr ⟨hvalid, hname⟩
    · exact Or.inl ⟨fault, .members hstands.isValid hbreaks⟩
  · exact Or.inl ⟨fault, .modifier hbreaks⟩

/-! ## All entries -/

/-- An entry in front of others takes its name, and needs one that was not taken. -/
theorem forall_isValid_cons_iff :
    (∀ other ∈ entry :: entries, other.IsValid ∧ other.name ∉ names) ∧
        ((entry :: entries).map (·.name)).Nodup ↔
      (entry.IsValid ∧ entry.name ∉ names) ∧
        (∀ other ∈ entries, other.IsValid ∧ other.name ∉ entry.name :: names) ∧
        (entries.map (·.name)).Nodup := by
  rw [List.forall_mem_cons, List.map_cons, List.nodup_cons, List.mem_map]
  constructor
  · rintro ⟨⟨hentry, hentries⟩, hfresh, hnodup⟩
    refine ⟨hentry, fun other hother => ⟨(hentries other hother).1, ?_⟩, hnodup⟩
    rw [List.mem_cons, not_or]
    exact ⟨fun heq => hfresh ⟨other, hother, heq⟩, (hentries other hother).2⟩
  · rintro ⟨hentry, hentries, hnodup⟩
    refine ⟨⟨hentry, fun other hother => ?_⟩, ?_, hnodup⟩
    · obtain ⟨hvalid, hfresh⟩ := hentries other hother
      exact ⟨hvalid, (not_or.mp (mt List.mem_cons.mpr hfresh)).2⟩
    · rintro ⟨other, hother, heq⟩
      exact (hentries other hother).2 (heq ▸ List.mem_cons_self)

/-- **Entries become groups exactly if all of them are valid and have names of their own.** -/
theorem exists_groups_eq_ok_iff :
    (∃ groups, GroupEntry.groups names entries = .ok groups) ↔
      (∀ entry ∈ entries, entry.IsValid ∧ entry.name ∉ names) ∧ (entries.map (·.name)).Nodup := by
  induction entries generalizing names with
  | nil => exact iff_of_true ⟨[], rfl⟩ ⟨nofun, List.nodup_nil⟩
  | cons entry entries ih =>
    rw [forall_isValid_cons_iff]
    rcases exists_breaks_or_isValid names entry with ⟨fault, hbreaks⟩ | ⟨hvalid, hname⟩
    · rw [groups_cons_of_breaks hbreaks]
      exact iff_of_false nofun fun h => hbreaks.not_isValid h.1.2 h.1.1
    · obtain ⟨group, -, hgroups⟩ := groups_cons_of_isValid hvalid hname entries
      rw [hgroups, ← ih, and_iff_right ⟨hvalid, hname⟩]
      cases GroupEntry.groups (entry.name :: names) entries with
      | error fault => exact iff_of_false nofun nofun
      | ok groups => exact iff_of_true ⟨group :: groups, rfl⟩ ⟨groups, rfl⟩

/-- **Entries become the groups that they stand for, in order.** -/
theorem forall₂_of_groups_eq_ok (h : GroupEntry.groups names entries = .ok groups) :
    List.Forall₂ StandsFor entries groups := by
  induction entries generalizing names groups with
  | nil =>
    obtain rfl := Except.ok.inj h
    exact .nil
  | cons entry entries ih =>
    rcases exists_breaks_or_isValid names entry with ⟨fault, hbreaks⟩ | ⟨hvalid, hname⟩
    · exact nomatch (groups_cons_of_breaks hbreaks entries).symm.trans h
    · obtain ⟨group, hstands, hgroups⟩ := groups_cons_of_isValid hvalid hname entries
      obtain ⟨rest, hrest, rfl⟩ := map_eq_ok_iff.mp (hgroups.symm.trans h)
      exact .cons hstands (ih hrest)

/-- **Entries are refused for the first of them that is at fault behind the ones before it.** -/
theorem groups_eq_error_iff :
    GroupEntry.groups names entries = .error fault ↔
      ∃ before entry after, entries = before ++ entry :: after ∧
        ((∀ earlier ∈ before, earlier.IsValid ∧ earlier.name ∉ names) ∧
          (before.map (·.name)).Nodup) ∧
        entry.Breaks (before.map (·.name) ++ names) fault := by
  induction entries generalizing names with
  | nil => exact iff_of_false nofun fun ⟨before, _, _, h, _⟩ => by cases before <;> cases h
  | cons first entries ih =>
    rcases exists_breaks_or_isValid names first with ⟨found, hbreaks⟩ | ⟨hvalid, hname⟩
    · rw [groups_cons_of_breaks hbreaks, Except.error.injEq]
      constructor
      · rintro rfl
        exact ⟨[], first, entries, rfl, ⟨nofun, List.nodup_nil⟩, hbreaks⟩
      · rintro ⟨before, entry, after, hsplit, hbefore, hentry⟩
        cases before with
        | nil =>
          obtain ⟨rfl, rfl⟩ := List.cons.inj hsplit
          exact Except.error.inj
            ((groups_cons_of_breaks hbreaks []).symm.trans (groups_cons_of_breaks hentry []))
        | cons earlier before =>
          obtain ⟨rfl, rfl⟩ := List.cons.inj hsplit
          obtain ⟨⟨hvalid, hname⟩, -⟩ := forall_isValid_cons_iff.mp hbefore
          exact absurd hvalid (hbreaks.not_isValid hname)
    · obtain ⟨group, -, hgroups⟩ := groups_cons_of_isValid hvalid hname entries
      have hmap : GroupEntry.groups names (first :: entries) = .error fault ↔
          GroupEntry.groups (first.name :: names) entries = .error fault := by
        rw [hgroups]
        cases GroupEntry.groups (first.name :: names) entries <;> simp [Except.map]
      rw [hmap, ih]
      constructor
      · rintro ⟨before, entry, after, rfl, hbefore, hentry⟩
        refine ⟨first :: before, entry, after, rfl,
          forall_isValid_cons_iff.mpr ⟨⟨hvalid, hname⟩, hbefore⟩, hentry.congr ?_⟩
        simp [or_left_comm]
      · rintro ⟨before, entry, after, hsplit, hbefore, hentry⟩
        cases before with
        | nil =>
          obtain ⟨rfl, rfl⟩ := List.cons.inj hsplit
          exact absurd hvalid (hentry.not_isValid hname)
        | cons earlier before =>
          obtain ⟨rfl, rfl⟩ := List.cons.inj hsplit
          refine ⟨before, entry, after, rfl, (forall_isValid_cons_iff.mp hbefore).2,
            hentry.congr ?_⟩
          simp [or_left_comm]

end GroupEntry

/-- **A rules file becomes groups exactly if every entry is valid and no name occurs twice**, and
then each group is what its entry stands for, in order.  Otherwise the first entry that is not valid
or repeats an earlier name decides, and of what is wrong with it the modifier comes first, then the
member predicates, then a blank name, and then the repeated name; what stands behind it does not
matter. -/
theorem RulesFile.resolve_groups_or_first_fault (file : RulesFile) :
    ((∃ groups, file.resolve = .ok groups) ↔
      (∀ entry ∈ file.groups, entry.IsValid) ∧ (file.groups.map (·.name)).Nodup) ∧
    (∀ groups, file.resolve = .ok groups →
      List.Forall₂ GroupEntry.StandsFor file.groups groups) ∧
    ∀ fault, file.resolve = .error fault ↔
      ∃ before entry after, file.groups = before ++ entry :: after ∧
        ((∀ earlier ∈ before, earlier.IsValid) ∧ (before.map (·.name)).Nodup) ∧
        entry.Breaks (before.map (·.name)) fault := by
  refine ⟨?_, fun groups h => GroupEntry.forall₂_of_groups_eq_ok h, fun fault => ?_⟩
  · rw [RulesFile.resolve, GroupEntry.exists_groups_eq_ok_iff]
    simp only [List.not_mem_nil, not_false_eq_true, and_true]
  · rw [RulesFile.resolve, GroupEntry.groups_eq_error_iff]
    simp only [List.not_mem_nil, not_false_eq_true, and_true, List.append_nil]

end AccessTransformer.Rules
