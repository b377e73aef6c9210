import AccessTransformer.Proofs.Json.Shape
import AccessTransformer.Rules.Spelling

/-!
# Rules files survive being written

A rules file can be spelled in many ways: an alternative without a payload may have an explicit
null, a record may be an array, member predicates may be null, and members of a modifier that mean
nothing are passed over.  It is written in one way only.  That way is read back as what was written,
and is never deeper than a way that it was read from, so writing what was read never runs into the
limit of how deep a text may be.

* `Condition.spells`: conditions over any tests that are spelled.
* `RulesFile.spells`: rules files.
* `RulesFile.ofText_text_of_ofText`: what a text was read as is written and read back.
-/

namespace AccessTransformer.Rules

open Json (Tree Tail Value Spells)

/-! ## Conditions -/

/-- Whether the tests of a vocabulary are spelled, under names that no connective has. -/
structure Vocabulary.Spells {α : Type} (vocabulary : Vocabulary α) : Prop where
  notMem_connectives : ∀ a, (vocabulary.write a).1 ∉ ["match_any", "all", "any_of", "not"]
  read_tree : ∀ a, ∃ read, vocabulary.read? (vocabulary.write a).1 = some read ∧
    read (vocabulary.write a).2.tree = .ok a
  fits : ∀ {key : String} {read : Tree → Except Json.Fault α} {room : Nat} {tree : Tree} {a : α},
    vocabulary.read? key = some read → tree.Fits room → read tree = .ok a →
      (vocabulary.write a).2.Fits room

namespace Condition

variable {α : Type} {vocabulary : Vocabulary α}

mutual

/-- A written condition is read back. -/
theorem ofTree_tree (h : vocabulary.Spells) :
    ∀ condition : Condition α, ofTree vocabulary (condition.toValue vocabulary).tree = .ok condition
  | .always => rfl
  | .test a => by
    obtain ⟨read, hread, htree⟩ := h.read_tree a
    have hname := h.notMem_connectives a
    rcases hwrite : vocabulary.write a with ⟨name, value⟩
    rw [hwrite] at hread htree hname
    simp only [List.mem_cons, List.not_mem_nil, or_false, not_or] at hname
    obtain ⟨hmatch, hall, hany, hnot⟩ := hname
    rw [toValue, hwrite, Value.tree, Value.memberTrees, Value.memberTrees, ofTree,
      if_neg hmatch, if_neg hall, if_neg hany, if_neg hnot, hread]
    simp only [htree]
    rfl
  | .all conditions => by
    rw [toValue, Value.tree, Value.memberTrees, Value.memberTrees, Value.tree, ofTree,
      if_neg (by decide), if_pos rfl, listOfTree, ofItems_trees h conditions]
    rfl
  | .any conditions => by
    rw [toValue, Value.tree, Value.memberTrees, Value.memberTrees, Value.tree, ofTree,
      if_neg (by decide), if_neg (by decide), if_pos rfl, listOfTree, ofItems_trees h conditions]
    rfl
  | .negation condition => by
    rw [toValue, Value.tree, Value.memberTrees, Value.memberTrees, ofTree,
      if_neg (by decide), if_neg (by decide), if_neg (by decide), if_pos rfl,
      ofTree_tree h condition]
    rfl

theorem ofItems_trees (h : vocabulary.Spells) :
    ∀ conditions : List (Condition α),
      ofItems vocabulary (Value.trees (toValues vocabulary conditions)) = .ok conditions
  | [] => rfl
  | condition :: conditions => by
    rw [toValues, Value.trees, ofItems, ofTree_tree h condition, ofItems_trees h conditions]
    rfl

end

mutual

/-- No condition is read with less room than it takes to write it. -/
theorem fits_of_ofTree (h : vocabulary.Spells) :
    ∀ {room : Nat} {tree : Tree} {condition : Condition α}, tree.Fits room →
      ofTree vocabulary tree = .ok condition → (condition.toValue vocabulary).Fits room
  | room, .scalar s, condition, _, hread => by
    unfold ofTree at hread
    split at hread
    · split at hread
      · obtain rfl := Except.ok.inj hread
        exact .string _
      · cases hread
    · rename_i heq
      cases heq
    · cases hread
  | room, .object ((key, payload) :: more) tail, condition, hfits, hread => by
    rw [ofTree] at hread
    split at hread
    · obtain ⟨⟨_, _, rfl⟩, -⟩ := Tree.bind_loneMember_eq_ok_iff.mp hread
      exact .string _
    · split at hread
      · obtain ⟨⟨conditions, hconditions, rfl⟩, rfl, rfl⟩ :=
          Tree.bind_loneMember_eq_ok_iff.mp hread
        obtain ⟨inner, rfl, hpayload⟩ := hfits.exists_of_lone
        exact (fits_of_listOfTree h hpayload hconditions).lone
      · split at hread
        · obtain ⟨⟨conditions, hconditions, rfl⟩, rfl, rfl⟩ :=
            Tree.bind_loneMember_eq_ok_iff.mp hread
          obtain ⟨inner, rfl, hpayload⟩ := hfits.exists_of_lone
          exact (fits_of_listOfTree h hpayload hconditions).lone
        · split at hread
          · obtain ⟨⟨negated, hnegated, rfl⟩, rfl, rfl⟩ :=
              Tree.bind_loneMember_eq_ok_iff.mp hread
            obtain ⟨inner, rfl, hpayload⟩ := hfits.exists_of_lone
            exact (fits_of_ofTree h hpayload hnegated).lone
          · split at hread
            · rename_i read hkey
              obtain ⟨⟨a, ha, rfl⟩, rfl, rfl⟩ := Tree.bind_loneMember_eq_ok_iff.mp hread
              obtain ⟨inner, rfl, hpayload⟩ := hfits.exists_of_lone
              exact (h.fits hkey hpayload ha).lone
            · cases hread
  | room, .object [] tail, condition, _, hread => nomatch hread
  | room, .array items tail, condition, _, hread => nomatch hread
  | room, .gap g, condition, _, hread => nomatch hread

theorem fits_of_listOfTree (h : vocabulary.Spells) :
    ∀ {room : Nat} {tree : Tree} {conditions : List (Condition α)}, tree.Fits room →
      listOfTree vocabulary tree = .ok conditions →
        (Value.array (toValues vocabulary conditions)).Fits room
  | room, .array items tail, conditions, hfits, hread => by
    rw [listOfTree, bind_eq_ok_iff] at hread
    obtain ⟨conditions', hconditions, hread⟩ := hread
    obtain ⟨⟨⟩, htail, hread⟩ := bind_eq_ok_iff.mp hread
    obtain rfl := Except.ok.inj hread
    obtain rfl := Json.Tail.check_eq_ok_iff.mp htail
    obtain ⟨inner, rfl, hitems⟩ := hfits.exists_of_array
    exact .array (fits_of_ofItems h hitems hconditions)
  | room, .scalar s, conditions, _, hread => nomatch hread
  | room, .object members tail, conditions, _, hread => nomatch hread
  | room, .gap g, conditions, _, hread => nomatch hread

theorem fits_of_ofItems (h : vocabulary.Spells) :
    ∀ {room : Nat} {items : List Tree} {conditions : List (Condition α)},
      (∀ item ∈ items, item.Fits room) → ofItems vocabulary items = .ok conditions →
        ∀ value ∈ toValues vocabulary conditions, value.Fits room
  | room, [], conditions, _, hread => by
    obtain rfl := Except.ok.inj hread
    exact nofun
  | room, item :: items, conditions, hfits, hread => by
    rw [ofItems, bind_eq_ok_iff] at hread
    obtain ⟨condition, hcondition, hread⟩ := hread
    obtain ⟨rest, hrest, hread⟩ := bind_eq_ok_iff.mp hread
    obtain rfl := Except.ok.inj hread
    obtain ⟨hitem, hitems⟩ := List.forall_mem_cons.mp hfits
    rw [toValues]
    exact List.forall_mem_cons.mpr
      ⟨fits_of_ofTree h hitem hcondition, fits_of_ofItems h hitems hrest⟩

end

/-- **Conditions are spelled if their tests are.** -/
theorem spells (h : vocabulary.Spells) :
    Json.Spells (ofTree vocabulary) (toValue vocabulary) where
  read_tree := ofTree_tree h
  fits := fits_of_ofTree h

end Condition

/-! ## Predicates -/

theorem ClassTest.spells_vocabulary : ClassTest.vocabulary.Spells where
  notMem_connectives a := by cases a <;> simp [vocabulary]
  read_tree a := by cases a <;> exact ⟨_, rfl, rfl⟩
  fits {_ _ _ _ a} _ _ _ := by cases a <;> exact .string _

theorem ClassPredicate.spells : Json.Spells ClassPredicate.ofTree ClassPredicate.toValue :=
  Condition.spells ClassTest.spells_vocabulary

theorem MethodTest.spells_vocabulary : MethodTest.vocabulary.Spells where
  notMem_connectives a := by cases a <;> simp [vocabulary]
  read_tree a := by cases a <;> exact ⟨_, rfl, rfl⟩
  fits {_ _ _ _ a} _ _ _ := by cases a <;> exact .string _

theorem MethodPredicate.spells : Json.Spells MethodPredicate.ofTree MethodPredicate.toValue :=
  Condition.spells MethodTest.spells_vocabulary

theorem FieldTest.spells_vocabulary : FieldTest.vocabulary.Spells where
  notMem_connectives a := by cases a <;> simp [vocabulary]
  read_tree a := by
    cases a with
    | named name => exact ⟨_, rfl, rfl⟩
    | ofType type =>
      exact ⟨_, rfl, map_eq_ok_iff.mpr ⟨type, ClassPredicate.spells.read_tree type, rfl⟩⟩
  fits := by
    intro key read room tree a hread hfits htree
    cases a with
    | named name => exact .string _
    | ofType type =>
      unfold vocabulary at hread
      dsimp only at hread
      split at hread
      · obtain rfl := Option.some.inj hread
        obtain ⟨_, _, heq⟩ := map_eq_ok_iff.mp htree
        cases heq
      · split at hread
        · obtain rfl := Option.some.inj hread
          obtain ⟨_, htype, heq⟩ := map_eq_ok_iff.mp htree
          obtain rfl := FieldTest.ofType.inj heq
          exact ClassPredicate.spells.fits hfits htype
        · cases hread

theorem FieldPredicate.spells : Json.Spells FieldPredicate.ofTree FieldPredicate.toValue :=
  Condition.spells FieldTest.spells_vocabulary

/-! ## Modifiers -/

namespace ModifierEntry

theorem flags_tree (flags : UInt16) :
    ModifierEntry.flags (Value.natural flags.toNat).tree = .ok flags := by
  rw [Value.tree, ModifierEntry.flags, if_pos flags.toNat_lt, UInt16.ofNat_toNat]

/-- Two containers around each other leave room for a definition. -/
theorem fits_explicit {room : Nat} (name : String) (requiresFinal : Bool) (flags : List UInt16) :
    (toValue (.explicit name requiresFinal flags)).Fits (room + 1 + 1) := by
  have hflags : (Value.array (flags.map fun flags => .natural flags.toNat)).Fits (room + 1) :=
    .array (List.forall_mem_map.mpr fun flags _ =>
      .natural (Nat.lt_trans flags.toNat_lt (by decide)))
  exact .object (by simp [Value.Fits.string, Value.Fits.bool, hflags])

/-- The acceptable flags of a definition are in an array inside its object. -/
theorem exists_array_of_ofMembers {members : List (String × Tree)} {entry : ModifierEntry}
    (h : ofMembers members = .ok entry) :
    ∃ name requiresFinal flags, entry = .explicit name requiresFinal flags ∧
      ∃ member ∈ members, ∃ items tail, member.2 = .array items tail := by
  have hmem {items : List Tree} {tail : Tail}
      (hvalues : valuesOf "acceptable_flags" members = [.array items tail]) :
      ∃ member ∈ members, ∃ items tail, member.2 = .array items tail := by
    have hmem : Tree.array items tail ∈ valuesOf "acceptable_flags" members :=
      hvalues ▸ List.mem_cons_self
    obtain ⟨member, hmember, heq⟩ := List.mem_map.mp hmem
    exact ⟨member, List.mem_of_mem_filter hmember, items, tail, heq⟩
  unfold ofMembers at h
  split at h
  · rename_i name items tail _ _ hvalues
    obtain ⟨flags, -, rfl⟩ := map_eq_ok_iff.mp h
    exact ⟨name, false, flags, rfl, hmem hvalues⟩
  · rename_i name requiresFinal items tail _ _ hvalues
    obtain ⟨flags, -, rfl⟩ := map_eq_ok_iff.mp h
    exact ⟨name, requiresFinal, flags, rfl, hmem hvalues⟩
  · cases h

theorem spells : Json.Spells ofTree toValue where
  read_tree entry := by
    unfold ofTree
    rw [Value.check_tree]
    cases entry with
    | preset name => rfl
    | explicit name requiresFinal flags =>
      have hflags : (Value.trees (flags.map fun flags => .natural flags.toNat)).mapM
          ModifierEntry.flags = .ok flags := by
        rw [Value.trees_eq_map, List.map_map]
        exact mapM_map_eq_ok flags_tree flags
      show (List.mapM ModifierEntry.flags _).map (explicit name requiresFinal) = _
      rw [hflags]
      rfl
  fits := by
    intro room tree entry hfits hread
    unfold ofTree at hread
    obtain ⟨⟨⟩, hcheck, hread⟩ := bind_eq_ok_iff.mp hread
    split at hread
    · obtain rfl := Except.ok.inj hread
      exact .string _
    · rename_i members tail
      obtain ⟨name, requiresFinal, flags, rfl, member, hmember, items, tail', harray⟩ :=
        exists_array_of_ofMembers hread
      obtain ⟨rfl, hmembers⟩ := Tree.closed_of_check_object hcheck
      obtain ⟨inner, rfl, hitems⟩ := hfits.exists_of_object
      have hchecked := hmembers member hmember
      have hinner := hitems member hmember
      rw [harray] at hchecked hinner
      obtain rfl := Tree.eq_closed_of_check_array hchecked
      obtain ⟨innermost, rfl, -⟩ := hinner.exists_of_array
      exact fits_explicit name requiresFinal flags
    · cases hread

end ModifierEntry

/-! ## Groups -/

theorem Kind.ofName?_name (kind : Kind) : Kind.ofName? kind.name = some kind := by
  cases kind <;> rfl

theorem Kind.spells : Json.Spells (Tree.name Kind.ofName?) fun kind => .string kind.name :=
  Json.spells_name Kind.ofName?_name

namespace GroupEntry

/-- Whether the parts of a group fit in the room inside it. -/
structure PartsFit (room : Nat) (entry : GroupEntry) : Prop where
  modifier : entry.modifier.toValue.Fits room
  classes : entry.classes.toValue.Fits room
  methods : ∀ methods, entry.methods = some methods → methods.toValue.Fits room
  fields : ∀ fields, entry.fields = some fields → fields.toValue.Fits room

theorem PartsFit.fits {room : Nat} {entry : GroupEntry} (h : entry.PartsFit room) :
    entry.toValue.Fits (room + 1) := by
  refine .object fun member hmember => ?_
  simp only [List.mem_append, List.mem_cons, List.not_mem_nil, or_false, Option.mem_toList,
    Option.map_eq_some_iff] at hmember
  obtain ((rfl | rfl | rfl | rfl) | ⟨methods, hmethods, rfl⟩) | ⟨fields, hfields, rfl⟩ := hmember
  · exact .string _
  · exact h.modifier
  · exact .string _
  · exact h.classes
  · exact h.methods methods hmethods
  · exact h.fields fields hfields

/-- Whether what a draft has of the parts of a group fits. -/
structure Draft.Fits (room : Nat) (draft : Draft) : Prop where
  modifier : ∀ modifier, draft.modifier = some modifier → modifier.toValue.Fits room
  classes : ∀ classes, draft.classes = some classes → classes.toValue.Fits room
  methods : ∀ methods, draft.methods.join = some methods → methods.toValue.Fits room
  fields : ∀ fields, draft.fields.join = some fields → fields.toValue.Fits room

/-- Nothing is there, so nothing is too deep. -/
theorem Draft.fits_empty (room : Nat) : Draft.Fits room {} where
  modifier := by rintro _ ⟨⟩
  classes := by rintro _ ⟨⟩
  methods := by rintro _ ⟨⟩
  fields := by rintro _ ⟨⟩

theorem fresh_eq_ok_iff {α : Type} {old : Option α} {read : Tree → Except Json.Fault α}
    {tree : Tree} {a : α} : fresh old read tree = .ok a ↔ old = none ∧ read tree = .ok a := by
  cases old <;> simp [fresh]

variable {room : Nat}

/-- One more member preserves that a draft fits. -/
theorem Draft.Fits.put {draft draft' : Draft} {key : String} {tree : Tree} (h : draft.Fits room)
    (htree : tree.Fits room) (hput : draft.put key tree = .ok draft') : draft'.Fits room := by
  unfold Draft.put at hput
  split at hput
  · obtain ⟨_, -, hput⟩ := bind_eq_ok_iff.mp hput
    exact Except.ok.inj hput ▸ ⟨h.modifier, h.classes, h.methods, h.fields⟩
  · split at hput
    · obtain ⟨modifier, hread, hput⟩ := bind_eq_ok_iff.mp hput
      have hmodifier := ModifierEntry.spells.fits htree (fresh_eq_ok_iff.mp hread).2
      refine Except.ok.inj hput ▸ ⟨?_, h.classes, h.methods, h.fields⟩
      rintro _ ⟨⟩
      exact hmodifier
    · split at hput
      · obtain ⟨_, -, hput⟩ := bind_eq_ok_iff.mp hput
        exact Except.ok.inj hput ▸ ⟨h.modifier, h.classes, h.methods, h.fields⟩
      · split at hput
        · obtain ⟨classes, hread, hput⟩ := bind_eq_ok_iff.mp hput
          have hclasses := ClassPredicate.spells.fits htree (fresh_eq_ok_iff.mp hread).2
          refine Except.ok.inj hput ▸ ⟨h.modifier, ?_, h.methods, h.fields⟩
          rintro _ ⟨⟩
          exact hclasses
        · split at hput
          · obtain ⟨methods, hread, hput⟩ := bind_eq_ok_iff.mp hput
            refine Except.ok.inj hput ▸ ⟨h.modifier, h.classes, ?_, h.fields⟩
            rintro _ rfl
            exact MethodPredicate.spells.fits_of_orNull htree (fresh_eq_ok_iff.mp hread).2
          · split at hput
            · obtain ⟨fields, hread, hput⟩ := bind_eq_ok_iff.mp hput
              refine Except.ok.inj hput ▸ ⟨h.modifier, h.classes, h.methods, ?_⟩
              rintro _ rfl
              exact FieldPredicate.spells.fits_of_orNull htree (fresh_eq_ok_iff.mp hread).2
            · cases hput

/-- All members preserve that a draft fits. -/
theorem Draft.Fits.putAll {draft draft' : Draft} {members : List (String × Tree)}
    (h : draft.Fits room) (hmembers : ∀ member ∈ members, member.2.Fits room)
    (hput : draft.putAll members = .ok draft') : draft'.Fits room := by
  induction members generalizing draft with
  | nil => exact Except.ok.inj hput ▸ h
  | cons member members ih =>
    obtain ⟨hmember, hmembers⟩ := List.forall_mem_cons.mp hmembers
    obtain ⟨next, hnext, hput⟩ := bind_eq_ok_iff.mp hput
    exact ih (h.put hmember hnext) hmembers hput

theorem Draft.Fits.partsFit {draft : Draft} {entry : GroupEntry} (h : draft.Fits room)
    (hfinish : draft.finish = .ok entry) : entry.PartsFit room := by
  obtain ⟨name, -, hfinish⟩ := bind_eq_ok_iff.mp hfinish
  obtain ⟨modifier, hmodifier, hfinish⟩ := bind_eq_ok_iff.mp hfinish
  obtain ⟨kind, -, hfinish⟩ := bind_eq_ok_iff.mp hfinish
  obtain ⟨classes, hclasses, hfinish⟩ := bind_eq_ok_iff.mp hfinish
  obtain rfl := Except.ok.inj hfinish
  exact ⟨h.modifier _ (Tree.required_eq_ok_iff.mp hmodifier),
    h.classes _ (Tree.required_eq_ok_iff.mp hclasses), h.methods, h.fields⟩

/-- The parts of a group that is written as an array are among its items. -/
theorem partsFit_of_ofItems {items : List Tree} {tail : Tail} {entry : GroupEntry}
    (hitems : ∀ item ∈ items, item.Fits room) (h : ofItems items tail = .ok entry) :
    entry.PartsFit room := by
  obtain ⟨⟨name, items₁⟩, hname, h⟩ := bind_eq_ok_iff.mp h
  obtain ⟨_, -, h⟩ := bind_eq_ok_iff.mp h
  obtain ⟨⟨modifier, items₂⟩, hmodifier, h⟩ := bind_eq_ok_iff.mp h
  obtain ⟨_, hmodifier', h⟩ := bind_eq_ok_iff.mp h
  obtain ⟨⟨kind, items₃⟩, hkind, h⟩ := bind_eq_ok_iff.mp h
  obtain ⟨_, -, h⟩ := bind_eq_ok_iff.mp h
  obtain ⟨⟨classes, items₄⟩, hclasses, h⟩ := bind_eq_ok_iff.mp h
  obtain ⟨_, hclasses', h⟩ := bind_eq_ok_iff.mp h
  obtain ⟨⟨methods, items₅⟩, hmethods, h⟩ := bind_eq_ok_iff.mp h
  obtain ⟨⟨fields, items₆⟩, hfields, h⟩ := bind_eq_ok_iff.mp h
  obtain ⟨_, -, h⟩ := bind_eq_ok_iff.mp h
  obtain rfl := Except.ok.inj h
  have hitems₁ := fun item hitem => hitems item ((Tree.exists_of_nextItem hname).2 item hitem)
  have hitems₂ := fun item hitem => hitems₁ item ((Tree.exists_of_nextItem hmodifier).2 item hitem)
  have hitems₃ := fun item hitem => hitems₂ item ((Tree.exists_of_nextItem hkind).2 item hitem)
  have hitems₄ := fun item hitem => hitems₃ item ((Tree.exists_of_nextItem hclasses).2 item hitem)
  have hitems₅ := fun item hitem => hitems₄ item ((Tree.exists_of_nextItem hmethods).2 item hitem)
  refine ⟨?_, ?_, ?_, ?_⟩
  · obtain ⟨item, hitem, hread⟩ := (Tree.exists_of_nextItem hmodifier).1 _
      (Tree.required_eq_ok_iff.mp hmodifier')
    exact ModifierEntry.spells.fits (hitems₁ item hitem) hread
  · obtain ⟨item, hitem, hread⟩ := (Tree.exists_of_nextItem hclasses).1 _
      (Tree.required_eq_ok_iff.mp hclasses')
    exact ClassPredicate.spells.fits (hitems₃ item hitem) hread
  · intro predicate hpredicate
    obtain ⟨item, hitem, hread⟩ := (Tree.exists_of_nextItem hmethods).1 _
      (Option.join_eq_some_iff.mp hpredicate)
    exact MethodPredicate.spells.fits_of_orNull (hitems₄ item hitem) hread
  · intro predicate hpredicate
    obtain ⟨item, hitem, hread⟩ := (Tree.exists_of_nextItem hfields).1 _
      (Option.join_eq_some_iff.mp hpredicate)
    exact FieldPredicate.spells.fits_of_orNull (hitems₅ item hitem) hread

theorem closed_of_ofItems {items : List Tree} {tail : Tail} {entry : GroupEntry}
    (h : ofItems items tail = .ok entry) : tail = .closed := by
  obtain ⟨_, -, h⟩ := bind_eq_ok_iff.mp h
  obtain ⟨_, -, h⟩ := bind_eq_ok_iff.mp h
  obtain ⟨_, -, h⟩ := bind_eq_ok_iff.mp h
  obtain ⟨_, -, h⟩ := bind_eq_ok_iff.mp h
  obtain ⟨_, -, h⟩ := bind_eq_ok_iff.mp h
  obtain ⟨_, -, h⟩ := bind_eq_ok_iff.mp h
  obtain ⟨_, -, h⟩ := bind_eq_ok_iff.mp h
  obtain ⟨_, -, h⟩ := bind_eq_ok_iff.mp h
  obtain ⟨_, -, h⟩ := bind_eq_ok_iff.mp h
  obtain ⟨_, -, h⟩ := bind_eq_ok_iff.mp h
  obtain ⟨⟨⟩, hlast, -⟩ := bind_eq_ok_iff.mp h
  exact (Tree.lastItem_eq_ok_iff.mp hlast).2

theorem spells : Json.Spells ofTree toValue where
  read_tree entry := by
    rcases entry with ⟨name, modifier, kind, classes, methods, fields⟩
    have hmodifier := ModifierEntry.spells.read_tree modifier
    have hkind : Tree.name Kind.ofName? (.scalar (.string kind.name)) = .ok kind :=
      Kind.spells.read_tree kind
    have hclasses := ClassPredicate.spells.read_tree classes
    have hmethods := MethodPredicate.spells.orNull_tree nofun
    have hfields := FieldPredicate.spells.orNull_tree nofun
    cases methods <;> cases fields <;>
      simp [toValue, ofTree, Value.tree, Value.memberTrees, Draft.putAll, Draft.put, fresh,
        Draft.finish, Tree.required, Tree.string, Tail.check, hmodifier, hkind, hclasses,
        hmethods, hfields, bind, Except.bind, pure, Except.pure]
  fits := by
    intro room tree entry hfits hread
    unfold ofTree at hread
    split at hread
    · rename_i items tail
      obtain rfl := closed_of_ofItems hread
      obtain ⟨inner, rfl, hitems⟩ := hfits.exists_of_array
      exact (partsFit_of_ofItems hitems hread).fits
    · rename_i members tail
      obtain ⟨draft, hdraft, hread⟩ := bind_eq_ok_iff.mp hread
      obtain ⟨⟨⟩, htail, hfinish⟩ := bind_eq_ok_iff.mp hread
      obtain rfl := Json.Tail.check_eq_ok_iff.mp htail
      obtain ⟨inner, rfl, hmembers⟩ := hfits.exists_of_object
      exact (((Draft.fits_empty inner).putAll hmembers hdraft).partsFit hfinish).fits
    · cases hread
    · cases hread

end GroupEntry

/-! ## Rules files -/

namespace RulesFile

/-- The groups of a rules file are the value of one of its members. -/
theorem exists_of_groupsOf {old : Option (List GroupEntry)} {members : List (String × Tree)}
    {groups : List GroupEntry} (h : groupsOf old members = .ok (some groups)) :
    old = some groups ∨
      ∃ member ∈ members, Tree.list GroupEntry.ofTree member.2 = .ok groups := by
  induction members generalizing old with
  | nil => exact .inl (Except.ok.inj h)
  | cons member members ih =>
    rw [groupsOf] at h
    split at h
    · obtain ⟨found, hfound, h⟩ := bind_eq_ok_iff.mp h
      rcases ih h with heq | ⟨member', hmember', hread⟩
      · obtain rfl := Option.some.inj heq
        exact .inr ⟨member, List.mem_cons_self, (GroupEntry.fresh_eq_ok_iff.mp hfound).2⟩
      · exact .inr ⟨member', List.mem_cons_of_mem _ hmember', hread⟩
    · cases h

theorem spells : Json.Spells ofTree toValue where
  read_tree file := by
    have hgroups := GroupEntry.spells.list.read_tree file.groups
    rw [toValue, Value.tree, Value.memberTrees, Value.memberTrees, ofTree, groupsOf, if_pos rfl]
    simp only [GroupEntry.fresh, hgroups]
    rfl
  fits := by
    intro room tree file hfits hread
    unfold ofTree at hread
    split at hread
    · rename_i items tail
      obtain ⟨⟨groups, rest⟩, hgroups, hread⟩ := bind_eq_ok_iff.mp hread
      obtain ⟨_, hgroups', hread⟩ := bind_eq_ok_iff.mp hread
      obtain ⟨⟨⟩, hlast, hread⟩ := bind_eq_ok_iff.mp hread
      obtain rfl := Except.ok.inj hread
      obtain ⟨-, rfl⟩ := Tree.lastItem_eq_ok_iff.mp hlast
      obtain ⟨inner, rfl, hitems⟩ := hfits.exists_of_array
      obtain ⟨item, hitem, hread⟩ := (Tree.exists_of_nextItem hgroups).1 _
        (Tree.required_eq_ok_iff.mp hgroups')
      exact (GroupEntry.spells.list.fits (hitems item hitem) hread).lone
    · rename_i members tail
      obtain ⟨groups, hgroups, hread⟩ := bind_eq_ok_iff.mp hread
      obtain ⟨⟨⟩, htail, hread⟩ := bind_eq_ok_iff.mp hread
      obtain ⟨_, hgroups', hread⟩ := bind_eq_ok_iff.mp hread
      obtain rfl := Except.ok.inj hread
      obtain rfl := Json.Tail.check_eq_ok_iff.mp htail
      obtain ⟨inner, rfl, hmembers⟩ := hfits.exists_of_object
      obtain rfl := Tree.required_eq_ok_iff.mp hgroups'
      rcases exists_of_groupsOf hgroups with heq | ⟨member, hmember, hread⟩
      · cases heq
      · exact (GroupEntry.spells.list.fits (hmembers member hmember) hread).lone
    · cases hread
    · cases hread

/-- A rules file that fits is read back from its text. -/
theorem ofText_text {file : RulesFile} (h : file.toValue.Fits Tree.maxDepth) :
    ofText file.text = .ok file :=
  Value.read_compact h (spells.read_tree file)

/-- **What a text was read as is written to a text that is read as the same, and writing that once
more gives the identical text.** -/
theorem ofText_text_of_ofText {text : String} {file : RulesFile} (h : ofText text = .ok file) :
    ofText file.text = .ok file ∧ (ofText file.text).map RulesFile.text = .ok file.text := by
  have hread : ofText file.text = .ok file := spells.read_compact h
  exact ⟨hread, by rw [hread]; rfl⟩

/-- One group for all classes. -/
def anyClass : RulesFile := ⟨[⟨"g", .preset "public", .classes, .always, none, none⟩]⟩

/-- A spelling of it without the names of fields, and with an explicit null. -/
def positional : String := "[[[\"g\",\"public\",\"class\",\x7b\"match_any\":null\x7d]]]"

theorem ofText_positional : ofText positional = .ok anyClass := by
  have hchars : positional.toList = '[' :: '[' :: '[' :: (Value.quoted "g" ++ ',' ::
      (Value.quoted "public" ++ ',' :: (Value.quoted "class" ++ ',' :: '\x7b' ::
        (Value.quoted "match_any" ++ ':' :: 'n' :: 'u' :: 'l' :: 'l' :: '\x7d' :: ']' :: ']' ::
          ']' :: [])))) := by decide
  rw [ofText, Tree.read, hchars]
  simp only [Json.Token.ofText_openBracket, Json.Token.ofText_closeBracket,
    Json.Token.ofText_openBrace, Json.Token.ofText_closeBrace, Json.Token.ofText_comma,
    Json.Token.ofText_colon, Json.Token.ofText_null, Json.Token.ofText_quoted_append]
  rw [Json.Token.ofText]
  rfl

/-- The spelling is not the one that is written. -/
theorem ofText_text_of_positional :
    ofText positional = .ok anyClass ∧ positional ≠ anyClass.text ∧
      ofText anyClass.text = .ok anyClass ∧
      (ofText anyClass.text).map RulesFile.text = .ok anyClass.text :=
  ⟨ofText_positional, by decide, ofText_text_of_ofText ofText_positional⟩

end RulesFile

end AccessTransformer.Rules
