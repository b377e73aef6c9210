import AccessTransformer.Proofs.Json.Tree
import AccessTransformer.Proofs.Json.Value
import AccessTransformer.Proofs.Outcomes

/-!
# What is written as it is read

A reader of trees and a writer of values belong together if what is written is read back, and if
writing needs no more room than reading did: there may be other trees for the same thing, with more
in them, but none that is less deep.  Then whatever a text was read as has a text of its own, which
is read as the same (`Spells.read_compact`).

* `Spells`: a reader and a writer belong together.
* `spells_name`, `Spells.list`: those for names and lists.
-/

namespace AccessTransformer.Json

theorem Tail.check_eq_ok_iff {tail : Tail} : tail.check = .ok () ↔ tail = .closed := by
  cases tail <;> simp [Tail.check]

namespace Tree

variable {room : Nat} {items : List Tree} {members : List (String × Tree)}

theorem loneMember_eq_ok_iff {tail : Tail} :
    loneMember members tail = .ok () ↔ members = [] ∧ tail = .closed := by
  cases members <;> cases tail <;> simp [loneMember]

/-- What is read of the member that stands for an alternative is read if it is a lone member. -/
theorem bind_loneMember_eq_ok_iff {α β : Type} {x : Except Fault α} {f : α → β} {tail : Tail}
    {b : β} : (do let a ← x; loneMember members tail; return f a) = .ok b ↔
      (∃ a, x = .ok a ∧ f a = b) ∧ members = [] ∧ tail = .closed := by
  rw [bind_eq_ok_iff]
  constructor
  · rintro ⟨a, ha, h⟩
    obtain ⟨⟨⟩, hlone, h⟩ := bind_eq_ok_iff.mp h
    exact ⟨⟨a, ha, Except.ok.inj h⟩, loneMember_eq_ok_iff.mp hlone⟩
  · rintro ⟨⟨a, ha, rfl⟩, hlone⟩
    exact ⟨a, ha, bind_eq_ok_iff.mpr ⟨(), loneMember_eq_ok_iff.mpr hlone, rfl⟩⟩

theorem eq_closed_of_check_array {tail : Tail} (h : (Tree.array items tail).check = .ok ()) :
    tail = .closed := by
  rw [check, bind_eq_ok_iff] at h
  obtain ⟨⟨⟩, -, htail⟩ := h
  exact Tail.check_eq_ok_iff.mp htail

theorem check_of_checkMembers (h : checkMembers members = .ok ()) :
    ∀ member ∈ members, member.2.check = .ok () := by
  induction members with
  | nil => exact nofun
  | cons member members ih =>
    rw [checkMembers, bind_eq_ok_iff] at h
    obtain ⟨⟨⟩, hvalue, hmembers⟩ := h
    exact List.forall_mem_cons.mpr ⟨hvalue, ih hmembers⟩

/-- An object without a problem is closed, and there is none in its members. -/
theorem closed_of_check_object {tail : Tail} (h : (Tree.object members tail).check = .ok ()) :
    tail = .closed ∧ ∀ member ∈ members, member.2.check = .ok () := by
  rw [check, bind_eq_ok_iff] at h
  obtain ⟨⟨⟩, hmembers, htail⟩ := h
  exact ⟨Tail.check_eq_ok_iff.mp htail, check_of_checkMembers hmembers⟩

theorem required_eq_ok_iff {α : Type} {o : Option α} {a : α} :
    required o = .ok a ↔ o = some a := by
  cases o <;> simp [required]

theorem lastItem_eq_ok_iff {tail : Tail} :
    lastItem tail items = .ok () ↔ items = [] ∧ tail = .closed := by
  cases items <;> simp [lastItem, Tail.check_eq_ok_iff]

/-- The next field of a record is one of the items, and so is what stands behind it. -/
theorem exists_of_nextItem {α : Type} {read : Tree → Except Fault α} {tail : Tail}
    {rest : List Tree} {o : Option α} (h : nextItem read tail items = .ok (o, rest)) :
    (∀ a, o = some a → ∃ item ∈ items, read item = .ok a) ∧ ∀ item ∈ rest, item ∈ items := by
  cases items with
  | nil =>
    obtain ⟨⟨⟩, -, h⟩ := bind_eq_ok_iff.mp h
    obtain ⟨rfl, rfl⟩ := Prod.mk.inj (Except.ok.inj h)
    exact ⟨nofun, nofun⟩
  | cons item items =>
    obtain ⟨a, hread, h⟩ := bind_eq_ok_iff.mp h
    obtain ⟨rfl, rfl⟩ := Prod.mk.inj (Except.ok.inj h)
    refine ⟨?_, fun item hitem => List.mem_cons_of_mem _ hitem⟩
    rintro _ ⟨⟩
    exact ⟨item, List.mem_cons_self, hread⟩

/-- What is in a closed array has less room. -/
theorem Fits.exists_of_array (h : (Tree.array items .closed).Fits room) :
    ∃ inner, room = inner + 1 ∧ ∀ item ∈ items, item.Fits inner := by
  cases h with
  | @array inner _ h => exact ⟨inner, rfl, h⟩
  | unclosedArray h => exact absurd rfl h

/-- What is in a closed object has less room. -/
theorem Fits.exists_of_object (h : (Tree.object members .closed).Fits room) :
    ∃ inner, room = inner + 1 ∧ ∀ member ∈ members, member.2.Fits inner := by
  cases h with
  | @object inner _ h => exact ⟨inner, rfl, h⟩
  | unclosedObject h => exact absurd rfl h

/-- The value of a lone member has less room. -/
theorem Fits.exists_of_lone {key : String} {tree : Tree}
    (h : (Tree.object [(key, tree)] .closed).Fits room) :
    ∃ inner, room = inner + 1 ∧ tree.Fits inner := by
  obtain ⟨inner, hroom, h⟩ := h.exists_of_object
  exact ⟨inner, hroom, h _ List.mem_cons_self⟩

end Tree

namespace Value

/-- The value of a lone member has less room than the object. -/
theorem Fits.lone {room : Nat} {key : String} {value : Value} (h : value.Fits room) :
    (Value.object [(key, value)]).Fits (room + 1) :=
  .object (List.forall_mem_singleton.mpr h)

mutual

/-- There is no problem anywhere in a written value. -/
theorem check_tree : ∀ value : Value, value.tree.check = .ok ()
  | .null => rfl
  | .bool _ => rfl
  | .natural _ => rfl
  | .string _ => rfl
  | .array items => by
    rw [tree, Tree.check, check_trees items]
    rfl
  | .object members => by
    rw [tree, Tree.check, check_memberTrees members]
    rfl

theorem check_trees : ∀ items : List Value, Tree.checkItems (trees items) = .ok ()
  | [] => rfl
  | item :: items => by
    rw [trees, Tree.checkItems, check_tree item]
    exact check_trees items

theorem check_memberTrees :
    ∀ members : List (String × Value), Tree.checkMembers (memberTrees members) = .ok ()
  | [] => rfl
  | (_, value) :: members => by
    rw [memberTrees, Tree.checkMembers, check_tree value]
    exact check_memberTrees members

end

end Value

/-! ## Readers and writers -/

/-- Whether what is written is read back, and nothing can be read with less room than it takes to
write it. -/
structure Spells {α : Type} (read : Tree → Except Fault α) (write : α → Value) : Prop where
  read_tree : ∀ a, read (write a).tree = .ok a
  fits : ∀ {room : Nat} {tree : Tree} {a : α}, tree.Fits room → read tree = .ok a →
    (write a).Fits room

namespace Spells

variable {α : Type} {read : Tree → Except Fault α} {write : α → Value}

/-- **What a text is read as has a text of its own, which is read as the same.** -/
theorem read_compact (h : Spells read write) {text : String} {a : α}
    (hread : Tree.read read text = .ok a) : Tree.read read (write a).compact = .ok a := by
  obtain ⟨a', htree, hrest⟩ := bind_eq_ok_iff.mp hread
  obtain rfl : a' = a := by
    split at hrest
    · exact Except.ok.inj hrest
    · cases hrest
  exact Value.read_compact (h.fits (Tree.ofTokens_fits _) htree) (h.read_tree a')

/-- A list is spelled item by item. -/
theorem list (h : Spells read write) :
    Spells (Tree.list read) fun as => .array (as.map write) where
  read_tree as := by
    have hitems : (as.map (Value.tree ∘ write)).mapM read = .ok as :=
      mapM_map_eq_ok h.read_tree as
    rw [Value.tree, Value.trees_eq_map, Tree.list, List.map_map, hitems]
    rfl
  fits := by
    intro room tree as hfits hread
    unfold Tree.list at hread
    split at hread
    · rename_i items tail
      obtain ⟨as', has, hread⟩ := bind_eq_ok_iff.mp hread
      obtain ⟨⟨⟩, htail, hread⟩ := bind_eq_ok_iff.mp hread
      obtain rfl := Except.ok.inj hread
      rw [Tail.check_eq_ok_iff] at htail
      subst htail
      obtain ⟨inner, rfl, hitems⟩ := hfits.exists_of_array
      refine .array (List.forall_mem_map.mpr fun a ha => ?_)
      obtain ⟨item, hitem, hread⟩ := exists_of_forall₂_of_mem (mapM_eq_ok_iff.mp has) ha
      exact h.fits (hitems item hitem) hread
    · cases hread
    · cases hread

end Spells

/-- What is not null is read where it may be null. -/
theorem Spells.orNull_tree {α : Type} {read : Tree → Except Fault α} {write : α → Value}
    (h : Spells read write) (hnull : ∀ a, read (.scalar .null) ≠ .ok a) (a : α) :
    Tree.orNull read (write a).tree = .ok (some a) := by
  have hread := h.read_tree a
  unfold Tree.orNull
  split
  · rename_i heq
    exact absurd (heq ▸ hread) (hnull a)
  · rename_i heq
    cases hwrite : write a <;> simp [hwrite, Value.tree] at heq
  · rw [hread]
    rfl

theorem Spells.fits_of_orNull {α : Type} {read : Tree → Except Fault α} {write : α → Value}
    (h : Spells read write) {room : Nat} {tree : Tree} {a : α} (hfits : tree.Fits room)
    (hread : Tree.orNull read tree = .ok (some a)) : (write a).Fits room := by
  unfold Tree.orNull at hread
  split at hread
  · cases hread
  · cases hread
  · obtain ⟨a', hread, heq⟩ := map_eq_ok_iff.mp hread
    exact h.fits hfits (Option.some.inj heq ▸ hread)

/-- An alternative that is given by its name alone is written as its name. -/
theorem spells_name {α : Type} {named? : String → Option α} {name : α → String}
    (h : ∀ a, named? (name a) = some a) :
    Spells (Tree.name named?) fun a => .string (name a) where
  read_tree a := by
    rw [Value.tree, Tree.name, h a]
  fits _ _ := .string _

end AccessTransformer.Json
