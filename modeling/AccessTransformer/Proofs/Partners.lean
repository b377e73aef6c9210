import Mathlib.Data.List.Forall2

/-!
# Lists of partners

Two lists that are related entry by entry: each entry of one has its partner at the same place of
the other.

* `exists_forall₂`, `eq_of_forall₂`: there is such a list of partners, and there is one only.
* `exists_of_forall₂_of_mem`: the partner of an entry.
* `pairwise_of_forall₂`, `forall₂_of_forall₂`: what holds between partners.
* `mapM_eq_ok`: a step that succeeds for every entry succeeds for the list.
-/

namespace AccessTransformer

/-- Where every entry of a list has a partner, the list has a list of partners. -/
theorem exists_forall₂ {α β : Type} {R : α → β → Prop} {as : List α}
    (h : ∀ a ∈ as, ∃ b, R a b) : ∃ bs, List.Forall₂ R as bs := by
  induction as with
  | nil => exact ⟨[], .nil⟩
  | cons a as ih =>
    obtain ⟨⟨b, hb⟩, has⟩ := List.forall_mem_cons.mp h
    obtain ⟨bs, hbs⟩ := ih has
    exact ⟨b :: bs, .cons hb hbs⟩

/-- Entries that each have at most one partner have at most one list of partners. -/
theorem eq_of_forall₂ {α β : Type} {R : α → β → Prop} {as : List α} {bs bs' : List β}
    (hR : ∀ a b b', R a b → R a b' → b = b') (h : List.Forall₂ R as bs)
    (h' : List.Forall₂ R as bs') : bs = bs' :=
  List.right_unique_forall₂' (fun a b b' => hR a b b') h h'

/-- Where two lists are related entry by entry, every entry of the second has a partner. -/
theorem exists_of_forall₂_of_mem {α β : Type} {R : α → β → Prop} {as : List α} {bs : List β}
    (h : List.Forall₂ R as bs) {b : β} (hb : b ∈ bs) : ∃ a ∈ as, R a b := by
  induction h with
  | nil => cases hb
  | cons hab _ ih =>
    rcases List.mem_cons.mp hb with rfl | hb
    · exact ⟨_, List.mem_cons_self, hab⟩
    · obtain ⟨a, ha, hR⟩ := ih hb
      exact ⟨a, List.mem_cons_of_mem _ ha, hR⟩

/-- What holds between the entries of a list holds between their partners, if it can be told by
them. -/
theorem pairwise_of_forall₂ {α β : Type} {R : α → β → Prop} {P : α → α → Prop} {Q : β → β → Prop}
    {as : List α} {bs : List β} (hQ : ∀ a b a' b', R a b → R a' b' → P a a' → Q b b')
    (h : List.Forall₂ R as bs) (hP : as.Pairwise P) : bs.Pairwise Q := by
  induction h with
  | nil => exact .nil
  | cons hab hrest ih =>
    obtain ⟨hfirst, hP⟩ := List.pairwise_cons.mp hP
    refine List.pairwise_cons.mpr ⟨fun b' hb' => ?_, ih hP⟩
    obtain ⟨a', ha', hab'⟩ := exists_of_forall₂_of_mem hrest hb'
    exact hQ _ _ _ _ hab hab' (hfirst a' ha')

/-- The partners of the same entries in two lists are partners of each other. -/
theorem forall₂_of_forall₂ {α β γ : Type} {R : α → β → Prop} {S : α → γ → Prop} {T : β → γ → Prop}
    {as : List α} {bs : List β} {cs : List γ} (hT : ∀ a b c, R a b → S a c → T b c)
    (h : List.Forall₂ R as bs) (h' : List.Forall₂ S as cs) : List.Forall₂ T bs cs := by
  induction h generalizing cs with
  | nil =>
    cases h'
    exact .nil
  | cons hab _ ih =>
    cases h' with
    | cons hac hrest => exact .cons (hT _ _ _ hab hac) (ih hrest)

/-- Where a step succeeds for every entry of a list, it does so for the whole list. -/
theorem mapM_eq_ok {α β ε : Type} {f : α → Except ε β} {as : List α} {bs : List β}
    (h : List.Forall₂ (fun a b => f a = .ok b) as bs) : as.mapM f = .ok bs := by
  induction h with
  | nil => rfl
  | cons hfirst _ ih =>
    rw [List.mapM_cons, hfirst, ih]
    rfl

end AccessTransformer
