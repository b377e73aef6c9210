import AccessTransformer.Proofs.Partners

/-!
# Outcomes of several steps

Steps that each may fail succeed together exactly if each of them does, with what the ones before
have given.

* `bind_eq_ok_iff`, `map_eq_ok_iff`: two steps, and a step whose result is changed.
* `mapM_eq_ok_iff`, `mapM_map_eq_ok`: the same step for every entry of a list.
* `exists_bind_eq_ok_iff`, `exists_mapM_eq_ok_iff`: whether they succeed.
* `exists_of_mapM_eq_error`: where the same step fails.
-/

namespace AccessTransformer

variable {α β ε : Type}

theorem bind_eq_ok_iff {x : Except ε α} {f : α → Except ε β} {b : β} :
    (x >>= f) = .ok b ↔ ∃ a, x = .ok a ∧ f a = .ok b := by
  cases x with
  | error e => exact ⟨nofun, fun ⟨_, h, _⟩ => nomatch h⟩
  | ok a => exact ⟨fun h => ⟨a, rfl, h⟩, fun ⟨_, h, h'⟩ => Except.ok.inj h ▸ h'⟩

/-- Two steps succeed if the first one does, and then the second one with what it gives. -/
theorem exists_bind_eq_ok_iff {x : Except ε α} {f : α → Except ε β} :
    (∃ b, (x >>= f) = .ok b) ↔ ∃ a, x = .ok a ∧ ∃ b, f a = .ok b := by
  simp only [bind_eq_ok_iff]
  exact ⟨fun ⟨b, a, h, h'⟩ => ⟨a, h, b, h'⟩, fun ⟨a, h, b, h'⟩ => ⟨b, a, h, h'⟩⟩

theorem map_eq_ok_iff {x : Except ε α} {f : α → β} {b : β} :
    x.map f = .ok b ↔ ∃ a, x = .ok a ∧ f a = b := by
  cases x with
  | error e => exact ⟨nofun, fun ⟨_, h, _⟩ => nomatch h⟩
  | ok a => exact ⟨fun h => ⟨a, rfl, Except.ok.inj h⟩, fun ⟨_, h, h'⟩ => Except.ok.inj h ▸ h' ▸ rfl⟩

theorem mapM_eq_ok_iff {f : α → Except ε β} {as : List α} {bs : List β} :
    as.mapM f = .ok bs ↔ List.Forall₂ (fun a b => f a = .ok b) as bs := by
  refine ⟨fun h => ?_, mapM_eq_ok⟩
  induction as generalizing bs with
  | nil =>
    obtain rfl := Except.ok.inj h
    exact .nil
  | cons a as ih =>
    rw [List.mapM_cons, bind_eq_ok_iff] at h
    obtain ⟨b, hb, h⟩ := h
    obtain ⟨rest, hrest, h⟩ := bind_eq_ok_iff.mp h
    obtain rfl := Except.ok.inj h
    exact .cons hb (ih hrest)

/-- The same step succeeds for a list exactly if it does so for every entry. -/
theorem exists_mapM_eq_ok_iff {f : α → Except ε β} {as : List α} :
    (∃ bs, as.mapM f = .ok bs) ↔ ∀ a ∈ as, ∃ b, f a = .ok b := by
  constructor
  · rintro ⟨bs, h⟩ a ha
    obtain ⟨b, -, hb⟩ := exists_of_forall₂_of_mem (mapM_eq_ok_iff.mp h).flip ha
    exact ⟨b, hb⟩
  · intro h
    obtain ⟨bs, hbs⟩ := exists_forall₂ h
    exact ⟨bs, mapM_eq_ok_iff.mpr hbs⟩

/-- Where it fails, it does so for the first entry for which it can. -/
theorem exists_of_mapM_eq_error {f : α → Except ε β} {as : List α} {e : ε}
    (h : as.mapM f = .error e) : ∃ front a back, as = front ++ a :: back ∧
      (∀ before ∈ front, ∃ b, f before = .ok b) ∧ f a = .error e := by
  induction as with
  | nil => exact nomatch h
  | cons a as ih =>
    rw [List.mapM_cons] at h
    cases ha : f a with
    | error e' =>
      rw [ha] at h
      obtain rfl : e' = e := Except.error.inj h
      exact ⟨[], a, as, rfl, nofun, ha⟩
    | ok b =>
      rw [ha] at h
      have hrest : as.mapM f = .error e := by
        cases hrest : as.mapM f with
        | error e' =>
          rw [hrest] at h
          exact h
        | ok bs =>
          rw [hrest] at h
          exact nomatch h
      obtain ⟨front, later, back, rfl, hfront, hlater⟩ := ih hrest
      exact ⟨a :: front, later, back, rfl, List.forall_mem_cons.mpr ⟨⟨b, ha⟩, hfront⟩, hlater⟩

/-- Entries that are each read back are read back together. -/
theorem mapM_map_eq_ok {read : β → Except ε α} {write : α → β} (h : ∀ a, read (write a) = .ok a)
    (as : List α) : (as.map write).mapM read = .ok as :=
  mapM_eq_ok (List.forall₂_map_left_iff.mpr (List.forall₂_same.mpr fun a _ => h a))

end AccessTransformer
