/-!
# The order of texts

Texts are in the order of their characters, and characters in that of their numbers; a text comes
before those that it starts.  Since UTF-8 keeps the order of characters, this is the order of the
bytes as well.  Lists of texts are in the same kind of order, with texts in the place of characters.

The order is total, and only equal texts come before each other, so there is just one way to put a
list of texts in order.
-/

namespace AccessTransformer.Text

/-! ## Lists -/

section Lexicographic

variable {α : Type} [DecidableEq α]

/-- Whether a list comes before another one, or is equal to it, given the same for elements. -/
def listLe (le : α → α → Bool) : List α → List α → Bool
  | [], _ => true
  | _ :: _, [] => false
  | a :: as, b :: bs => if a = b then listLe le as bs else le a b

theorem listLe_total {le : α → α → Bool} (h : ∀ a b, le a b = true ∨ le b a = true)
    (as bs : List α) : listLe le as bs = true ∨ listLe le bs as = true := by
  induction as generalizing bs with
  | nil => exact Or.inl rfl
  | cons a as ih =>
    cases bs with
    | nil => exact Or.inr rfl
    | cons b bs =>
      by_cases hab : a = b
      · subst hab
        simpa only [listLe, if_true] using ih bs
      · simpa only [listLe, if_neg hab, if_neg (Ne.symm hab)] using h a b

theorem listLe_antisymm {le : α → α → Bool}
    (h : ∀ a b, le a b = true → le b a = true → a = b) {as bs : List α}
    (hle : listLe le as bs = true) (hge : listLe le bs as = true) : as = bs := by
  induction as generalizing bs with
  | nil =>
    cases bs with
    | nil => rfl
    | cons b bs => cases hge
  | cons a as ih =>
    cases bs with
    | nil => cases hle
    | cons b bs =>
      by_cases hab : a = b
      · subst hab
        simp only [listLe, if_true] at hle hge
        rw [ih hle hge]
      · simp only [listLe, if_neg hab, if_neg (Ne.symm hab)] at hle hge
        exact absurd (h a b hle hge) hab

theorem listLe_trans {le : α → α → Bool}
    (hanti : ∀ a b, le a b = true → le b a = true → a = b)
    (htrans : ∀ a b c, le a b = true → le b c = true → le a c = true) {as bs cs : List α}
    (hab : listLe le as bs = true) (hbc : listLe le bs cs = true) : listLe le as cs = true := by
  induction as generalizing bs cs with
  | nil => rfl
  | cons a as ih =>
    cases bs with
    | nil => cases hab
    | cons b bs =>
      cases cs with
      | nil => cases hbc
      | cons c cs =>
        simp only [listLe] at hab hbc ⊢
        split at hab
        · rename_i h
          subst h
          split at hbc
          · rename_i h
            subst h
            rw [if_pos rfl]
            exact ih hab hbc
          · rename_i h
            rw [if_neg h]
            exact hbc
        · rename_i hne
          split at hbc
          · rename_i h
            subst h
            rw [if_neg hne]
            exact hab
          · split
            · rename_i h
              subst h
              exact absurd (hanti a b hab hbc) hne
            · exact htrans a b c hab hbc

end Lexicographic

/-! ## Texts -/

/-- Whether a character comes before another one, or is equal to it. -/
def charLe (a b : Char) : Bool := Nat.ble a.toNat b.toNat

/-- Whether a text comes before another one, or is equal to it. -/
def le (a b : String) : Bool := listLe charLe a.toList b.toList

/-- Whether a list of texts comes before another one, or is equal to it. -/
def namesLe (as bs : List String) : Bool := listLe le as bs

/-- Texts in order. -/
def sort (texts : List String) : List String := texts.mergeSort le

theorem charLe_total (a b : Char) : charLe a b = true ∨ charLe b a = true := by
  simp only [charLe, Nat.ble_eq]
  exact Nat.le_total _ _

theorem charLe_antisymm (a b : Char) (hab : charLe a b = true) (hba : charLe b a = true) :
    a = b := by
  simp only [charLe, Nat.ble_eq] at hab hba
  exact Char.toNat_inj.1 (Nat.le_antisymm hab hba)

theorem charLe_trans (a b c : Char) (hab : charLe a b = true) (hbc : charLe b c = true) :
    charLe a c = true := by
  simp only [charLe, Nat.ble_eq] at hab hbc ⊢
  exact Nat.le_trans hab hbc

theorem le_total (a b : String) : le a b = true ∨ le b a = true :=
  listLe_total charLe_total _ _

theorem le_antisymm {a b : String} (hab : le a b = true) (hba : le b a = true) : a = b :=
  String.toList_inj.1 (listLe_antisymm charLe_antisymm hab hba)

theorem le_trans {a b c : String} (hab : le a b = true) (hbc : le b c = true) : le a c = true :=
  listLe_trans charLe_antisymm charLe_trans hab hbc

end AccessTransformer.Text
