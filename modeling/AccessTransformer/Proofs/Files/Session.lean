import AccessTransformer.Files.Session
import AccessTransformer.Proofs.Files.Save

/-!
# Work that looks, and work that fails

A session goes through parts one after another.  Parts that only look at the files can be told by
their outcomes.  Behind any number of them, a part that changes no file when it fails makes a whole
that changes no file when it fails.

* `Looks`, `FailsSafe`: the two kinds of work.
* `Looks.perform_bind_eq_ok_iff`: when work succeeds that looks at first.
* `Looks.bind_failsSafe`: looking at first is safe.
-/

namespace AccessTransformer.Session

variable {α β : Type} {work : Session α} {next : α → Session β} {files after : FileSystem}

theorem perform_ofChange (change : FileSystem → FileSystem × Outcome α) :
    (ofChange change).perform files = change files := rfl

theorem perform_ofView (view : FileSystem → Outcome α) :
    (ofView view).perform files = (files, view files) := rfl

theorem perform_get_bind {next : FileSystem → Session β} :
    (get >>= next).perform files = (next files).perform files := rfl

theorem perform_bind : (work >>= next).perform files =
    match work.perform files with
    | (between, .ok a) => (next a).perform between
    | (between, .error failure) => (between, .error failure) := by
  show Prod.swap (ExceptT.bindCont next (work files).1 (work files).2) = _
  unfold perform
  rcases work files with ⟨failure | a, between⟩ <;> rfl

theorem perform_bind_of_ok {between : FileSystem} {a : α}
    (h : work.perform files = (between, .ok a)) :
    (work >>= next).perform files = (next a).perform between := by
  rw [perform_bind, h]

theorem perform_bind_of_error {failure : Failure}
    (h : work.perform files = (after, .error failure)) :
    (work >>= next).perform files = (after, .error failure) := by
  rw [perform_bind, h]

/-- Work in two parts succeeds if both do, the second one on what the first one leaves. -/
theorem perform_bind_eq_ok_iff {b : β} :
    (work >>= next).perform files = (after, .ok b) ↔
      ∃ between a, work.perform files = (between, .ok a) ∧
        (next a).perform between = (after, .ok b) := by
  rcases hwork : work.perform files with ⟨between, failure | a⟩
  · rw [perform_bind_of_error hwork]
    simp
  · rw [perform_bind_of_ok hwork]
    simp [and_assoc]

theorem perform_bind_pure_eq_ok_iff {f : α → β} {b : β} :
    (work >>= fun a => pure (f a)).perform files = (after, .ok b) ↔
      ∃ a, work.perform files = (after, .ok a) ∧ f a = b := by
  rcases hwork : work.perform files with ⟨between, failure | a⟩
  · rw [perform_bind_of_error hwork]
    simp
  · rw [perform_bind_of_ok hwork]
    show (between, Except.ok (f a)) = (after, Except.ok b) ↔ _
    simp [and_assoc]

theorem perform_during_eq_ok_iff {step : Step} {a : α} :
    (Session.during step work).perform files = (after, .ok a) ↔
      work.perform files = (after, .ok a) := by
  show ((work files).2, Outcome.during step (work files).1) = _ ↔ ((work files).2, _) = _
  rw [Prod.mk.injEq, Prod.mk.injEq, Outcome.during_eq_ok_iff]

/-! ## Looking -/

/-- Whether work leaves the files as they are, however it ends. -/
def Looks (work : Session α) : Prop := ∀ files, (work.perform files).1 = files

theorem looks_ofView (view : FileSystem → Outcome α) : (ofView view).Looks := fun _ => rfl

theorem Looks.during (h : work.Looks) (step : Step) : (Session.during step work).Looks := h

/-- Work that looks either fails on the same files or goes on with them. -/
theorem Looks.perform_bind (h : work.Looks) :
    (work >>= next).perform files =
      match (work.perform files).2 with
      | .ok a => (next a).perform files
      | .error failure => (files, .error failure) := by
  rcases houtcome : (work.perform files).2 with failure | a
  · exact perform_bind_of_error (Prod.ext (h files) houtcome)
  · exact perform_bind_of_ok (Prod.ext (h files) houtcome)

theorem Looks.bind (h : work.Looks) (hnext : ∀ a, (next a).Looks) : (work >>= next).Looks := by
  intro files
  rw [h.perform_bind]
  split
  · exact hnext _ files
  · rfl

/-- **Work that looks at first succeeds if both parts do, the second on the same files.** -/
theorem Looks.perform_bind_eq_ok_iff (h : work.Looks) {b : β} :
    (work >>= next).perform files = (after, .ok b) ↔
      ∃ a, (work.perform files).2 = .ok a ∧ (next a).perform files = (after, .ok b) := by
  rw [h.perform_bind]
  cases (work.perform files).2 with
  | error failure => simp
  | ok a => simp

theorem Looks.bind_eq_ok_iff (h : work.Looks) {b : β} :
    ((work >>= next).perform files).2 = .ok b ↔
      ∃ a, (work.perform files).2 = .ok a ∧ ((next a).perform files).2 = .ok b := by
  rw [h.perform_bind]
  cases (work.perform files).2 with
  | error failure => simp
  | ok a => simp

/-! ## Failing -/

/-- Whether work that fails leaves every file with its content, and no new one. -/
def FailsSafe (work : Session α) : Prop :=
  ∀ ⦃files after failure⦄, work.perform files = (after, .error failure) →
    ∀ location, after.file? location = files.file? location

/-- **Looking at first is safe.** -/
theorem Looks.bind_failsSafe (h : work.Looks) (hnext : ∀ a, (next a).FailsSafe) :
    (work >>= next).FailsSafe := by
  intro files after failure hperform location
  rw [h.perform_bind] at hperform
  split at hperform
  · exact hnext _ hperform location
  · rw [(Prod.mk.inj hperform).1]

theorem FailsSafe.bind_pure (h : work.FailsSafe) (f : α → β) :
    (work >>= fun a => pure (f a)).FailsSafe := by
  intro files after failure hperform
  rcases hwork : work.perform files with ⟨between, failure' | a⟩
  · rw [perform_bind_of_error hwork] at hperform
    obtain ⟨rfl, -⟩ := Prod.mk.inj hperform
    exact h hwork
  · rw [perform_bind_of_ok hwork] at hperform
    cases (Prod.mk.inj hperform).2

end AccessTransformer.Session
