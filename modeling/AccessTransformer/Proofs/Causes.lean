import AccessTransformer.Proofs.Archive.Walk
import AccessTransformer.Proofs.Files.Session

/-!
# Causes of failures

A failure gets steps on its way out and keeps its cause.  So work that is put together from other
work fails for no other causes, whatever the steps are in which it does so.

* `Outcome.Blames`, `Session.Blames`: outcomes and work that only fail for causes of a kind.
* `Blames.bind`, `Blames.during`, `Archive.blames_walk`: work that is put together.
-/

namespace AccessTransformer

variable {α β : Type} {kind other : Cause → Prop}

/-- Whether an outcome is a failure only if its cause is of a kind. -/
def Outcome.Blames (kind : Cause → Prop) (x : Outcome α) : Prop :=
  ∀ failure, x = .error failure → kind failure.cause

/-- Whether work only fails for causes of a kind. -/
def Session.Blames (kind : Cause → Prop) (work : Session α) : Prop :=
  ∀ files, (work.perform files).2.Blames kind

namespace Outcome

theorem blames_ok (a : α) : Blames kind (.ok a) := fun _ h => nomatch h

theorem blames_fail {cause : Cause} (h : kind cause) : Blames kind (fail cause : Outcome α) := by
  rintro _ ⟨⟩
  exact h

theorem blames_lift {ε : Type} {cause : ε → Cause} (h : ∀ fault, kind (cause fault))
    (x : Except ε α) : (lift cause x).Blames kind := by
  cases x with
  | ok a => exact blames_ok a
  | error fault => exact blames_fail (h fault)

namespace Blames

variable {x : Outcome α}

/-- A failure has the same cause wherever it is passed on. -/
theorem error {failure : Failure} (h : Blames kind (.error failure : Outcome α)) :
    Blames kind (.error failure : Outcome β) := by
  rintro _ ⟨⟩
  exact h failure rfl

theorem imp (h : x.Blames kind) (himp : ∀ cause, kind cause → other cause) : x.Blames other :=
  fun failure hfailure => himp _ (h failure hfailure)

theorem during (h : x.Blames kind) (step : Step) : (x.during step).Blames kind := by
  cases x with
  | ok a => exact blames_ok a
  | error failure =>
    rintro _ ⟨⟩
    exact h failure rfl

theorem map (h : x.Blames kind) (f : α → β) : Outcome.Blames kind (x.map f) := by
  cases x with
  | ok a => exact blames_ok (f a)
  | error failure => exact h.error

/-- **Two steps fail for no other causes than each of them.** -/
theorem bind {next : α → Outcome β} (h : x.Blames kind) (hnext : ∀ a, (next a).Blames kind) :
    (x >>= next).Blames kind := by
  cases x with
  | ok a => exact hnext a
  | error failure => exact h.error

theorem mapM {step : α → Outcome β} (h : ∀ a, (step a).Blames kind) (as : List α) :
    (as.mapM step).Blames kind := by
  induction as with
  | nil => exact blames_ok []
  | cons a as ih =>
    rw [List.mapM_cons]
    exact (h a).bind fun b => ih.bind fun bs => blames_ok (b :: bs)

end Blames

end Outcome

namespace Session

variable {work : Session α} {next : α → Session β}

theorem Blames.bind (h : work.Blames kind) (hnext : ∀ a, (next a).Blames kind) :
    (work >>= next).Blames kind := by
  intro files
  rw [perform_bind]
  have hwork := h files
  rcases hperform : work.perform files with ⟨between, failure | a⟩
  · rw [hperform] at hwork
    exact hwork.error
  · exact hnext a between

theorem Blames.during (h : work.Blames kind) (step : Step) :
    (Session.during step work).Blames kind :=
  fun files => (h files).during step

theorem blames_pure (a : α) : (pure a : Session α).Blames kind := fun _ => Outcome.blames_ok a

theorem blames_ofView {view : FileSystem → Outcome α} (h : ∀ files, (view files).Blames kind) :
    (ofView view).Blames kind := h

theorem blames_ofChange {change : FileSystem → FileSystem × Outcome α}
    (h : ∀ files, (change files).2.Blames kind) : (ofChange change).Blames kind := h

end Session

/-- Going through an archive fails as one of its entries does. -/
theorem Archive.blames_walk {σ : Type} {step : σ → Entry → σ × Outcome Unit}
    (h : ∀ state entry, (step state entry).2.Blames kind) (archive : Archive) (state : σ) :
    Outcome.Blames kind (archive.walk step state).2 := by
  rw [walk]
  rcases steps_cases step state archive.classes with ⟨after, hall⟩ |
    ⟨before, entry, behind, middle, after, failure, hsplit, hbefore, hfails⟩
  · rw [steps_eq_ok hall]
    exact Outcome.blames_ok _
  · rw [hsplit, steps_eq_error hbefore hfails]
    have hblames := h middle entry
    rw [hfails] at hblames
    exact hblames.error

end AccessTransformer
