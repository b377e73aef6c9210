/-!
# Faults of JSON texts

A JSON text is read from left to right into the value it stands for, and the first problem that is
met decides.  What a problem is called depends on who could have noticed it: a text that stops too
early, a text that is no JSON, or one that is JSON of another shape than the reader expects.
-/

namespace AccessTransformer.Json

/-- Why a JSON text does not give a value. -/
inductive Fault where
  /-- The text ends before the value does. -/
  | truncated
  /-- The text is not JSON here, or nests too deeply. -/
  | malformed
  /-- The value has another shape than expected. -/
  | mismatched
  deriving DecidableEq, Repr

/-- The wording of a fault. -/
def Fault.message : Fault → String
  | .truncated => "<json eof>"
  | .malformed => "<json syntax>"
  | .mismatched => "<json data>"

/-- A reader that changes what another one found leaves the same rest. -/
theorem exists_of_map_ok {α β γ : Type} {x : Except Fault α} {value : α → β} {rest : α → γ}
    {b : β} {c : γ} (h : x.map (fun a => (value a, rest a)) = .ok (b, c)) :
    ∃ a, x = .ok a ∧ rest a = c := by
  cases x with
  | error fault => simp [Except.map] at h
  | ok a =>
    simp only [Except.map, Except.ok.injEq, Prod.mk.injEq] at h
    exact ⟨a, rfl, h.2⟩

end AccessTransformer.Json
