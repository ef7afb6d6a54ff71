import Mathlib.Data.List.Basic

/-!
Runs of a total step function.

`AllSteps` says of every step of a run what holds of it and of the state it is
taken in. The rule compares two such properties: where they agree in the states of
an invariant that they keep, they agree over whole runs.
-/
namespace Foundation
variable {σ α : Type}

/-- `P` holds of each of the actions in the state it is taken in. -/
def AllSteps (step : σ → α → σ) (P : σ → α → Prop) : σ → List α → Prop
  | _, [] => True
  | s, a :: actions => P s a ∧ AllSteps step P (step s a) actions

namespace AllSteps
variable {step : σ → α → σ} {P Q : σ → α → Prop} {I : σ → Prop} {s : σ} {actions : List α}

theorem iff_of_invariant (agree : ∀ s a, I s → (P s a ↔ Q s a))
    (keep : ∀ s a, I s → Q s a → I (step s a)) (hs : I s) :
    AllSteps step P s actions ↔ AllSteps step Q s actions := by
  induction actions generalizing s with
  | nil => exact Iff.rfl
  | cons a actions ih =>
      constructor
      · intro h
        have ha := (agree s a hs).mp h.1
        exact ⟨ha, (ih (keep s a hs ha)).mp h.2⟩
      · intro h
        exact ⟨(agree s a hs).mpr h.1, (ih (keep s a hs h.1)).mpr h.2⟩

theorem append {before after : List α} : AllSteps step P s (before ++ after) ↔
    AllSteps step P s before ∧ AllSteps step P (before.foldl step s) after := by
  induction before generalizing s with
  | nil => exact (and_iff_right trivial).symm
  | cons a before ih =>
      rw [List.cons_append, AllSteps, ih, AllSteps, List.foldl_cons]
      exact and_assoc.symm

end AllSteps
end Foundation
