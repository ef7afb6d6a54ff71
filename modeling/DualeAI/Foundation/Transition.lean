import Mathlib.Data.List.Induction

/-!
Partial step functions and their runs.

`step s a` is the state after action `a` where `s` allows it. A run records the
actions it took, so that an invariant can speak about the history.
-/
namespace Foundation
variable {σ α : Type}

/-- Taking `actions` one after another leads from `s` to `t`. -/
inductive Run (step : σ → α → Option σ) (s : σ) : (actions : List α) → (t : σ) → Prop where
  | nil : Run step s [] s
  | snoc {past : List α} {t u : σ} {a : α} (hrun : Run step s past t)
      (hstep : step t a = some u) : Run step s (past ++ [a]) u

/-- The steps that `allowed` permits. -/
def restrict (allowed : σ → α → Bool) (step : σ → α → Option σ) (s : σ) (a : α) : Option σ :=
  if allowed s a then step s a else none

theorem restrict_eq_some {allowed : σ → α → Bool} {step : σ → α → Option σ} {s t : σ} {a : α} :
    restrict allowed step s a = some t ↔ allowed s a = true ∧ step s a = some t := by
  rw [restrict]
  split <;> simp [*]

namespace Run
variable {step : σ → α → Option σ} {s t u : σ} {past more : List α}

theorem single {a : α} (h : step s a = some t) : Run step s [a] t := .snoc .nil h

theorem append (h : Run step s past t) (hmore : Run step t more u) :
    Run step s (past ++ more) u := by
  induction hmore with
  | nil => rwa [List.append_nil]
  | snoc _ hstep ih =>
      rw [← List.append_assoc]
      exact .snoc ih hstep

theorem restricted {allowed : σ → α → Bool} (h : Run step s past t)
    (hpast : ∀ a ∈ past, ∀ s, allowed s a = true) : Run (restrict allowed step) s past t := by
  induction h with
  | nil => exact .nil
  | snoc _ hstep ih =>
      have hbefore := ih fun a hmem => hpast a (List.mem_append_left _ hmem)
      have hlast := hpast _ (List.mem_append_right _ (List.mem_singleton_self _))
      exact .snoc hbefore (restrict_eq_some.mpr ⟨hlast _, hstep⟩)

theorem unrestricted {allowed : σ → α → Bool} (h : Run (restrict allowed step) s past t) :
    Run step s past t := by
  induction h with
  | nil => exact .nil
  | snoc _ hstep ih => exact .snoc ih (restrict_eq_some.mp hstep).2

/-- Invariant rule over the history and the state it leads to. -/
theorem invariant {I : List α → σ → Prop} (init : I [] s)
    (next : ∀ past t a u, I past t → step t a = some u → I (past ++ [a]) u)
    (h : Run step s past t) : I past t := by
  induction h with
  | nil => exact init
  | snoc _ hstep ih => exact next _ _ _ _ ih hstep

/-- Two invariants, the second kept where the first holds. -/
theorem invariant_of {I J : List α → σ → Prop} (hI : ∀ past t, Run step s past t → I past t)
    (init : J [] s)
    (next : ∀ past t a u, I past t → J past t → step t a = some u → J (past ++ [a]) u)
    (h : Run step s past t) : J past t := by
  induction h with
  | nil => exact init
  | snoc hrun hstep ih => exact next _ _ _ _ (hI _ _ hrun) ih hstep

/-- A run maps to a run of another system, where each step is one of its steps or none;
what both show of their actions agrees. -/
theorem simulated {τ β γ : Type} {step' : τ → β → Option τ} (f : σ → τ) (shows : α → Option γ)
    (shows' : β → Option γ)
    (next : ∀ past t a u, Run step s past t → step t a = some u →
      f u = f t ∧ shows a = none ∨ ∃ b, step' (f t) b = some (f u) ∧ shows' b = shows a)
    (h : Run step s past t) :
    ∃ trace, Run step' (f s) trace (f t) ∧ trace.filterMap shows' = past.filterMap shows := by
  induction h with
  | nil => exact ⟨[], .nil, rfl⟩
  | snoc hrun hstep ih =>
      obtain ⟨trace, htrace, heq⟩ := ih
      rw [List.filterMap_append, ← heq]
      cases next _ _ _ _ hrun hstep with
      | inl hsame =>
          refine ⟨trace, hsame.1 ▸ htrace, ?_⟩
          rw [List.filterMap_cons, hsame.2, List.filterMap_nil, List.append_nil]
      | inr hmoves =>
          obtain ⟨b, hb, hshows⟩ := hmoves
          refine ⟨trace ++ [b], .snoc htrace hb, ?_⟩
          rw [List.filterMap_append, List.filterMap_cons, hshows]
          rfl

/-- What a run does without the actions that only change what `hide` takes away, where that
is settled by a condition on its last state. -/
theorem erased (hide : σ → σ) (visible : α → Bool) {I : σ → Prop}
    (back : ∀ t a u, step t a = some u → I u → I t)
    (shown : ∀ t a u, step t a = some u → visible a = true → step (hide t) a = some (hide u))
    (hidden : ∀ t a u, step t a = some u → visible a = false → I u → hide u = hide t)
    (h : Run step s past t) (ht : I t) : Run step (hide s) (past.filter visible) (hide t) := by
  induction h with
  | nil => exact .nil
  | @snoc past t u a _ hstep ih =>
      have hbefore := ih (back t a u hstep ht)
      rw [List.filter_append]
      cases ha : visible a with
      | true =>
          rw [List.filter_cons_of_pos ha, List.filter_nil]
          exact .snoc hbefore (shown t a u hstep ha)
      | false =>
          rw [List.filter_cons_of_neg (Bool.eq_false_iff.mp ha), List.filter_nil,
            List.append_nil, hidden t a u hstep ha ht]
          exact hbefore

theorem of_foldlM {actions : List α} (h : actions.foldlM step s = some t) :
    Run step s actions t := by
  induction actions using List.reverseRecOn generalizing t with
  | nil => cases h; exact .nil
  | append_singleton actions a ih =>
      rw [List.foldlM_append] at h
      obtain ⟨u, hu, hlast⟩ := Option.bind_eq_some_iff.mp h
      rw [List.foldlM_cons] at hlast
      obtain ⟨v, hv, hret⟩ := Option.bind_eq_some_iff.mp hlast
      cases hret
      exact .snoc (ih hu) hv

end Run
end Foundation
