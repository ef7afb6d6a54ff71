import Mathlib.Data.List.Basic

/-!
A bounded retry loop around a stateful body.

The body is entered once per attempt. It may yield to the consumer and change
the surrounding state before it returns or raises, and neither is undone by the
exception. A raised exception starts the next attempt when it is of a retryable
class and the attempt budget allows one; otherwise it is raised out of the loop
as it is. This is the loop of `stop_after_attempt`, `retry_if_exception_type`
and `reraise=True`; the waits between attempts carry no data and are left out.
-/
namespace Foundation
universe u v w

structure AttemptRun (σ : Type u) (ε : Type v) (α : Type w) (β : Type u) where
  yields : List α
  state : σ
  result : Except ε β

namespace Retry
variable {σ : Type u} {ε : Type v} {α : Type w} {β : Type u}
variable (retryable : ε → Bool) (attempt : Nat → σ → AttemptRun σ ε α β)

/-- Attempts from `number` on, with `remaining` more allowed after it. -/
def attemptsFrom : (remaining : Nat) → (number : Nat) → σ → AttemptRun σ ε α β
  | 0, number, s => attempt number s
  | remaining + 1, number, s =>
      let run := attempt number s
      match run.result with
      | .ok _ => run
      | .error e =>
          if retryable e then
            let rest := attemptsFrom remaining (number + 1) run.state
            ⟨run.yields ++ rest.yields, rest.state, rest.result⟩
          else run

def retrying (maxAttempts : Nat) (s : σ) : AttemptRun σ ε α β :=
  attemptsFrom retryable attempt (maxAttempts - 1) 1 s

/-- An attempt after which the loop goes on if its budget allows. -/
def GoesOn (run : AttemptRun σ ε α β) : Prop := ∃ e, run.result = .error e ∧ retryable e = true

variable {retryable attempt}

theorem attemptsFrom_stop {number : Nat} {s : σ}
    (h : ¬ GoesOn retryable (attempt number s)) (remaining : Nat) :
    attemptsFrom retryable attempt remaining number s = attempt number s := by
  cases remaining with
  | zero => rfl
  | succ remaining =>
      rw [attemptsFrom]
      cases hr : (attempt number s).result with
      | ok b => rfl
      | error e =>
          have he : retryable e ≠ true := fun ht => h ⟨e, hr, ht⟩
          simp [he]

theorem attemptsFrom_next {number : Nat} {s : σ}
    (h : GoesOn retryable (attempt number s)) (remaining : Nat) :
    attemptsFrom retryable attempt (remaining + 1) number s =
      ⟨(attempt number s).yields ++
          (attemptsFrom retryable attempt remaining (number + 1) (attempt number s).state).yields,
        (attemptsFrom retryable attempt remaining (number + 1) (attempt number s).state).state,
        (attemptsFrom retryable attempt remaining (number + 1)
          (attempt number s).state).result⟩ := by
  obtain ⟨e, hr, he⟩ := h
  simp only [attemptsFrom, hr, he, ite_true]

/-- Invariant rule: `I` holds before each attempt and is kept by one the loop
goes on after; what the last attempt makes of it holds when the loop ends. -/
theorem attemptsFrom_rule {I Q : Nat → List α → σ → Prop}
    (next : ∀ number s past, I number past s → GoesOn retryable (attempt number s) →
      I (number + 1) (past ++ (attempt number s).yields) (attempt number s).state)
    (stop : ∀ number s past, I number past s →
      Q number (past ++ (attempt number s).yields) (attempt number s).state)
    (remaining number : Nat) (s : σ) (past : List α) (h : I number past s) :
    ∃ last, last ≤ number + remaining ∧
      Q last (past ++ (attemptsFrom retryable attempt remaining number s).yields)
        (attemptsFrom retryable attempt remaining number s).state := by
  induction remaining generalizing number s past with
  | zero => exact ⟨number, Nat.le_refl _, stop number s past h⟩
  | succ remaining ih =>
      by_cases hg : GoesOn retryable (attempt number s)
      · obtain ⟨last, hlast, hQ⟩ := ih (number + 1) _ _ (next number s past h hg)
        refine ⟨last, by omega, ?_⟩
        rw [attemptsFrom_next hg]
        simpa only [List.append_assoc] using hQ
      · rw [attemptsFrom_stop hg]
        exact ⟨number, Nat.le_add_right _ _, stop number s past h⟩

/-- A result comes from the attempt that ends the loop. -/
theorem attemptsFrom_ok {remaining number : Nat} {s : σ} {b : β}
    (h : (attemptsFrom retryable attempt remaining number s).result = .ok b) :
    ∃ last t past, (attempt last t).result = .ok b ∧
      (attemptsFrom retryable attempt remaining number s).yields =
        past ++ (attempt last t).yields := by
  induction remaining generalizing number s with
  | zero => exact ⟨number, s, [], h, rfl⟩
  | succ remaining ih =>
      by_cases hg : GoesOn retryable (attempt number s)
      · rw [attemptsFrom_next hg] at h ⊢
        obtain ⟨last, t, past, hlast, hyields⟩ := ih h
        exact ⟨last, t, _ ++ past, hlast, by rw [hyields, List.append_assoc]⟩
      · rw [attemptsFrom_stop hg] at h ⊢
        exact ⟨number, s, [], h, rfl⟩

theorem attemptsFrom_yields {remaining number : Nat} {s : σ} {y : α}
    (h : y ∈ (attemptsFrom retryable attempt remaining number s).yields) :
    ∃ n t, y ∈ (attempt n t).yields := by
  induction remaining generalizing number s with
  | zero => exact ⟨number, s, h⟩
  | succ remaining ih =>
      by_cases hg : GoesOn retryable (attempt number s)
      · rw [attemptsFrom_next hg] at h
        cases List.mem_append.mp h with
        | inl hfirst => exact ⟨number, s, hfirst⟩
        | inr hrest => exact ih hrest
      · rw [attemptsFrom_stop hg] at h
        exact ⟨number, s, h⟩

end Retry
end Foundation
