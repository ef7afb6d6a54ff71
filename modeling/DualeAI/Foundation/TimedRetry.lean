import DualeAI.Foundation.Retry

/-!
A bounded retry loop on a clock.

The state of an attempt is the time it ends at. After a failure of a retryable
class the loop sleeps and goes on, unless its attempts are used up or the time is;
the last attempt's failure is raised as it is. This is the loop of
`stop_after_attempt | stop_after_delay`, `retry_if_exception_type` and
`reraise=True` around a body that takes time.
-/
namespace Foundation.TimedRetry
universe u v w
variable {τ : Type u} {ε : Type v} {α : Type w} {β : Type u} [Add τ]
variable (retryable : ε → Bool) (expired : τ → Bool) (sleep : Nat → τ)
  (attempt : Nat → τ → AttemptRun τ ε α β)

/-- Attempts from `number` on, with `remaining` more allowed after it. -/
def attemptsFrom : (remaining : Nat) → (number : Nat) → τ → AttemptRun τ ε α β
  | 0, number, now => attempt number now
  | remaining + 1, number, now =>
      let run := attempt number now
      match run.result with
      | .ok _ => run
      | .error e =>
          if retryable e && !expired run.state then
            let rest := attemptsFrom remaining (number + 1) (run.state + sleep number)
            ⟨run.yields ++ rest.yields, rest.state, rest.result⟩
          else run

def retrying (maxAttempts : Nat) (now : τ) : AttemptRun τ ε α β :=
  attemptsFrom retryable expired sleep attempt (maxAttempts - 1) 1 now

/-- An attempt after which the loop goes on if its attempts allow. -/
def GoesOn (run : AttemptRun τ ε α β) : Prop :=
  ∃ e, run.result = .error e ∧ retryable e = true ∧ expired run.state = false

variable {retryable expired sleep attempt}

theorem attemptsFrom_stop {number : Nat} {now : τ}
    (h : ¬ GoesOn retryable expired (attempt number now)) (remaining : Nat) :
    attemptsFrom retryable expired sleep attempt remaining number now = attempt number now := by
  cases remaining with
  | zero => rfl
  | succ remaining =>
      rw [attemptsFrom]
      cases hr : (attempt number now).result with
      | ok b => rfl
      | error e =>
          have hnot : (retryable e && !expired (attempt number now).state) ≠ true := by
            intro hboth
            rw [Bool.and_eq_true, Bool.not_eq_true'] at hboth
            exact h ⟨e, hr, hboth.1, hboth.2⟩
          exact if_neg hnot

theorem attemptsFrom_next {number : Nat} {now : τ}
    (h : GoesOn retryable expired (attempt number now)) (remaining : Nat) :
    attemptsFrom retryable expired sleep attempt (remaining + 1) number now =
      let rest := attemptsFrom retryable expired sleep attempt remaining (number + 1)
        ((attempt number now).state + sleep number)
      ⟨(attempt number now).yields ++ rest.yields, rest.state, rest.result⟩ := by
  obtain ⟨e, hr, he, hlive⟩ := h
  have hboth : (retryable e && !expired (attempt number now).state) = true := by
    rw [he, hlive, Bool.not_false, Bool.and_self]
  simp only [attemptsFrom, hr, hboth, ite_true]

/-- Invariant rule: `I` holds before each attempt and is kept by one the loop goes
on after; what the last attempt makes of it holds when the loop ends. -/
theorem attemptsFrom_rule {I : Nat → List α → τ → Prop}
    {Q : Nat → List α → τ → Except ε β → Prop}
    (next : ∀ number now past, I number past now →
      GoesOn retryable expired (attempt number now) →
      I (number + 1) (past ++ (attempt number now).yields)
        ((attempt number now).state + sleep number))
    (stop : ∀ number now past, I number past now →
      Q number (past ++ (attempt number now).yields) (attempt number now).state
        (attempt number now).result)
    (remaining number : Nat) (now : τ) (past : List α) (h : I number past now) :
    ∃ last, last ≤ number + remaining ∧
      Q last (past ++ (attemptsFrom retryable expired sleep attempt remaining number now).yields)
        (attemptsFrom retryable expired sleep attempt remaining number now).state
        (attemptsFrom retryable expired sleep attempt remaining number now).result := by
  induction remaining generalizing number now past with
  | zero => exact ⟨number, Nat.le_refl _, stop number now past h⟩
  | succ remaining ih =>
      by_cases hg : GoesOn retryable expired (attempt number now)
      · obtain ⟨last, hlast, hQ⟩ := ih (number + 1) _ _ (next number now past h hg)
        refine ⟨last, by omega, ?_⟩
        rw [attemptsFrom_next hg]
        simpa only [List.append_assoc] using hQ
      · rw [attemptsFrom_stop hg]
        exact ⟨number, Nat.le_add_right _ _, stop number now past h⟩

end Foundation.TimedRetry
