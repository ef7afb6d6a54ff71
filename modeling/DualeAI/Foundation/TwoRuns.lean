import DualeAI.Foundation.TimedRetry

/-!
Two runs, related step by step.

Results are related where they are values or exceptions of which the one relation or
the other holds. Retry loops on one clock whose attempts are related end at the same
time with related results, provided that related exceptions are retried alike.
-/
namespace Foundation
universe u v w

inductive ResultsRelated {ε ε' : Type v} {β β' : Type u} (E : ε → ε' → Prop) (V : β → β' → Prop) :
    Except ε β → Except ε' β' → Prop where
  | ok {value value'} : V value value' → ResultsRelated E V (.ok value) (.ok value')
  | error {e e'} : E e e' → ResultsRelated E V (.error e) (.error e')

/-- Where values are related by equality, both results have the same one, or raise. -/
theorem ResultsRelated.eq_cases {ε ε' : Type v} {β : Type u} {E : ε → ε' → Prop}
    {result : Except ε β} {result' : Except ε' β} (h : ResultsRelated E Eq result result') :
    (∃ value, result = .ok value ∧ result' = .ok value) ∨
      ∃ e e', result = .error e ∧ result' = .error e' ∧ E e e' := by
  cases h with
  | ok heq => exact Or.inl ⟨_, rfl, congrArg Except.ok heq.symm⟩
  | error hE => exact Or.inr ⟨_, _, rfl, rfl, hE⟩

theorem ResultsRelated.bind {ε ε' : Type v} {β β' γ γ' : Type u} {E : ε → ε' → Prop}
    {V : β → β' → Prop} {V' : γ → γ' → Prop} {result : Except ε β} {result' : Except ε' β'}
    {next : β → Except ε γ} {next' : β' → Except ε' γ'} (h : ResultsRelated E V result result')
    (hnext : ∀ value value', V value value' →
      ResultsRelated E V' (next value) (next' value')) :
    ResultsRelated E V' (result.bind next) (result'.bind next') := by
  cases h with
  | ok hV => exact hnext _ _ hV
  | error hE => exact ResultsRelated.error hE

namespace TimedRetry
variable {τ : Type u} {ε ε' : Type v} {α α' : Type w} {β β' : Type u}

structure Related (Y : List α → List α' → Prop) (E : ε → ε' → Prop) (V : β → β' → Prop)
    (run : AttemptRun τ ε α β) (run' : AttemptRun τ ε' α' β') : Prop where
  yields : Y run.yields run'.yields
  state : run.state = run'.state
  result : ResultsRelated E V run.result run'.result

variable {Y : List α → List α' → Prop} {E : ε → ε' → Prop} {V : β → β' → Prop}
  {retryable : ε → Bool} {retryable' : ε' → Bool} {expired : τ → Bool}

theorem Related.goesOn_iff {run : AttemptRun τ ε α β} {run' : AttemptRun τ ε' α' β'}
    (h : Related Y E V run run') (retry : ∀ e e', E e e' → retryable e = retryable' e') :
    GoesOn retryable expired run ↔ GoesOn retryable' expired run' := by
  have hresult := h.result
  rw [GoesOn, GoesOn, h.state]
  generalize run.result = result at hresult
  generalize run'.result = result' at hresult
  cases hresult with
  | ok _ =>
      constructor
      · intro hgoes
        obtain ⟨e, he, -⟩ := hgoes
        cases he
      · intro hgoes
        obtain ⟨e, he, -⟩ := hgoes
        cases he
  | error hE =>
      constructor
      · intro hgoes
        obtain ⟨e, he, hretry, hlive⟩ := hgoes
        cases he
        exact ⟨_, rfl, (retry _ _ hE).symm.trans hretry, hlive⟩
      · intro hgoes
        obtain ⟨e, he, hretry, hlive⟩ := hgoes
        cases he
        exact ⟨_, rfl, (retry _ _ hE).trans hretry, hlive⟩

variable [Add τ] {sleep : Nat → τ} {attempt : Nat → τ → AttemptRun τ ε α β}
  {attempt' : Nat → τ → AttemptRun τ ε' α' β'}

/-- Relational rule: loops with related attempts are related. -/
theorem attemptsFrom_related
    (append : ∀ xs xs' ys ys', Y xs xs' → Y ys ys' → Y (xs ++ ys) (xs' ++ ys'))
    (retry : ∀ e e', E e e' → retryable e = retryable' e')
    (step : ∀ number now, Related Y E V (attempt number now) (attempt' number now))
    (remaining number : Nat) (now : τ) :
    Related Y E V (attemptsFrom retryable expired sleep attempt remaining number now)
      (attemptsFrom retryable' expired sleep attempt' remaining number now) := by
  induction remaining generalizing number now with
  | zero => exact step number now
  | succ remaining ih =>
      have hstep := step number now
      by_cases hgoes : GoesOn retryable expired (attempt number now)
      · have hgoes' := (hstep.goesOn_iff retry).mp hgoes
        rw [attemptsFrom_next hgoes, attemptsFrom_next hgoes', hstep.state]
        have hrest := ih (number + 1) ((attempt' number now).state + sleep number)
        exact ⟨append _ _ _ _ hstep.yields hrest.yields, hrest.state, hrest.result⟩
      · have hgoes' := fun h => hgoes ((hstep.goesOn_iff retry).mpr h)
        rw [attemptsFrom_stop hgoes, attemptsFrom_stop hgoes']
        exact hstep

end TimedRetry
end Foundation
