import DualeAI.Events.Bridge
import Mathlib.Algebra.Order.Ring.Rat

/-!
The task breaker, `_CircuitBreaker`.

Each method that holds the lock is one step on the breaker's state; `now` is
what the clock reads inside it. An attempt carries the generation it was
admitted in, and its completion takes effect in that generation only.
-/
namespace DualeAI.Breaker
open Foundation

inductive Phase where
  | closed
  | opened
  | halfOpen
deriving DecidableEq, Repr

inductive Outcome where
  | failure
  | ignored
deriving DecidableEq, Repr

structure Attempt where
  generation : Nat
  outcome : Option Outcome := none
deriving DecidableEq, Repr

def Attempt.fail (a : Attempt) : Attempt :=
  if a.outcome = none then { a with outcome := some .failure } else a

def Attempt.ignore (a : Attempt) : Attempt :=
  if a.outcome = none then { a with outcome := some .ignored } else a

def Attempt.ignoreCancellation (a : Attempt) : Attempt := { a with outcome := some .ignored }

/-- The settings of a breaker, as its constructor accepts them. -/
structure CircuitBreaker where
  failureThreshold : Nat
  recoveryTimeout : Rat
  failures_pos : 1 ≤ failureThreshold
  recovery_pos : 0 < recoveryTimeout

structure State where
  phase : Phase := .closed
  generation : Nat := 0
  consecutiveFailures : Nat := 0
  openUntil : Rat := 0
  probeUntil : Rat := 0
deriving DecidableEq, Repr

variable (b : CircuitBreaker)

def reserveProbe (now : Rat) (s : State) : State × Attempt :=
  ({ s with
      phase := .halfOpen
      generation := s.generation + 1
      probeUntil := now + b.recoveryTimeout },
    ⟨s.generation + 1, none⟩)

/-- `_admit`: the attempt, or the `retry_after` of the rejection. -/
def admitAttempt (now : Rat) (s : State) : Except Rat (State × Attempt) :=
  match s.phase with
  | .closed => .ok (s, ⟨s.generation, none⟩)
  | .opened =>
      if now < s.openUntil then .error (max 0 (s.openUntil - now)) else .ok (reserveProbe b now s)
  | .halfOpen =>
      if now < s.probeUntil then .error (max 0 (s.probeUntil - now)) else .ok (reserveProbe b now s)

def openBreaker (now : Rat) (s : State) : State :=
  { s with
    phase := .opened
    openUntil := now + b.recoveryTimeout
    probeUntil := 0
    generation := s.generation + 1 }

def close (s : State) : State :=
  { s with
    phase := .closed
    consecutiveFailures := 0
    openUntil := 0
    probeUntil := 0
    generation := s.generation + 1 }

def recordIgnoredProbe (now : Rat) (s : State) : State :=
  if s.phase = .halfOpen then
    { s with
      phase := .opened
      openUntil := now
      probeUntil := 0
      generation := s.generation + 1 }
  else s

def complete (now : Rat) (attempt : Attempt) (raised : Bool) (s : State) : State :=
  if attempt.generation ≠ s.generation then s
  else if attempt.outcome = some .ignored then recordIgnoredProbe now s
  else
    let failed := attempt.outcome = some .failure ∨ raised = true
    if s.phase = .halfOpen then
      if failed then openBreaker b now s else close s
    else if failed then
      let s' := { s with consecutiveFailures := s.consecutiveFailures + 1 }
      if s'.consecutiveFailures ≥ b.failureThreshold then openBreaker b now s' else s'
    else { s with consecutiveFailures := 0 }

/-- The `except` clauses of `protect`: the attempt and `raised` handed to `_complete`. -/
def protectExit {α : Type} (attempt : Attempt) (result : Except Exc α) : Attempt × Bool :=
  match result with
  | .ok _ => (attempt, false)
  | .error .cancelled => (attempt.ignoreCancellation, false)
  | .error e => if e.isException then (attempt, true) else (attempt.ignore, false)

theorem protectExit_generation {α : Type} (attempt : Attempt) (result : Except Exc α) :
    (protectExit attempt result).1.generation = attempt.generation := by
  simp only [protectExit]
  split
  · rfl
  · rfl
  · split
    · rfl
    · rw [Attempt.ignore]
      split <;> rfl

/-! ## What a completion records -/

inductive Verdict where
  | failure
  | success
  | neutral
deriving DecidableEq, Repr

def verdict (attempt : Attempt) (raised : Bool) : Verdict :=
  match attempt.outcome with
  | some .ignored => .neutral
  | some .failure => .failure
  | none => if raised then .failure else .success

def record (now : Rat) (v : Verdict) (s : State) : State :=
  match v, s.phase with
  | .neutral, _ => recordIgnoredProbe now s
  | .failure, .halfOpen => openBreaker b now s
  | .success, .halfOpen => close s
  | .failure, _ =>
      if s.consecutiveFailures + 1 ≥ b.failureThreshold then
        openBreaker b now { s with consecutiveFailures := s.consecutiveFailures + 1 }
      else { s with consecutiveFailures := s.consecutiveFailures + 1 }
  | .success, _ => { s with consecutiveFailures := 0 }

variable {b}

/-- A completion counts by its verdict in the generation it was admitted in. -/
theorem complete_eq_record {now : Rat} {attempt : Attempt} {raised : Bool} {s : State}
    (h : attempt.generation = s.generation) :
    complete b now attempt raised s = record b now (verdict attempt raised) s := by
  obtain ⟨generation, outcome⟩ := attempt
  cases outcome with
  | none =>
      cases hphase : s.phase <;> cases raised <;>
        simp [complete, record, verdict, hphase] at h ⊢ <;> simp [h]
  | some outcome =>
      cases outcome <;> cases hphase : s.phase <;>
        simp [complete, record, verdict, hphase] at h ⊢ <;> simp [h]

theorem complete_stale {now : Rat} {attempt : Attempt} {raised : Bool} {s : State}
    (h : attempt.generation ≠ s.generation) : complete b now attempt raised s = s :=
  if_pos h

end DualeAI.Breaker
