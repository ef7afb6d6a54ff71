import DualeAI.Sdk.BreakerRuns
import Mathlib.Tactic.Linarith

/-!
What a caller can rely on in every run of the breaker.

The failure count is that of the current generation's completions; an opened
breaker stays shut for the recovery timeout, a probe has its generation to
itself, and a rejection says how long to wait.
-/
namespace DualeAI.Breaker
open Foundation

variable {b : CircuitBreaker}

/-! ## Counting failures -/

/-- Failures since the last success, among the completions that were not ignored
of the attempts of this generation. -/
def failuresSinceSuccess (generation : Nat) (log : List Completion) : Nat :=
  ((log.filter fun c => c.generation = generation ∧ c.verdict ≠ .neutral).rtakeWhile
    fun c => c.verdict = .failure).length

section Counting
variable {generation : Nat} {log : List Completion} {c : Completion}

theorem failuresSinceSuccess_stale (h : c.generation ≠ generation) :
    failuresSinceSuccess generation (log ++ [c]) = failuresSinceSuccess generation log := by
  simp [failuresSinceSuccess, List.filter_append, h]

theorem failuresSinceSuccess_neutral (h : c.verdict = .neutral) :
    failuresSinceSuccess generation (log ++ [c]) = failuresSinceSuccess generation log := by
  simp [failuresSinceSuccess, List.filter_append, h]

theorem failuresSinceSuccess_failure (hgeneration : c.generation = generation)
    (h : c.verdict = .failure) :
    failuresSinceSuccess generation (log ++ [c]) = failuresSinceSuccess generation log + 1 := by
  simp [failuresSinceSuccess, List.filter_append, hgeneration, h]

theorem failuresSinceSuccess_success (hgeneration : c.generation = generation)
    (h : c.verdict = .success) : failuresSinceSuccess generation (log ++ [c]) = 0 := by
  simp [failuresSinceSuccess, List.filter_append, hgeneration, h]

theorem failuresSinceSuccess_fresh (h : ∀ c ∈ log, c.generation ≠ generation) :
    failuresSinceSuccess generation log = 0 := by
  have hnone : (log.filter fun c => c.generation = generation ∧ c.verdict ≠ .neutral) = [] := by
    refine List.filter_eq_nil_iff.mpr fun c hmem => ?_
    simp [h c hmem]
  rw [failuresSinceSuccess, hnone]
  rfl

end Counting

/-- While the breaker is closed, it counts the failures since the last success. -/
def Counted (b : CircuitBreaker) (s : System) : Prop :=
  s.breaker.phase = .closed →
    s.breaker.consecutiveFailures = failuresSinceSuccess s.breaker.generation s.completions ∧
      s.breaker.consecutiveFailures < b.failureThreshold

theorem Consistent.completion_le {s : System} (hs : Consistent s) {c : Completion}
    (hmem : c ∈ s.completions) : c.generation ≤ s.breaker.generation := by
  obtain ⟨body, hget, -, hgeneration, -⟩ := hs.logged c hmem
  rw [← hgeneration]
  exact hs.bounded c.body body hget

theorem record_closed {now : Rat} {s : State} (v : Verdict) (hclosed : s.phase = .closed) :
    record b now v s =
      match v with
      | .neutral => s
      | .success => { s with consecutiveFailures := 0 }
      | .failure =>
          if b.failureThreshold ≤ s.consecutiveFailures + 1 then
            openBreaker b now { s with consecutiveFailures := s.consecutiveFailures + 1 }
          else { s with consecutiveFailures := s.consecutiveFailures + 1 } := by
  cases v <;> simp [record, recordIgnoredProbe, hclosed]

/-- The completion that `leave` logs. -/
def completionOf (b : CircuitBreaker) (i : Nat) (body : Body) (now : Rat)
    (result : Except Exc Unit) (s : System) : Completion :=
  let exit := protectExit body.attempt result
  ⟨i, body.attempt.generation, body.probe, verdict exit.1 exit.2,
    complete b now exit.1 exit.2 s.breaker ≠ s.breaker⟩

section Leave
variable {s : System} {i : Nat} {now : Rat} {result : Except Exc Unit} {body : Body}

theorem leave_completions :
    (leave b i body now result s).completions =
      s.completions ++ [completionOf b i body now result s] := rfl

theorem leave_stale (h : body.attempt.generation ≠ s.breaker.generation) :
    (leave b i body now result s).breaker = s.breaker :=
  complete_stale (by rwa [protectExit_generation])

theorem leave_current (h : body.attempt.generation = s.breaker.generation) :
    (leave b i body now result s).breaker =
      record b now (completionOf b i body now result s).verdict s.breaker :=
  complete_eq_record (by rwa [protectExit_generation])

theorem leave_closed (h : body.attempt.generation = s.breaker.generation)
    (hclosed : s.breaker.phase = .closed) (hcounted : Counted b s) :
    Counted b (leave b i body now result s) ∧
      ((leave b i body now result s).breaker.phase = .closed ∨
        (leave b i body now result s).breaker.phase = .opened) ∧
      ((leave b i body now result s).breaker.phase = .opened ↔
        failuresSinceSuccess s.breaker.generation (leave b i body now result s).completions =
          b.failureThreshold) := by
  obtain ⟨hcount, hbelow⟩ := hcounted hclosed
  have hgeneration : (completionOf b i body now result s).generation = s.breaker.generation := h
  have hbreaker : (leave b i body now result s).breaker = record b now
      (completionOf b i body now result s).verdict s.breaker := leave_current h
  rw [record_closed _ hclosed] at hbreaker
  rw [leave_completions]
  cases hverdict : (completionOf b i body now result s).verdict with
  | neutral =>
      rw [hverdict] at hbreaker
      rw [Counted, leave_completions, hbreaker, failuresSinceSuccess_neutral hverdict, hclosed,
        ← hcount]
      exact ⟨fun _ => ⟨rfl, hbelow⟩, .inl rfl, ⟨nofun, fun h => by omega⟩⟩
  | success =>
      rw [hverdict] at hbreaker
      rw [Counted, leave_completions, hbreaker, failuresSinceSuccess_success hgeneration hverdict]
      have hpos := b.failures_pos
      exact ⟨fun _ => ⟨rfl, by show 0 < _; omega⟩, .inl hclosed,
        ⟨fun h => (nomatch hclosed.symm.trans h), fun h => by omega⟩⟩
  | failure =>
      rw [hverdict] at hbreaker
      rw [Counted, leave_completions, hbreaker, failuresSinceSuccess_failure hgeneration hverdict,
        ← hcount]
      by_cases hreached : b.failureThreshold ≤ s.breaker.consecutiveFailures + 1
      · simp only [if_pos hreached]
        exact ⟨nofun, .inr rfl, ⟨fun _ => by omega, fun _ => rfl⟩⟩
      · simp only [if_neg hreached]
        refine ⟨fun _ => ⟨?_, by omega⟩, .inl hclosed,
          ⟨fun h => (nomatch hclosed.symm.trans h), fun h => by omega⟩⟩
        rw [failuresSinceSuccess_failure hgeneration hverdict, ← hcount]

/-- A probe's completion opens the breaker or closes it with nothing counted. -/
theorem leave_halfOpen (h : body.attempt.generation = s.breaker.generation)
    (hhalfOpen : s.breaker.phase = .halfOpen) (hs : Consistent s) :
    Counted b (leave b i body now result s) := by
  have hbreaker : (leave b i body now result s).breaker = record b now
      (completionOf b i body now result s).verdict s.breaker := leave_current h
  intro hclosed
  cases hverdict : (completionOf b i body now result s).verdict with
  | neutral | failure =>
      rw [hbreaker, hverdict] at hclosed
      simp [record, recordIgnoredProbe, openBreaker, hhalfOpen] at hclosed
  | success =>
      have hclose : (leave b i body now result s).breaker = close s.breaker := by
        rw [hbreaker, hverdict]
        simp [record, hhalfOpen]
      have hfresh : failuresSinceSuccess (s.breaker.generation + 1)
          (leave b i body now result s).completions = 0 := by
        refine failuresSinceSuccess_fresh (List.forall_mem_append.mpr ⟨fun c hmem => ?_, ?_⟩)
        · have hle := hs.completion_le hmem
          omega
        · refine List.forall_mem_singleton.mpr ?_
          show body.attempt.generation ≠ s.breaker.generation + 1
          omega
      rw [hclose]
      exact ⟨hfresh.symm, b.failures_pos⟩

theorem leave_counted (hs : Consistent s) (hcounted : Counted b s)
    (hget : s.bodies[i]? = some body) : Counted b (leave b i body now result s) := by
  by_cases h : body.attempt.generation = s.breaker.generation
  · have hphase := hs.current i body hget h
    cases hprobe : body.probe with
    | true => exact leave_halfOpen h (by rw [hphase, if_pos hprobe]) hs
    | false => exact (leave_closed h (by rw [hphase, if_neg (by simp [hprobe])]) hcounted).1
  · have hcompletion : (completionOf b i body now result s).generation ≠ s.breaker.generation := h
    rw [Counted, leave_completions, leave_stale h, failuresSinceSuccess_stale hcompletion]
    exact hcounted

end Leave

/-- Step: the count stays right. -/
theorem Effect.counted {s t : System} {a : Action} (h : Effect b s a t) (hs : Consistent s)
    (hcounted : Counted b s) : Counted b t := by
  cases h with
  | rejected now retryAfter h => exact hcounted
  | admitted now hphase => exact hcounted
  | probed now hready => exact nofun
  | marked a i f ha hf => exact hcounted
  | left i now result body hget hrunning => exact leave_counted hs hcounted hget

theorem counted_of_run {past : List Action} {s : System} (h : Run (step b) {} past s) :
    Counted b s :=
  h.invariant_of (I := fun _ s => Consistent s) (J := fun _ s => Counted b s)
    (fun _ _ => consistent_of_run) (fun _ => ⟨rfl, b.failures_pos⟩)
    fun _ _ _ _ hs hcounted hstep => (step_effect hstep).counted hs hcounted

/-- Step: a closed breaker opens at the completion that reaches the threshold. -/
theorem Effect.opens_iff {s t : System} {a : Action} (h : Effect b s a t)
    (hcounted : Counted b s) (hclosed : s.breaker.phase = .closed) :
    (t.breaker.phase = .closed ∨ t.breaker.phase = .opened) ∧
      (t.breaker.phase = .opened ↔
        failuresSinceSuccess s.breaker.generation t.completions = b.failureThreshold) := by
  obtain ⟨hcount, hbelow⟩ := hcounted hclosed
  have hstays {t : System} (hphase : t.breaker.phase = .closed)
      (hlog : failuresSinceSuccess s.breaker.generation t.completions =
        failuresSinceSuccess s.breaker.generation s.completions) :
      (t.breaker.phase = .closed ∨ t.breaker.phase = .opened) ∧
        (t.breaker.phase = .opened ↔
          failuresSinceSuccess s.breaker.generation t.completions = b.failureThreshold) := by
    rw [hphase, hlog, ← hcount]
    exact ⟨.inl rfl, nofun, fun h => by omega⟩
  cases h with
  | rejected now retryAfter h => exact hstays hclosed rfl
  | admitted now hphase => exact hstays hclosed rfl
  | probed now hready =>
      rw [hclosed] at hready
      rcases hready with ⟨h, -⟩ | ⟨h, -⟩ <;> cases h
  | marked a i f ha hf => exact hstays hclosed rfl
  | left i now result body hget hrunning =>
      by_cases h : body.attempt.generation = s.breaker.generation
      · exact (leave_closed h hclosed hcounted).2
      · refine hstays ((leave_stale h).symm ▸ hclosed) ?_
        rw [leave_completions, failuresSinceSuccess_stale h]

/-! A breaker that opens at the second failure, and three attempts on it: the first
two fail, and the third succeeds when the breaker is open already. -/

def secondFailure : CircuitBreaker := ⟨2, 20, by decide, by decide +kernel⟩

def unreachable : Except Exc Unit := .error (.client .clientConnectionError)

def failedOnce : List Action := [.enter 0, .enter 0, .enter 0, .leave 0 1 unreachable]

/-- In every run: a closed breaker counts the failures since the last success of
its generation's completions, opens at the completion that brings the count to
the threshold, and a completion from an earlier generation changes nothing. -/
theorem breaker_counts (b : CircuitBreaker) {past : List Action} {s : System}
    (hrun : Run (step b) {} past s) :
    (s.breaker.phase = .closed →
      s.breaker.consecutiveFailures = failuresSinceSuccess s.breaker.generation s.completions ∧
        s.breaker.consecutiveFailures < b.failureThreshold) ∧
    (s.breaker.phase = .closed → ∀ a t, step b s a = some t →
      (t.breaker.phase = .closed ∨ t.breaker.phase = .opened) ∧
        (t.breaker.phase = .opened ↔
          failuresSinceSuccess s.breaker.generation t.completions = b.failureThreshold)) ∧
    ∀ i body now result t, s.bodies[i]? = some body →
      body.attempt.generation < s.breaker.generation →
      step b s (.leave i now result) = some t → t.breaker = s.breaker := by
  refine ⟨counted_of_run hrun, fun hclosed a t hstep => ?_, ?_⟩
  · exact (step_effect hstep).opens_iff (counted_of_run hrun) hclosed
  · intro i body now result t hget hearlier hstep
    obtain ⟨body', hbody, rfl⟩ := Option.map_eq_some_iff.mp hstep
    obtain ⟨hget', -⟩ := running_eq_some.mp hbody
    rw [hget] at hget'
    cases hget'
    exact leave_stale (Nat.ne_of_lt hearlier)

theorem breaker_counts_failedOnce :
    ∃ s, Run (step secondFailure) {} failedOnce s ∧
      s.breaker.consecutiveFailures = failuresSinceSuccess s.breaker.generation s.completions ∧
      s.breaker.consecutiveFailures < 2 := by
  have hrun : Run (step secondFailure) {} failedOnce _ := .of_foldlM rfl
  exact ⟨_, hrun, (breaker_counts secondFailure hrun).1 (by decide +kernel)⟩

/-! ## Exclusion -/

/-- The breaker admits an attempt at this time. -/
def Admits (b : CircuitBreaker) (now : Rat) (s : System) : Prop :=
  ∃ admission, admitAttempt b now s.breaker = .ok admission

theorem admits_of_over {later : Rat} {s : System}
    (h : s.breaker.phase = .opened ∧ s.breaker.openUntil ≤ later ∨
      s.breaker.phase = .halfOpen ∧ s.breaker.probeUntil ≤ later) : Admits b later s := by
  refine ⟨reserveProbe b later s.breaker, ?_⟩
  rcases h with ⟨hphase, hover⟩ | ⟨hphase, hover⟩
  · simp [admitAttempt, hphase, not_lt.mpr hover]
  · simp [admitAttempt, hphase, not_lt.mpr hover]

theorem Admits.over_of_opened {later : Rat} {s : System} (h : Admits b later s)
    (hopened : s.breaker.phase = .opened) : s.breaker.openUntil ≤ later := by
  obtain ⟨⟨breaker, attempt⟩, hadmitted⟩ := h
  rcases admitAttempt_ok hadmitted with ⟨hphase, -⟩ | ⟨⟨-, hnow⟩ | ⟨hphase, -⟩, -⟩
  · rw [hopened] at hphase
    cases hphase
  · exact hnow
  · rw [hopened] at hphase
    cases hphase

theorem Admits.over_of_halfOpen {later : Rat} {s : System} (h : Admits b later s)
    (hhalfOpen : s.breaker.phase = .halfOpen) : s.breaker.probeUntil ≤ later := by
  obtain ⟨⟨breaker, attempt⟩, hadmitted⟩ := h
  rcases admitAttempt_ok hadmitted with ⟨hphase, -⟩ | ⟨⟨hphase, -⟩ | ⟨-, hnow⟩, -⟩
  · rw [hhalfOpen] at hphase
    cases hphase
  · rw [hhalfOpen] at hphase
    cases hphase
  · exact hnow

theorem ClockMonotone.le_last {past more : List Action} {a last : Action} {now : Rat}
    (h : ClockMonotone (past ++ a :: (more ++ [last]))) (hlast : last.reading = some now)
    {reading : Rat} (hmem : reading ∈ readings more) : reading ≤ now := by
  have hsplit : readings (past ++ a :: (more ++ [last])) =
      readings past ++ (readings [a] ++ (readings more ++ [now])) := by
    have hnow : readings [last] = [now] := by simp [readings, hlast]
    rw [readings, List.filterMap_append, ← List.singleton_append, List.filterMap_append,
      List.filterMap_append]
    exact congrArg (fun l => readings past ++ (readings [a] ++ (readings more ++ l))) hnow
  rw [ClockMonotone, hsplit] at h
  have htail := (List.pairwise_append.mp (List.pairwise_append.mp h).2.1).2.1
  exact (List.pairwise_append.mp htail).2.2 reading hmem now (List.mem_singleton_self now)

theorem readings_concat (past : List Action) (a : Action) :
    readings (past ++ [a]) = readings past ++ a.reading.toList := by
  rw [readings, List.filterMap_append]
  cases h : a.reading <;> simp [readings, h]

/-- Step: an open breaker is left alone until its time is over. -/
theorem Effect.opened_kept {s t : System} {a : Action} (h : Effect b s a t) (hs : Consistent s)
    (hopened : s.breaker.phase = .opened) :
    t.breaker = s.breaker ∨ ∃ now, a.reading = some now ∧ s.breaker.openUntil ≤ now := by
  cases h with
  | rejected now retryAfter h => exact .inl rfl
  | admitted now hphase => exact .inl rfl
  | probed now hready =>
      rcases hready with ⟨-, hnow⟩ | ⟨hphase, -⟩
      · exact .inr ⟨now, rfl, hnow⟩
      · rw [hopened] at hphase
        cases hphase
  | marked a i f ha hf => exact .inl rfl
  | left i now result body hget hrunning =>
      refine .inl (leave_stale fun hcurrent => ?_)
      have hphase := hs.current i body hget hcurrent
      rw [hopened] at hphase
      split at hphase <;> cases hphase

theorem opened_kept_of_run {t u : System} {more : List Action} (h : Run (step b) t more u)
    (ht : Consistent t) (hopened : t.breaker.phase = .opened) :
    u.breaker = t.breaker ∨ ∃ now ∈ readings more, t.breaker.openUntil ≤ now := by
  refine (h.invariant (I := fun more u => Consistent u ∧ (u.breaker = t.breaker ∨
    ∃ now ∈ readings more, t.breaker.openUntil ≤ now)) ⟨ht, .inl rfl⟩ ?_).2
  intro more u a v hu hstep
  obtain ⟨hconsistent, hkept⟩ := hu
  have heffect := step_effect hstep
  refine ⟨heffect.consistent hconsistent, ?_⟩
  rw [readings_concat]
  cases hkept with
  | inl hsame =>
      rcases heffect.opened_kept hconsistent (hsame ▸ hopened) with hv | ⟨now, hreading, hover⟩
      · exact .inl (hv.trans hsame)
      · exact .inr ⟨now, List.mem_append_right _ (by simp [hreading]), hsame ▸ hover⟩
  | inr hover =>
      obtain ⟨now, hmem, hnow⟩ := hover
      exact .inr ⟨now, List.mem_append_left _ hmem, hnow⟩

/-- The breaker opens in this step because a completion failed. -/
def OpensByFailure (s t : System) : Prop :=
  s.breaker.phase ≠ .opened ∧ t.breaker.phase = .opened ∧
    ∃ c, t.completions = s.completions ++ [c] ∧ c.verdict = .failure

theorem openUntil_of_failure {s : System} {i : Nat} {now : Rat} {result : Except Exc Unit}
    {body : Body} (h : OpensByFailure s (leave b i body now result s)) :
    (leave b i body now result s).breaker.openUntil = now + b.recoveryTimeout := by
  obtain ⟨hbefore, hopened, c, hlog, hverdict⟩ := h
  rw [leave_completions] at hlog
  cases List.append_cancel_left hlog
  by_cases hcurrent : body.attempt.generation = s.breaker.generation
  · rw [leave_current hcurrent, hverdict] at hopened ⊢
    cases hphase : s.breaker.phase with
    | opened => exact absurd hphase hbefore
    | halfOpen => simp [record, hphase, openBreaker]
    | closed =>
        rw [record_closed _ hphase] at hopened ⊢
        by_cases hreached : b.failureThreshold ≤ s.breaker.consecutiveFailures + 1
        · simp only [if_pos hreached]
          rfl
        · simp only [if_neg hreached, hphase] at hopened
          cases hopened
  · rw [leave_stale hcurrent] at hopened
    exact absurd hopened hbefore

/-- Body `j` is the probe of the breaker's generation. -/
def ProbedBy (j : Nat) (s : System) : Prop :=
  s.breaker.phase = .halfOpen ∧ ∃ body, s.bodies[j]? = some body ∧ body.probe = true ∧
    body.attempt.generation = s.breaker.generation

theorem probedBy_of_enter {s t : System} {now : Rat} (hstep : step b s (.enter now) = some t)
    (hlonger : t.bodies.length = s.bodies.length + 1) (hhalfOpen : t.breaker.phase = .halfOpen) :
    ProbedBy s.bodies.length t ∧ t.breaker.probeUntil = now + b.recoveryTimeout := by
  cases step_effect hstep with
  | rejected now retryAfter h => simp at hlonger
  | admitted now hphase =>
      rw [hphase] at hhalfOpen
      cases hhalfOpen
  | probed now hready => exact ⟨⟨rfl, _, List.getElem?_concat_length, rfl, rfl⟩, rfl⟩
  | marked a i f ha hf => cases ha

/-- Step: a probe has the breaker to itself until it exits or its time is over. -/
theorem Effect.probe_kept {s t : System} {a : Action} {j : Nat} (h : Effect b s a t)
    (hs : Consistent s) (hprobed : ProbedBy j s) (ha : ∀ now result, a ≠ .leave j now result) :
    t.breaker = s.breaker ∧ ProbedBy j t ∨
      ∃ now, a.reading = some now ∧ s.breaker.probeUntil ≤ now := by
  obtain ⟨hhalfOpen, body, hget, hprobe, hcurrent⟩ := hprobed
  cases h with
  | rejected now retryAfter h => exact .inl ⟨rfl, hhalfOpen, body, hget, hprobe, hcurrent⟩
  | admitted now hphase =>
      rw [hhalfOpen] at hphase
      cases hphase
  | probed now hready =>
      rcases hready with ⟨hphase, -⟩ | ⟨-, hnow⟩
      · rw [hhalfOpen] at hphase
        cases hphase
      · exact .inr ⟨now, rfl, hnow⟩
  | marked a i f hreading hf =>
      refine .inl ⟨rfl, hhalfOpen, _, getElem?_modify_eq_some.mpr ⟨body, hget, rfl⟩, ?_⟩
      split
      · exact ⟨hprobe, (hf body.attempt).trans hcurrent⟩
      · exact ⟨hprobe, hcurrent⟩
  | left i now result other hother hrunning =>
      have hne : i ≠ j := fun heq => ha now result (heq ▸ rfl)
      have hstale : other.attempt.generation ≠ s.breaker.generation := by
        intro hsame
        have hphase := hs.current i other hother hsame
        rw [hhalfOpen] at hphase
        cases hotherProbe : other.probe with
        | false => simp [hotherProbe] at hphase
        | true =>
            exact hne (hs.probes i j other body hother hget hotherProbe hprobe
              (hsame.trans hcurrent.symm))
      have hbreaker : (leave b i other now result s).breaker = s.breaker := leave_stale hstale
      refine .inl ⟨hbreaker, hbreaker ▸ hhalfOpen, body, ?_, hprobe, hbreaker ▸ hcurrent⟩
      exact getElem?_modify_eq_some.mpr ⟨body, hget, by rw [if_neg hne]⟩

theorem probe_kept_of_run {t u : System} {more : List Action} {j : Nat}
    (h : Run (step b) t more u) (ht : Consistent t) (hprobed : ProbedBy j t)
    (hmore : ∀ now result, .leave j now result ∉ more) :
    u.breaker = t.breaker ∨ ∃ now ∈ readings more, t.breaker.probeUntil ≤ now := by
  have hkept : Consistent u ∧ ((∀ now result, .leave j now result ∉ more) →
      u.breaker = t.breaker ∧ ProbedBy j u ∨
        ∃ now ∈ readings more, t.breaker.probeUntil ≤ now) := by
    refine h.invariant (I := fun more u => Consistent u ∧
      ((∀ now result, .leave j now result ∉ more) → u.breaker = t.breaker ∧ ProbedBy j u ∨
        ∃ now ∈ readings more, t.breaker.probeUntil ≤ now)) ⟨ht, fun _ => .inl ⟨rfl, hprobed⟩⟩ ?_
    intro more u a v hu hstep
    obtain ⟨hconsistent, hpast⟩ := hu
    have heffect := step_effect hstep
    refine ⟨heffect.consistent hconsistent, fun hmore => ?_⟩
    rw [readings_concat]
    rcases hpast fun now result hmem => hmore now result (List.mem_append_left _ hmem) with
      ⟨hsame, hstill⟩ | ⟨now, hmem, hnow⟩
    · have ha (now : Rat) (result : Except Exc Unit) : a ≠ .leave j now result := fun heq =>
        hmore now result (List.mem_append_right _ (heq ▸ List.mem_singleton_self _))
      rcases heffect.probe_kept hconsistent hstill ha with ⟨hv, hstill⟩ | ⟨now, hreading, hover⟩
      · exact .inl ⟨hv.trans hsame, hstill⟩
      · exact .inr ⟨now, List.mem_append_right _ (by simp [hreading]), hsame ▸ hover⟩
    · exact .inr ⟨now, List.mem_append_left _ hmem, hnow⟩
  rcases hkept.2 hmore with ⟨hsame, -⟩ | hover
  · exact .inl hsame
  · exact .inr hover

/-- A generation has one probe, and that completes once. -/
theorem Consistent.probe_completions {s : System} (hs : Consistent s) (generation : Nat) :
    (s.completions.filter fun c => c.probe ∧ c.tookEffect ∧ c.generation = generation).length ≤
      1 := by
  have hnodup : ((s.completions.filter fun c => c.probe ∧ c.tookEffect ∧
      c.generation = generation).map Completion.body).Nodup :=
    hs.once.sublist (List.filter_sublist.map _)
  have hbody (c : Completion) (hmem : c ∈ s.completions.filter fun c =>
      c.probe ∧ c.tookEffect ∧ c.generation = generation) :
      ∃ body, s.bodies[c.body]? = some body ∧ body.probe = true ∧
        body.attempt.generation = generation := by
    obtain ⟨hlogged, hfilter⟩ := List.mem_filter.mp hmem
    obtain ⟨hprobe, -, hgeneration⟩ := of_decide_eq_true hfilter
    obtain ⟨body, hget, -, hsame, hkind⟩ := hs.logged c hlogged
    exact ⟨body, hget, hkind.trans hprobe, hsame.trans hgeneration⟩
  cases hlog : s.completions.filter fun c => c.probe ∧ c.tookEffect ∧ c.generation = generation with
  | nil => exact Nat.zero_le 1
  | cons c rest =>
      cases rest with
      | nil => exact Nat.le_refl 1
      | cons c' rest =>
          rw [hlog] at hnodup hbody
          obtain ⟨body, hget, hprobe, hgeneration⟩ := hbody c List.mem_cons_self
          obtain ⟨body', hget', hprobe', hgeneration'⟩ :=
            hbody c' (List.mem_cons_of_mem c List.mem_cons_self)
          have hsame := hs.probes c.body c'.body body body' hget hget' hprobe hprobe'
            (hgeneration.trans hgeneration'.symm)
          rw [List.map_cons, List.map_cons, hsame] at hnodup
          exact absurd List.mem_cons_self (List.nodup_cons.mp hnodup).1

/-- In every run: after a failure opened the breaker at `now`, nothing is admitted
before `now` plus the recovery timeout; after a probe was admitted at `now`,
nothing is admitted before the probe completes or that time; and of the half-open
attempts of one generation, at most one completes with an effect. -/
theorem breaker_excludes (b : CircuitBreaker) {past : List Action} {s : System}
    (hrun : Run (step b) {} past s) :
    (∀ i now result t more u later, step b s (.leave i now result) = some t →
      OpensByFailure s t → Run (step b) t more u →
      ClockMonotone (past ++ .leave i now result :: (more ++ [.enter later])) →
      Admits b later u → now + b.recoveryTimeout ≤ later) ∧
    (∀ now t more u later, step b s (.enter now) = some t →
      t.bodies.length = s.bodies.length + 1 → t.breaker.phase = .halfOpen →
      Run (step b) t more u → (∀ at' result, .leave s.bodies.length at' result ∉ more) →
      ClockMonotone (past ++ .enter now :: (more ++ [.enter later])) →
      Admits b later u → now + b.recoveryTimeout ≤ later) ∧
    ∀ generation, (s.completions.filter fun c =>
      c.probe ∧ c.tookEffect ∧ c.generation = generation).length ≤ 1 := by
  have hs := consistent_of_run hrun
  refine ⟨?_, ?_, hs.probe_completions⟩
  · intro i now result t more u later hstep hopens hmore hclock hadmits
    have ht := (step_effect hstep).consistent hs
    obtain ⟨body, -, rfl⟩ := Option.map_eq_some_iff.mp hstep
    rw [← openUntil_of_failure hopens]
    cases opened_kept_of_run hmore ht hopens.2.1 with
    | inl hsame =>
        have hover := hadmits.over_of_opened (hsame ▸ hopens.2.1)
        rwa [hsame] at hover
    | inr hover =>
        obtain ⟨reading, hmem, hreading⟩ := hover
        exact hreading.trans (hclock.le_last rfl hmem)
  · intro now t more u later hstep hlonger hhalfOpen hmore hrunning hclock hadmits
    have ht := (step_effect hstep).consistent hs
    obtain ⟨hprobed, huntil⟩ := probedBy_of_enter hstep hlonger hhalfOpen
    rw [← huntil]
    cases probe_kept_of_run hmore ht hprobed hrunning with
    | inl hsame =>
        have hover := hadmits.over_of_halfOpen (hsame ▸ hhalfOpen)
        rwa [hsame] at hover
    | inr hover =>
        obtain ⟨reading, hmem, hreading⟩ := hover
        exact hreading.trans (hclock.le_last rfl hmem)

theorem breaker_excludes_reopened :
    ∃ s t u, Run (step secondFailure) {} failedOnce s ∧
      step secondFailure s (.leave 1 2 unreachable) = some t ∧
      Run (step secondFailure) t [.leave 2 3 (.ok ())] u ∧ Admits secondFailure 22 u ∧
      2 + secondFailure.recoveryTimeout ≤ 22 := by
  have hrun : Run (step secondFailure) {} failedOnce _ := .of_foldlM rfl
  refine ⟨_, _, _, hrun, rfl, .of_foldlM rfl, ?_, ?_⟩
  · exact admits_of_over (.inl ⟨by decide +kernel, by decide +kernel⟩)
  refine (breaker_excludes secondFailure hrun).1 1 2 unreachable _ [.leave 2 3 (.ok ())] _ 22
    rfl ?_ (.of_foldlM rfl) (by decide +kernel)
    (admits_of_over (.inl ⟨by decide +kernel, by decide +kernel⟩))
  exact ⟨by decide +kernel, by decide +kernel, _, rfl, by decide +kernel⟩

/-! ## Rejections -/

/-- The time a rejection refers to is at most the recovery timeout away. -/
structure Timely (b : CircuitBreaker) (clock : Rat) (s : State) : Prop where
  opened : s.phase = .opened → s.openUntil ≤ clock + b.recoveryTimeout
  halfOpen : s.phase = .halfOpen → s.probeUntil ≤ clock + b.recoveryTimeout

section Time
variable {clock now : Rat} {s : State}

theorem Timely.openBreaker (h : now ≤ clock) (s : State) :
    Timely b clock (openBreaker b now s) :=
  ⟨fun _ => add_le_add_left h _, nofun⟩

theorem Timely.reserveProbe (h : now ≤ clock) (s : State) :
    Timely b clock (reserveProbe b now s).1 :=
  ⟨nofun, fun _ => add_le_add_left h _⟩

theorem Timely.close (s : State) : Timely b clock (close s) := by
  constructor
  · intro hopened
    cases hopened
  · intro hhalfOpen
    cases hhalfOpen

theorem Timely.recordIgnoredProbe (hs : Timely b clock s) (h : now ≤ clock) :
    Timely b clock (recordIgnoredProbe now s) := by
  unfold Breaker.recordIgnoredProbe
  split
  · exact ⟨fun _ => h.trans (le_add_of_nonneg_right b.recovery_pos.le), nofun⟩
  · exact hs

theorem Timely.complete (hs : Timely b clock s) (h : now ≤ clock) (attempt : Attempt)
    (raised : Bool) : Timely b clock (complete b now attempt raised s) := by
  by_cases hcurrent : attempt.generation = s.generation
  · rw [complete_eq_record hcurrent]
    cases verdict attempt raised with
    | neutral => exact hs.recordIgnoredProbe h
    | failure =>
        cases hphase : s.phase with
        | halfOpen => simpa only [record, hphase] using .openBreaker h s
        | closed | opened =>
            simp only [record, hphase]
            split
            · exact .openBreaker h _
            · exact ⟨fun hopened => hs.opened (hphase.trans hopened), fun hhalfOpen =>
                hs.halfOpen (hphase.trans hhalfOpen)⟩
    | success =>
        cases hphase : s.phase with
        | halfOpen => simpa only [record, hphase] using .close s
        | closed | opened =>
            simp only [record, hphase]
            exact ⟨fun hopened => hs.opened (hphase.trans hopened), fun hhalfOpen =>
              hs.halfOpen (hphase.trans hhalfOpen)⟩
  · rw [complete_stale hcurrent]
    exact hs

end Time

theorem timely_of_run {past : List Action} {s : System} (h : Run (step b) {} past s) :
    ∀ clock, (∀ now ∈ readings past, now ≤ clock) → Timely b clock s.breaker := by
  refine h.invariant (I := fun past s =>
    ∀ clock, (∀ now ∈ readings past, now ≤ clock) → Timely b clock s.breaker) ?_ ?_
  · exact fun _ _ => ⟨nofun, nofun⟩
  · intro past s a t hs hstep clock hclock
    rw [readings_concat] at hclock
    have hbefore := hs clock fun now hmem => hclock now (List.mem_append_left _ hmem)
    have hnow {now : Rat} (hreading : a.reading = some now) : now ≤ clock :=
      hclock now (List.mem_append_right _ (by simp [hreading]))
    cases step_effect hstep with
    | rejected now retryAfter h => exact hbefore
    | admitted now hphase => exact hbefore
    | probed now hready => exact .reserveProbe (hnow rfl) _
    | marked a i f ha hf => exact hbefore
    | left i now result body hget hrunning => exact hbefore.complete (hnow rfl) _ _

/-- In every run: a rejection changes nothing and names a wait between zero and the
recovery timeout, after which the next admission succeeds. -/
theorem breaker_never_stuck (b : CircuitBreaker) {past : List Action} {s : System}
    (hrun : Run (step b) {} past s) {now retryAfter : Rat}
    (hclock : ClockMonotone (past ++ [.enter now]))
    (hrejected : admitAttempt b now s.breaker = .error retryAfter) :
    step b s (.enter now) = some s ∧ 0 < retryAfter ∧ retryAfter ≤ b.recoveryTimeout ∧
      ∀ later, now + retryAfter ≤ later → Admits b later s := by
  have hbefore : ∀ reading ∈ readings past, reading ≤ now := by
    rw [ClockMonotone, readings_concat] at hclock
    exact fun reading hmem =>
      (List.pairwise_append.mp hclock).2.2 reading hmem now (List.mem_singleton_self now)
  have htimely := timely_of_run hrun now hbefore
  have hstep : step b s (.enter now) = some s := by simp [step, enter, hrejected]
  rcases admitAttempt_error hrejected with ⟨hphase, hwait, rfl⟩ | ⟨hphase, hwait, rfl⟩
  · refine ⟨hstep, sub_pos.mpr hwait, by linarith [htimely.opened hphase], ?_⟩
    exact fun later hlater => admits_of_over (.inl ⟨hphase, by linarith⟩)
  · refine ⟨hstep, sub_pos.mpr hwait, by linarith [htimely.halfOpen hphase], ?_⟩
    exact fun later hlater => admits_of_over (.inr ⟨hphase, by linarith⟩)

theorem breaker_never_stuck_reopened :
    ∃ s retryAfter, Run (step secondFailure) {} (failedOnce ++ [.leave 1 2 unreachable]) s ∧
      admitAttempt secondFailure 10 s.breaker = .error retryAfter ∧ 0 < retryAfter ∧
      Admits secondFailure (10 + retryAfter) s := by
  have hrun : Run (step secondFailure) {} (failedOnce ++ [.leave 1 2 unreachable]) _ :=
    .of_foldlM rfl
  have hrejected := breaker_never_stuck secondFailure hrun (by decide +kernel)
    (by decide +kernel : admitAttempt secondFailure 10 _ = .error 12)
  exact ⟨_, 12, hrun, by decide +kernel, hrejected.2.1, hrejected.2.2.2 _ le_rfl⟩

end DualeAI.Breaker
