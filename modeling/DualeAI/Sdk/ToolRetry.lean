import DualeAI.Events.Bridge
import DualeAI.Foundation.TimedRetry
import DualeAI.Sdk.ServerClock

/-!
The attempts of one tool call within its deadline.

Times are seconds. The deadline is the server's, and its clock is estimated as
the local one plus `clockOffset`, which stays the same during a call. A callable is
given by how long it would run and what it would come to; it ends at once when its
timeout cancels it.
-/
namespace DualeAI.ToolCall
open Agent (estimatedServerTime)
open Foundation

/-- The read-only handle that a running callable sees. -/
structure ToolContext where
  toolCallId : Text
  taskId : Text
  attempt : Nat
  deadlineAt : Rat

/-- `remaining_seconds` of a callable that reads the clock at `now`. -/
def ToolContext.remainingSeconds (context : ToolContext) (now : Rat) : Rat :=
  max 0 (context.deadlineAt - now)

def ToolContext.isExpiring (context : ToolContext) (now : Rat) (withinSeconds : Rat := 1 / 2) :
    Bool :=
  context.remainingSeconds now ≤ withinSeconds

/-- One run of a callable, left alone. -/
structure CallableRun (β : Type) where
  duration : Rat
  result : Except Exc β
  /-- Whether it still ends by itself where that is just at its timeout. -/
  endsFirst : Bool
  duration_nonneg : 0 ≤ duration

structure RegisteredToolCallable (β : Type) where
  timeoutSeconds : Rat
  retries : Nat
  function : ToolContext → (startedAt : Rat) → CallableRun β
  timeout_pos : 0 < timeoutSeconds

def toolRetryBackoffMax : Rat := 1

/-- A wait of the randomised exponential backoff. -/
structure Backoff where
  wait : Rat
  wait_nonneg : 0 ≤ wait
  wait_le : wait ≤ toolRetryBackoffMax

/-- A start of the callable, with the timeout it ran under. -/
structure CallableStart (β : Type) where
  context : ToolContext
  startedAt : Rat
  timeout : Rat
  endedAt : Rat
  result : Except Exc β

def timeoutError : Exc := .other "TimeoutError"

/-- `asyncio.wait_for`: when the call ends, and how. -/
def waitFor {β : Type} (call : CallableRun β) (timeout now : Rat) : Rat × Except Exc β :=
  if call.duration < timeout ∨ call.duration = timeout ∧ call.endsFirst then
    (now + call.duration, call.result)
  else (now + timeout, .error timeoutError)

section Retry
variable {β : Type} (tool : RegisteredToolCallable β) (clockOffset : Rat) (backoff : Nat → Backoff)
  (taskId toolCallId : Text) (deadlineAt : Rat)

/-- What is left of the call at a reading of the local clock, not below zero. -/
def deadlineBudget (now : Rat) : Rat := max 0 (deadlineAt - estimatedServerTime clockOffset now)

/-- The body of the retry loop. -/
def attemptTool (number : Nat) (now : Rat) : AttemptRun Rat Exc (CallableStart β) β :=
  let remaining := deadlineAt - estimatedServerTime clockOffset now
  if remaining ≤ 0 then ⟨[], now, .error timeoutError⟩
  else
    let context : ToolContext := ⟨toolCallId, taskId, number, deadlineAt⟩
    let timeout := min tool.timeoutSeconds remaining
    let (endedAt, result) := waitFor (tool.function context now) timeout now
    ⟨[⟨context, now, timeout, endedAt, result⟩], endedAt, result⟩

/-- `stop_after_delay` once an attempt has failed at `now`. -/
def stopAfterDelay (budget startedAt now : Rat) : Bool := budget ≤ now - startedAt

def invokeRegisteredToolWithRetry (startedAt : Rat) :
    AttemptRun Rat Exc (CallableStart β) β :=
  TimedRetry.retrying Exc.isException
    (stopAfterDelay (deadlineBudget clockOffset deadlineAt startedAt) startedAt)
    (fun number => (backoff number).wait)
    (attemptTool tool clockOffset taskId toolCallId deadlineAt)
    (tool.retries + 1) startedAt

/-! ## One attempt -/

/-- What the deadline and the tool's timeout ask of a start, which is told the
deadline. -/
structure WithinLimits (c : CallableStart β) : Prop where
  context_deadline : c.context.deadlineAt = deadlineAt
  beforeDeadline : estimatedServerTime clockOffset c.startedAt < deadlineAt
  timeout_le : c.timeout ≤
    min tool.timeoutSeconds (deadlineBudget clockOffset deadlineAt c.startedAt)
  honoured : c.endedAt - c.startedAt ≤ c.timeout

variable {tool clockOffset backoff taskId toolCallId deadlineAt} {number : Nat} {now : Rat}

theorem deadlineBudget_of_pos (h : 0 < deadlineAt - estimatedServerTime clockOffset now) :
    deadlineBudget clockOffset deadlineAt now =
      deadlineAt - estimatedServerTime clockOffset now :=
  max_eq_right (le_of_lt h)

/-- The local time at which the budget of a call is used up. -/
theorem sub_le_deadlineBudget {startedAt : Rat}
    (h : estimatedServerTime clockOffset now ≤ deadlineAt) :
    now - startedAt ≤ deadlineBudget clockOffset deadlineAt startedAt := by
  have hserver : now - startedAt ≤ deadlineAt - estimatedServerTime clockOffset startedAt := by
    rw [estimatedServerTime] at h ⊢
    linarith
  exact le_trans hserver (le_max_right _ _)

theorem waitFor_bounds (call : CallableRun β) (now : Rat) {timeout : Rat} (h : 0 < timeout) :
    now ≤ (waitFor call timeout now).1 ∧ (waitFor call timeout now).1 ≤ now + timeout := by
  have hduration := call.duration_nonneg
  rw [waitFor]
  split
  · next hends =>
      have hle : call.duration ≤ timeout := by
        cases hends with
        | inl hlt => exact le_of_lt hlt
        | inr htie => exact le_of_eq htie.1
      constructor
      · exact le_add_of_nonneg_right hduration
      · exact add_le_add_right hle now
  · exact ⟨le_add_of_nonneg_right (le_of_lt h), le_refl _⟩

/-- An attempt gives up at once, at the deadline or after it, or starts the callable
and ends by the deadline as the callable does. -/
theorem attemptTool_cases (tool : RegisteredToolCallable β) (clockOffset : Rat)
    (taskId toolCallId : Text) (deadlineAt : Rat) (number : Nat) (now : Rat) :
    ((attemptTool tool clockOffset taskId toolCallId deadlineAt number now).yields = [] ∧
      (attemptTool tool clockOffset taskId toolCallId deadlineAt number now).state = now ∧
      (attemptTool tool clockOffset taskId toolCallId deadlineAt number now).result =
        .error timeoutError) ∨
    ∃ c : CallableStart β, WithinLimits tool clockOffset deadlineAt c ∧
      estimatedServerTime clockOffset c.endedAt ≤ deadlineAt ∧
      (attemptTool tool clockOffset taskId toolCallId deadlineAt number now).yields = [c] ∧
      (attemptTool tool clockOffset taskId toolCallId deadlineAt number now).state = c.endedAt ∧
      (attemptTool tool clockOffset taskId toolCallId deadlineAt number now).result =
        c.result := by
  rw [attemptTool]
  by_cases hexpired : deadlineAt - estimatedServerTime clockOffset now ≤ 0
  · rw [if_pos hexpired]
    exact .inl ⟨rfl, rfl, rfl⟩
  · rw [if_neg hexpired]
    have hremaining := not_le.mp hexpired
    have htimeout :
        0 < min tool.timeoutSeconds (deadlineAt - estimatedServerTime clockOffset now) :=
      lt_min tool.timeout_pos hremaining
    have hbounds :=
      waitFor_bounds (tool.function ⟨toolCallId, taskId, number, deadlineAt⟩ now) now htimeout
    have hcap := min_le_right tool.timeoutSeconds (deadlineAt - estimatedServerTime clockOffset now)
    refine .inr ⟨_, ⟨rfl, sub_pos.mp hremaining, ?_, ?_⟩, ?_, rfl, rfl, rfl⟩
    · rw [deadlineBudget_of_pos hremaining]
    · exact sub_le_iff_le_add'.mpr hbounds.2
    · have hend := hbounds.2
      simp only [estimatedServerTime] at hcap hend ⊢
      linarith

/-! ## The whole call -/

variable (tool clockOffset deadlineAt)

/-- Before attempt `number`, at `now`. -/
structure Underway (startedAt : Rat) (number : Nat) (past : List (CallableStart β)) (now : Rat) :
    Prop where
  attempts : past.length < number
  limits : ∀ c ∈ past, WithinLimits tool clockOffset deadlineAt c
  failed : ∀ c ∈ past, ∃ e, c.result = .error e
  elapsed : now - startedAt ≤
    deadlineBudget clockOffset deadlineAt startedAt + toolRetryBackoffMax

/-- After the last attempt. -/
structure Ended (startedAt : Rat) (number : Nat) (past : List (CallableStart β)) (now : Rat)
    (result : Except Exc β) : Prop where
  attempts : past.length ≤ number
  limits : ∀ c ∈ past, WithinLimits tool clockOffset deadlineAt c
  success : ∀ before c rest v, past = before ++ c :: rest → c.result = .ok v →
    rest = [] ∧ result = .ok v
  elapsed : now - startedAt ≤
    deadlineBudget clockOffset deadlineAt startedAt + toolRetryBackoffMax

variable {tool clockOffset deadlineAt}

theorem success_unique {past : List (CallableStart β)} {c : CallableStart β}
    (h : ∀ c ∈ past, ∃ e, c.result = .error e) {before rest : List (CallableStart β)}
    {first : CallableStart β} {v : β} (hsplit : past ++ [c] = before ++ first :: rest)
    (hfirst : first.result = .ok v) : rest = [] ∧ c.result = .ok v := by
  cases List.eq_nil_or_concat rest with
  | inl hnil =>
      rw [hnil] at hsplit
      have hlast := (List.append_inj' hsplit rfl).2
      cases hlast
      exact ⟨hnil, hfirst⟩
  | inr hconcat =>
      obtain ⟨front, last, hconcat⟩ := hconcat
      rw [hconcat, List.concat_eq_append, ← List.cons_append, ← List.append_assoc] at hsplit
      have hpast := (List.append_inj' hsplit rfl).1
      have hmem : first ∈ past := by
        rw [hpast]
        exact List.mem_append_right _ List.mem_cons_self
      obtain ⟨e, he⟩ := h first hmem
      rw [hfirst] at he
      cases he

variable {startedAt : Rat} {past : List (CallableStart β)}

theorem underway_start : Underway tool clockOffset deadlineAt startedAt 1 [] startedAt where
  attempts := Nat.zero_lt_one
  limits := fun _ hmem => absurd hmem List.not_mem_nil
  failed := fun _ hmem => absurd hmem List.not_mem_nil
  elapsed := by
    have hbudget : 0 ≤ deadlineBudget clockOffset deadlineAt startedAt := le_max_left _ _
    have hmax : 0 ≤ toolRetryBackoffMax := by decide
    rw [sub_self]
    exact add_nonneg hbudget hmax

theorem Underway.limits_concat (h : Underway tool clockOffset deadlineAt startedAt number past now)
    {c : CallableStart β} (hc : WithinLimits tool clockOffset deadlineAt c) :
    ∀ c' ∈ past ++ [c], WithinLimits tool clockOffset deadlineAt c' := by
  intro c' hmem
  cases List.mem_append.mp hmem with
  | inl hold => exact h.limits c' hold
  | inr hnew =>
      rw [List.mem_singleton.mp hnew]
      exact hc

theorem elapsed_after_sleep {wait : Rat} (hwait : wait ≤ toolRetryBackoffMax)
    (h : stopAfterDelay (deadlineBudget clockOffset deadlineAt startedAt) startedAt now = false) :
    now + wait - startedAt ≤
      deadlineBudget clockOffset deadlineAt startedAt + toolRetryBackoffMax := by
  rw [stopAfterDelay, decide_eq_false_iff_not, not_le] at h
  linarith

theorem Underway.next (backoff : Nat → Backoff) (taskId toolCallId : Text)
    (h : Underway tool clockOffset deadlineAt startedAt number past now)
    (hgoesOn : TimedRetry.GoesOn Exc.isException
      (stopAfterDelay (deadlineBudget clockOffset deadlineAt startedAt) startedAt)
      (attemptTool tool clockOffset taskId toolCallId deadlineAt number now)) :
    Underway tool clockOffset deadlineAt startedAt (number + 1)
      (past ++ (attemptTool tool clockOffset taskId toolCallId deadlineAt number now).yields)
      ((attemptTool tool clockOffset taskId toolCallId deadlineAt number now).state +
        (backoff number).wait) := by
  obtain ⟨e, herror, -, hlive⟩ := hgoesOn
  have helapsed := elapsed_after_sleep (backoff number).wait_le hlive
  cases attemptTool_cases tool clockOffset taskId toolCallId deadlineAt number now with
  | inl hexpired =>
      rw [hexpired.1, List.append_nil]
      exact ⟨Nat.lt_succ_of_lt h.attempts, h.limits, h.failed, helapsed⟩
  | inr hstarted =>
      obtain ⟨c, hc, -, hyields, -, hresult⟩ := hstarted
      rw [hyields]
      refine ⟨?_, h.limits_concat hc, ?_, helapsed⟩
      · rw [List.length_append, List.length_singleton]
        exact Nat.succ_lt_succ h.attempts
      · intro c' hmem
        cases List.mem_append.mp hmem with
        | inl hold => exact h.failed c' hold
        | inr hnew =>
            rw [List.mem_singleton.mp hnew]
            exact ⟨e, hresult.symm.trans herror⟩

theorem Underway.stop (taskId toolCallId : Text)
    (h : Underway tool clockOffset deadlineAt startedAt number past now) :
    Ended tool clockOffset deadlineAt startedAt number
      (past ++ (attemptTool tool clockOffset taskId toolCallId deadlineAt number now).yields)
      (attemptTool tool clockOffset taskId toolCallId deadlineAt number now).state
      (attemptTool tool clockOffset taskId toolCallId deadlineAt number now).result := by
  cases attemptTool_cases tool clockOffset taskId toolCallId deadlineAt number now with
  | inl hexpired =>
      obtain ⟨hyields, hstate, hresult⟩ := hexpired
      rw [hyields, hstate, hresult, List.append_nil]
      refine ⟨Nat.le_of_lt h.attempts, h.limits, ?_, h.elapsed⟩
      intro before c rest v hsplit hok
      have hmem : c ∈ past := by
        rw [hsplit]
        exact List.mem_append_right _ List.mem_cons_self
      obtain ⟨e, he⟩ := h.failed c hmem
      rw [hok] at he
      cases he
  | inr hstarted =>
      obtain ⟨c, hc, hended, hyields, hstate, hresult⟩ := hstarted
      rw [hyields, hstate, hresult]
      refine ⟨?_, h.limits_concat hc, ?_, ?_⟩
      · rw [List.length_append, List.length_singleton]
        exact h.attempts
      · intro before first rest v hsplit hok
        exact success_unique h.failed hsplit hok
      · have hmax : 0 ≤ toolRetryBackoffMax := by decide
        exact le_trans (sub_le_deadlineBudget hended) (le_add_of_nonneg_right hmax)

theorem ended_of_call (tool : RegisteredToolCallable β) (clockOffset : Rat)
    (backoff : Nat → Backoff) (taskId toolCallId : Text) (deadlineAt startedAt : Rat) :
    let run := invokeRegisteredToolWithRetry tool clockOffset backoff taskId toolCallId deadlineAt
      startedAt
    Ended tool clockOffset deadlineAt startedAt (tool.retries + 1) run.yields run.state
      run.result := by
  obtain ⟨last, hlast, hended⟩ := TimedRetry.attemptsFrom_rule
    (I := Underway tool clockOffset deadlineAt startedAt)
    (Q := Ended tool clockOffset deadlineAt startedAt)
    (fun number now past h hgoesOn => h.next backoff taskId toolCallId hgoesOn)
    (fun number now past h => h.stop taskId toolCallId)
    tool.retries 1 startedAt [] underway_start
  rw [List.nil_append] at hended
  rw [Nat.add_comm] at hlast
  exact ⟨le_trans hended.attempts hlast, hended.limits, hended.success, hended.elapsed⟩

/-- The callable is started at most `retries + 1` times, each time before the deadline
and under a timeout that neither the tool's own nor the budget left exceeds; a start
that succeeds is the last one and its value is returned; and the call is over within
its budget and one longest backoff. -/
theorem invokeRegisteredToolWithRetry_bounded (tool : RegisteredToolCallable β)
    (clockOffset : Rat) (backoff : Nat → Backoff) (taskId toolCallId : Text)
    (deadlineAt startedAt : Rat) :
    let run := invokeRegisteredToolWithRetry tool clockOffset backoff taskId toolCallId deadlineAt
      startedAt
    run.yields.length ≤ tool.retries + 1 ∧
      (∀ c ∈ run.yields, estimatedServerTime clockOffset c.startedAt < deadlineAt ∧
        c.timeout ≤ min tool.timeoutSeconds (deadlineBudget clockOffset deadlineAt c.startedAt) ∧
        c.endedAt - c.startedAt ≤ c.timeout) ∧
      (∀ before c rest v, run.yields = before ++ c :: rest → c.result = .ok v →
        rest = [] ∧ run.result = .ok v) ∧
      run.state - startedAt ≤
        max 0 (deadlineAt - estimatedServerTime clockOffset startedAt) + toolRetryBackoffMax := by
  have hended :=
    ended_of_call tool clockOffset backoff taskId toolCallId deadlineAt startedAt
  refine ⟨hended.attempts, ?_, hended.success, hended.elapsed⟩
  intro c hmem
  have hlimits := hended.limits c hmem
  exact ⟨hlimits.beforeDeadline, hlimits.timeout_le, hlimits.honoured⟩

/-! ## What the callable sees of the deadline -/

/-- The two views of the budget agree at `now`. -/
def ViewsAgree (clockOffset deadlineAt : Rat) (context : ToolContext) (now : Rat) : Prop :=
  context.remainingSeconds now = deadlineBudget clockOffset deadlineAt now ∧
    ∀ withinSeconds, context.isExpiring now withinSeconds =
      decide (deadlineBudget clockOffset deadlineAt now ≤ withinSeconds)

theorem max_zero_sub_eq_iff {a b : Rat} : max 0 a = max 0 b ↔ a = b ∨ a ≤ 0 ∧ b ≤ 0 := by
  constructor
  · intro h
    cases le_total a 0 with
    | inl ha =>
        rw [max_eq_left ha] at h
        exact .inr ⟨ha, max_eq_left_iff.mp h.symm⟩
    | inr ha =>
        rw [max_eq_right ha] at h
        cases le_total b 0 with
        | inl hb =>
            rw [max_eq_left hb] at h
            exact .inr ⟨le_of_eq h, hb⟩
        | inr hb =>
            rw [max_eq_right hb] at h
            exact .inl h
  · intro h
    cases h with
    | inl heq => rw [heq]
    | inr hboth => rw [max_eq_left hboth.1, max_eq_left hboth.2]

theorem viewsAgree_iff (context : ToolContext) (now : Rat) :
    ViewsAgree clockOffset deadlineAt context now ↔
      context.remainingSeconds now = deadlineBudget clockOffset deadlineAt now := by
  constructor
  · intro hagree
    exact hagree.1
  · intro hremaining
    refine ⟨hremaining, fun withinSeconds => ?_⟩
    rw [ToolContext.isExpiring, hremaining]

/-- A callable's view of its deadline is the enforced one exactly while the clocks are
taken to agree, or once the deadline has passed on both. -/
theorem toolContext_agrees_iff (tool : RegisteredToolCallable β) (clockOffset : Rat)
    (backoff : Nat → Backoff) (taskId toolCallId : Text) (deadlineAt startedAt : Rat)
    (c : CallableStart β)
    (hc : c ∈ (invokeRegisteredToolWithRetry tool clockOffset backoff taskId toolCallId deadlineAt
      startedAt).yields) (now : Rat) :
    ViewsAgree clockOffset deadlineAt c.context now ↔
      clockOffset = 0 ∨ deadlineAt ≤ now ∧ deadlineAt ≤ estimatedServerTime clockOffset now := by
  have hended :=
    ended_of_call tool clockOffset backoff taskId toolCallId deadlineAt startedAt
  have hdeadline := (hended.limits c hc).context_deadline
  rw [viewsAgree_iff, ToolContext.remainingSeconds, hdeadline, deadlineBudget,
    max_zero_sub_eq_iff, sub_nonpos, sub_nonpos, sub_right_inj, estimatedServerTime,
    left_eq_add]

end Retry

/-! ## A call under a clock offset -/

theorem zero_le_second : (0 : Rat) ≤ 1 := by decide

theorem minute_pos : (0 : Rat) < 60 := by decide

/-- A tool whose callable takes a second. -/
def promptTool : RegisteredToolCallable Unit where
  timeoutSeconds := 60
  retries := 0
  function := fun _ _ => ⟨1, .ok (), true, zero_le_second⟩
  timeout_pos := minute_pos

def secondBackoff (_ : Nat) : Backoff := ⟨1, zero_le_second, le_refl _⟩

/-- The context of a call whose deadline is at 20. -/
def promptStart : CallableStart Unit := ⟨⟨[], [], 1, 20⟩, 5, 6, 6, .ok ()⟩

/-- What a heartbeat of the lifecycle makes of a server that is ten seconds ahead. -/
def heartbeatOffset : Rat := Agent.sampleOffset 10 0 (.answered Agent.unevenExchange)

theorem promptTool_starts : (invokeRegisteredToolWithRetry promptTool heartbeatOffset secondBackoff
    [] [] 20 5).yields = [promptStart] := by
  have hremaining : 20 - estimatedServerTime heartbeatOffset 5 = 6 := by decide +kernel
  have htimeout : min promptTool.timeoutSeconds 6 = 6 := by decide +kernel
  have hwait : waitFor (promptTool.function ⟨[], [], 1, 20⟩ 5) 6 5 = (6, .ok ()) := by
    have hends : (1 : Rat) < 6 ∨ (1 : Rat) = 6 ∧ true = true := .inl (by decide +kernel)
    have hended : (5 : Rat) + 1 = 6 := by decide +kernel
    rw [waitFor, promptTool, if_pos hends, hended]
  have hattempt : (attemptTool promptTool heartbeatOffset [] [] 20 1 5).yields = [promptStart] := by
    rw [attemptTool, hremaining, if_neg (by decide +kernel), htimeout]
    simp only [hwait]
    rfl
  exact hattempt

/-- Six seconds are left of the call, and its callable is told fifteen. -/
theorem toolContext_overstates :
    promptStart ∈ (invokeRegisteredToolWithRetry promptTool heartbeatOffset secondBackoff
        [] [] 20 5).yields ∧
      ¬ ViewsAgree heartbeatOffset 20 promptStart.context 5 := by
  rw [promptTool_starts]
  refine ⟨List.mem_singleton_self _, fun h => ?_⟩
  have hdiffer : promptStart.context.remainingSeconds 5 ≠ deadlineBudget heartbeatOffset 20 5 := by
    decide +kernel
  exact hdiffer h.1

theorem toolContext_agrees_late :
    ViewsAgree heartbeatOffset 20 promptStart.context 20 := by
  have hmem : promptStart ∈ (invokeRegisteredToolWithRetry promptTool heartbeatOffset secondBackoff
      [] [] 20 5).yields := by
    rw [promptTool_starts]
    exact List.mem_singleton_self _
  refine (toolContext_agrees_iff _ _ _ _ _ _ _ _ hmem 20).mpr (.inr ?_)
  decide +kernel

end DualeAI.ToolCall
