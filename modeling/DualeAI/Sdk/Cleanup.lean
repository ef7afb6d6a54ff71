import DualeAI.Sdk.Lifecycle

/-!
`DualeAISDK.cleanup`, on its own and as the shutdown step of `serve`.

What follows `aclose` in `cleanup` happens only when `aclose` returns, and
`aclose` returns exactly when neither background task ends with an exception of
its own.
-/
namespace DualeAI.Shutdown
open Foundation Procedure

/-- The classes named by the `except` clause around the graceful close, with the
subclasses the interpreter raises. -/
def caughtByClose : Exc → Bool
  | .cancelled => true
  | .client kind => kind == .serverTimeoutError
  | .other className =>
      ["RuntimeError", "RecursionError", "NotImplementedError", "AttributeError",
        "TimeoutError"].contains className
  | _ => false

/-- `_cleanup_inflight_tasks`: the cancelled runners are gathered with their exceptions. -/
def cleanupInflightTasks : Coroutine :=
  modify fun s => if s.inflightTasks = [] then s else { s with inflightTasks := [] }

/-- `_cleanup_tool_result_tasks`, where nothing is cleared if no task is left. -/
def cleanupToolResultTasks : Coroutine :=
  modify fun s =>
    if s.toolResultTasks = [] then s
    else { s with toolResultTasks := [], scheduledToolUses := [] }

def shutdownExecutor : Coroutine := modify fun s => { s with syncToolExecutor := false }

def release (held : Sdk → Bool) (c : Call) (result : Uninterrupted) (drop : Sdk → Sdk) :
    Coroutine := do
  if held (← get) then
    suppress Exc.isException (call c result.val)
    modify drop
  else pure ()

section Cleanup
variable (env : Environment)

def forceClose : Coroutine :=
  if env.leftOpen then suppress Exc.isException (call .closeScheduler env.closeScheduler.val)
  else pure ()

def closeGracefully : Coroutine :=
  excepting caughtByClose (call .waitAndClose env.waitAndClose) fun _ => forceClose env

def cleanupScheduler : Coroutine := do
  if (← get).scheduler.any Scheduler.closable then
    try closeGracefully env
    finally modify fun s => { s with scheduler := none }
  else pure ()

def disconnectClient : Coroutine :=
  release (fun s => s.eventsClient.isSome) .disconnect env.disconnect
    fun s => { s with eventsClient := none }

def closeCache : Coroutine :=
  release (fun s => s.cache) .closeCache env.closeCache fun s => { s with cache := false }

def cleanup : Coroutine := do
  cleanupInflightTasks
  cleanupToolResultTasks
  shutdownExecutor
  aclose env
  cleanupScheduler env
  disconnectClient env
  closeCache env

inductive ServeExit where
  | stopped
  | heartbeatEnded
  /-- `start` failed, or the wait was interrupted. -/
  | raised (e : Exc)

def leaveWait : ServeExit → Coroutine
  | .stopped => pure ()
  | .heartbeatEnded => do
      match (← get).lifecycle.heartbeatTask with
      | some (.finished result) => await result
      | _ => pure ()
  | .raised e => throw e

def serve (exit : ServeExit) : Coroutine := do
  try leaveWait exit
  finally cleanup env

end Cleanup

/-! ## The steps -/

section Steps
variable {env : Environment}

def drained (s : Sdk) : Sdk :=
  { s with
    inflightTasks := []
    toolResultTasks := []
    scheduledToolUses := if s.toolResultTasks = [] then s.scheduledToolUses else []
    syncToolExecutor := false }

theorem cleanup_run (s : Sdk) :
    (cleanup env).run s =
      (do aclose env; cleanupScheduler env; disconnectClient env; closeCache env : Coroutine).run
        (drained s) := by
  have hinflight : (if s.inflightTasks = [] then s else { s with inflightTasks := [] }) =
      { s with inflightTasks := [] } := by
    split
    · next h => rw [← h]
    · rfl
  rw [cleanup, cleanupInflightTasks, modify_bind, hinflight, cleanupToolResultTasks, modify_bind,
    shutdownExecutor, modify_bind, drained]
  by_cases h : s.toolResultTasks = []
  · simp only [h, ite_true]
  · simp only [h, ite_false]

theorem suppressedCall_run (c : Call) (result : Uninterrupted) (s : Sdk) :
    (suppress Exc.isException (call c result.val)).run s =
      .ok () { s with calls := s.calls ++ [c] } := by
  obtain ⟨result, hresult⟩ := result
  cases result with
  | ok u => rfl
  | error e =>
      have hrun : (call c (.error e)).run s = .error e { s with calls := s.calls ++ [c] } := rfl
      exact excepting_of_caught hrun (hresult e rfl)

theorem release_run {held : Sdk → Bool} {drop : Sdk → Sdk}
    (hdrop : ∀ s, held s = false → drop s = s) (c : Call) (result : Uninterrupted) (s : Sdk) :
    (release held c result drop).run s =
      .ok () (if held s then drop { s with calls := s.calls ++ [c] } else drop s) := by
  rw [release, get_bind]
  cases hheld : held s with
  | false =>
      simp only [Bool.false_eq_true, ite_false, hdrop s hheld]
      rfl
  | true => exact bind_of_ok (suppressedCall_run c result s) _

theorem disconnectClient_run (s : Sdk) :
    (disconnectClient env).run s = .ok () { s with
      eventsClient := none
      calls := s.calls ++ if s.eventsClient.isSome then [.disconnect] else [] } := by
  have hdrop (s : Sdk) (h : s.eventsClient.isSome = false) :
      { s with eventsClient := none } = s := by
    rw [← Option.isNone_iff_eq_none.mp (by simpa using h)]
  rw [disconnectClient, release_run hdrop]
  cases s.eventsClient.isSome with
  | true => rfl
  | false => simp

theorem closeCache_run (s : Sdk) :
    (closeCache env).run s = .ok () { s with
      cache := false
      calls := s.calls ++ if s.cache then [.closeCache] else [] } := by
  have hdrop (s : Sdk) (h : s.cache = false) : { s with cache := false } = s := by rw [← h]
  rw [closeCache, release_run hdrop]
  cases s.cache with
  | true => rfl
  | false => simp

theorem closeGracefully_run (h : RaisesOnly caughtByClose env.waitAndClose) (s : Sdk) :
    ∃ made, .waitAndClose ∈ made ∧
      (closeGracefully env).run s = .ok () { s with calls := s.calls ++ made } := by
  rw [closeGracefully]
  cases hclose : env.waitAndClose with
  | ok u => exact ⟨[.waitAndClose], List.mem_singleton_self _, excepting_of_ok rfl⟩
  | error e =>
      have hrun : (call .waitAndClose (.error e)).run s =
        .error e { s with calls := s.calls ++ [.waitAndClose] } := rfl
      rw [excepting_of_caught hrun (h e hclose), forceClose]
      cases env.leftOpen with
      | false => exact ⟨[.waitAndClose], List.mem_singleton_self _, rfl⟩
      | true =>
          refine ⟨[.waitAndClose] ++ [.closeScheduler], List.mem_cons_self, ?_⟩
          rw [if_pos rfl, suppressedCall_run, List.append_assoc]

theorem cleanupScheduler_run (h : RaisesOnly caughtByClose env.waitAndClose) (s : Sdk) :
    ∃ made, (s.scheduler.any Scheduler.closable = true → .waitAndClose ∈ made) ∧
      (cleanupScheduler env).run s = .ok () { s with
        scheduler := if s.scheduler.any Scheduler.closable then none else s.scheduler
        calls := s.calls ++ made } := by
  rw [cleanupScheduler, get_bind]
  by_cases hclosable : s.scheduler.any Scheduler.closable = true
  · obtain ⟨made, hwaited, hclosed⟩ := closeGracefully_run h s
    rw [if_pos hclosable, if_pos hclosable]
    exact ⟨made, fun _ => hwaited, finally_of_ok hclosed rfl⟩
  · refine ⟨[], fun h => absurd h hclosable, ?_⟩
    rw [if_neg hclosable, if_neg hclosable, List.append_nil]
    rfl

end Steps

/-! ## Shutting down -/

def HoldsOpen (s : Sdk) : Prop := ∃ scheduler ∈ s.scheduler, scheduler.closed = false

/-- An open scheduler without jobs. -/
def HoldsIdle (s : Sdk) : Prop :=
  ∃ scheduler ∈ s.scheduler, scheduler.closed = false ∧ scheduler.jobs = 0

/-- What the steps of `cleanup` after `aclose` do, from the state it was called in. -/
structure Released (s t : Sdk) : Prop where
  scheduler : t.scheduler = if s.scheduler.any Scheduler.closable then none else s.scheduler
  eventsClient : t.eventsClient = none
  cache : t.cache = false
  calls : ∃ made, t.calls = s.calls ++ made ∧
    (s.scheduler.any Scheduler.closable = true → .waitAndClose ∈ made) ∧
    (s.eventsClient.isSome = true → .disconnect ∈ made) ∧
    (s.cache = true → .closeCache ∈ made)

/-- What they are for. -/
structure TornDown (s t : Sdk) : Prop where
  scheduler : ¬ HoldsOpen t
  eventsClient : t.eventsClient = none
  cache : t.cache = false
  calls : ∃ made, t.calls = s.calls ++ made ∧
    (HoldsOpen s → .waitAndClose ∈ made) ∧
    (s.eventsClient.isSome = true → .disconnect ∈ made) ∧
    (s.cache = true → .closeCache ∈ made)

/-- `aclose` closes the lifecycle, and `cleanup` tears the SDK down on both routes. -/
structure ShutsDown (env : Environment) (s : Sdk) : Prop where
  aclose : ∃ t, (aclose env).run s = .ok () t ∧ Closed env s t
  cleanup : ∃ t, (cleanup env).run s = .ok () t ∧ TornDown s t
  serve : ∀ exit, TornDown s (stateAfter (serve env exit) s)

section Shutdown
variable {env : Environment}

/-- Only a scheduler without jobs is taken for none. -/
theorem closable_of_open {s : Sdk} (hidle : ¬ HoldsIdle s) (hopen : HoldsOpen s) :
    s.scheduler.any Scheduler.closable = true := by
  obtain ⟨scheduler, hmem, hclosed⟩ := hopen
  have hjobs : scheduler.jobs ≠ 0 := fun h => hidle ⟨scheduler, hmem, hclosed, h⟩
  rw [Option.any_eq_true]
  exact ⟨scheduler, hmem, by simp [Scheduler.closable, hclosed, hjobs]⟩

theorem Released.tornDown {s t : Sdk} (h : Released s t) (hidle : ¬ HoldsIdle s) :
    TornDown s t := by
  obtain ⟨made, hcalls, hwaited, hmade⟩ := h.calls
  refine ⟨?_, h.eventsClient, h.cache, made, hcalls,
    fun hopen => hwaited (closable_of_open hidle hopen), hmade⟩
  rintro ⟨scheduler, hmem, hclosed⟩
  rw [h.scheduler] at hmem
  split at hmem
  · cases hmem
  · next hnone => exact hnone (closable_of_open hidle ⟨scheduler, hmem, hclosed⟩)

theorem Released.idle {s t : Sdk} (h : Released s t) (hidle : HoldsIdle s) : HoldsOpen t := by
  obtain ⟨scheduler, hmem, hclosed, hjobs⟩ := hidle
  refine ⟨scheduler, ?_, hclosed⟩
  rw [h.scheduler, Option.mem_def.mp hmem]
  simp [Scheduler.closable, hjobs]

theorem release_steps_run (h : RaisesOnly caughtByClose env.waitAndClose) (s : Sdk) :
    ∃ t, (do cleanupScheduler env; disconnectClient env; closeCache env : Coroutine).run s =
      .ok () t ∧ Released s t := by
  obtain ⟨made, hwaited, hscheduler⟩ := cleanupScheduler_run h s
  refine ⟨_, (bind_of_ok hscheduler _).trans ((bind_of_ok (disconnectClient_run _) _).trans
    (closeCache_run _)), rfl, rfl, rfl, made ++ ((if s.eventsClient.isSome then [.disconnect] else
      []) ++ if s.cache then [.closeCache] else []), ?_, ?_, ?_, ?_⟩
  · simp only [List.append_assoc]
  · exact fun hopen => List.mem_append_left _ (hwaited hopen)
  · intro hclient
    simp [hclient]
  · intro hcache
    simp [hcache]

theorem Released.of_aclose {s t u : Sdk} {made : List Call}
    (h : OnlyCalls s { t with lifecycle := s.lifecycle } made) (hreleased : Released t u) :
    Released s u := by
  have hscheduler : t.scheduler = s.scheduler := by simpa using congrArg Sdk.scheduler h.rest
  have hcache : t.cache = s.cache := by simpa using congrArg Sdk.cache h.rest
  have hcalls : t.calls = s.calls ++ made := h.calls
  obtain ⟨more, hmore, hwaited, hdisconnected, hclosed⟩ := hreleased.calls
  rw [hscheduler] at hwaited
  refine ⟨hscheduler ▸ hreleased.scheduler, hreleased.eventsClient, hreleased.cache, made ++ more,
    ?_, ?_, ?_, ?_⟩
  · rw [hmore, hcalls, List.append_assoc]
  · exact fun hs => List.mem_append_right _ (hwaited hs)
  · exact fun hs => List.mem_append_right _ (hdisconnected (h.eventsClient hs))
  · exact fun hs => List.mem_append_right _ (hclosed (hcache.trans hs))

theorem cleanup_quiet (h : RaisesOnly caughtByClose env.waitAndClose) {s : Sdk}
    (hquiet : s.lifecycle.TasksEndQuietly) :
    ∃ t, (cleanup env).run s = .ok () t ∧ Released s t := by
  have hdrained : (drained s).lifecycle.TasksEndQuietly := hquiet
  obtain ⟨t, made, hrun, -, hcalls⟩ := aclose_quiet env hdrained
  obtain ⟨u, hdown, hreleased⟩ := release_steps_run h t
  have hfrom : Released (drained s) u := hreleased.of_aclose hcalls
  refine ⟨u, ?_, hfrom.scheduler, hfrom.eventsClient, hfrom.cache, hfrom.calls⟩
  rw [cleanup_run]
  exact (bind_of_ok hrun _).trans hdown

/-- A task that ends with an exception of its own ends `cleanup` with it: the
registration stays published and nothing else is released. -/
theorem cleanup_error {s : Sdk} {e : Exc} (h : s.lifecycle.TasksEndWithError e) :
    ∃ l : Lifecycle, (s.lifecycle.lifecycleRegistered = true → l.lifecycleRegistered = true) ∧
      (cleanup env).run s = .error e { drained s with lifecycle := l } := by
  have hdrained : (drained s).lifecycle.TasksEndWithError e := h
  obtain ⟨l, hregistered, hrun⟩ := aclose_error env hdrained
  refine ⟨l, hregistered, ?_⟩
  rw [cleanup_run]
  exact bind_of_error hrun _

theorem stateAfter_leaveWait (exit : ServeExit) (s : Sdk) :
    stateAfter (leaveWait exit) s = s := by
  cases exit with
  | stopped | raised _ => rfl
  | heartbeatEnded =>
      rw [stateAfter, leaveWait, get_bind]
      cases s.lifecycle.heartbeatTask with
      | none => rfl
      | some task =>
          cases task with
          | running _ => rfl
          | finished result => cases result <;> rfl

theorem stateAfter_serve (exit : ServeExit) (s : Sdk) :
    stateAfter (serve env exit) s = stateAfter (cleanup env) s := by
  rw [serve, stateAfter_finally, stateAfter_leaveWait]

/-- `aclose` and `cleanup` do their work exactly when neither background task
ends with an exception other than its cancellation and no open scheduler is idle. -/
theorem shutsDown_iff (env : Environment) (h : RaisesOnly caughtByClose env.waitAndClose)
    (s : Sdk) : ShutsDown env s ↔ s.lifecycle.TasksEndQuietly ∧ ¬ HoldsIdle s := by
  constructor
  · intro hdown
    cases s.lifecycle.tasksEndQuietly_or_error with
    | inl hquiet =>
        refine ⟨hquiet, fun hidle => ?_⟩
        obtain ⟨t, hreturns, htorn⟩ := hdown.cleanup
        obtain ⟨u, hcleanup, hreleased⟩ := cleanup_quiet h hquiet
        rw [hcleanup] at hreturns
        cases hreturns
        exact htorn.scheduler (hreleased.idle hidle)
    | inr h =>
        obtain ⟨e, herror⟩ := h
        obtain ⟨t, hreturns, -⟩ := hdown.aclose
        obtain ⟨l, -, hraises⟩ := aclose_error env herror
        rw [hraises] at hreturns
        cases hreturns
  · rintro ⟨hquiet, hidle⟩
    obtain ⟨t, made, hrun, hclosed, -⟩ := aclose_quiet env hquiet
    obtain ⟨u, hcleanup, hreleased⟩ := cleanup_quiet h hquiet
    have htorn := hreleased.tornDown hidle
    refine ⟨⟨t, hrun, hclosed⟩, ⟨u, hcleanup, htorn⟩, fun exit => ?_⟩
    rw [stateAfter_serve, stateAfter, hcleanup]
    exact htorn

end Shutdown

def responsive : Environment :=
  let returns : Uninterrupted := ⟨.ok (), fun _ h => nomatch h⟩
  ⟨returns, returns, .ok (), false, returns, returns, returns⟩

def serving (heartbeatTask : BackgroundTask) (jobs : Nat) : Sdk where
  lifecycle := ⟨some "agent".toList, none, some heartbeatTask, true, true, fun _ => rfl⟩
  inflightTasks := []
  toolResultTasks := []
  scheduledToolUses := []
  syncToolExecutor := true
  scheduler := some ⟨false, jobs⟩
  eventsClient := some true
  cache := true
  calls := []

theorem serving_tasksEndQuietly (jobs : Nat) :
    (serving (.running ⟨false, .error .cancelled⟩) jobs).lifecycle.TasksEndQuietly := by
  constructor
  · intro t ht
    cases ht
  · intro t ht
    cases ht
    exact .inr rfl

theorem shutsDown_serving :
    RaisesOnly caughtByClose responsive.waitAndClose ∧
      ShutsDown responsive (serving (.running ⟨false, .error .cancelled⟩) 1) := by
  have hclose : RaisesOnly caughtByClose responsive.waitAndClose := fun _ h => nomatch h
  refine ⟨hclose, (shutsDown_iff responsive hclose _).mpr ⟨serving_tasksEndQuietly 1, ?_⟩⟩
  rintro ⟨scheduler, hmem, -, hjobs⟩
  cases hmem
  cases hjobs

def heartbeatFailure : Exc := .sdk ⟨.connectionError, .connectFailed, none⟩

/-- A heartbeat loop that gave up leaves the agent registered and everything open; where
the loop is cancelled instead, a scheduler without jobs stays open. -/
theorem serving_heartbeatFailure_abandoned :
    (¬ ShutsDown responsive (serving (.finished (.error heartbeatFailure)) 1) ∧
      (cleanup responsive).run (serving (.finished (.error heartbeatFailure)) 1) =
        .error heartbeatFailure
          { serving (.finished (.error heartbeatFailure)) 1 with syncToolExecutor := false }) ∧
    ¬ ShutsDown responsive (serving (.running ⟨false, .error .cancelled⟩) 0) := by
  refine ⟨⟨fun h => ?_, rfl⟩, fun h => ?_⟩
  · obtain ⟨t, hreturns, -⟩ := h.aclose
    cases hreturns
  · obtain ⟨t, hreturns, htorn⟩ := h.cleanup
    cases hreturns
    exact htorn.scheduler ⟨⟨false, 0⟩, rfl, rfl⟩

end DualeAI.Shutdown
