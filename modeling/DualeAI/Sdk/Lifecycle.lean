import DualeAI.Events.Bridge
import DualeAI.Foundation.Procedure

/-!
`LifecycleManager.aclose` on the SDK's state.

The start-up task and the heartbeat task are what their awaiter sees of them. A
running one comes with what it still does once it is cancelled; it may end in
any way, since a handler of its own can run before the cancellation leaves it.
Calls out of the SDK are logged as they are made and end as the environment says.
-/
namespace DualeAI.Shutdown
open Foundation Procedure

/-- What a running task still does once it is cancelled. -/
structure Remainder where
  publishes : Bool
  result : Except Exc Unit

inductive BackgroundTask where
  | running (rest : Remainder)
  | finished (result : Except Exc Unit)

/-- How the awaiter of a cancelled task finds it. -/
def BackgroundTask.result : BackgroundTask → Except Exc Unit
  | .running rest => rest.result
  | .finished result => result

/-- The fields of `LifecycleManager` that starting and stopping change. Only an
agent registers. -/
structure Lifecycle where
  agentId : Option Text
  startupTask : Option BackgroundTask
  heartbeatTask : Option BackgroundTask
  lifecycleRegistered : Bool
  startupDone : Bool
  registered_agent : lifecycleRegistered = true → agentId.isSome = true

inductive Call where
  | connect
  | deregisterAgentProcess (agentId : Text) (reason : String)
  | waitAndClose
  | closeScheduler
  | disconnect
  | closeCache
deriving DecidableEq, Repr

/-- `jobs` counts those it still holds when `cleanup` comes to it. -/
structure Scheduler where
  closed : Bool
  jobs : Nat
deriving DecidableEq

/-- `if scheduler and not scheduler.closed`: a scheduler is the collection of its jobs,
so one that holds none is falsy. -/
def Scheduler.closable (scheduler : Scheduler) : Bool := scheduler.jobs != 0 && !scheduler.closed

structure Sdk where
  lifecycle : Lifecycle
  inflightTasks : List Text
  toolResultTasks : List (Text × Text)
  scheduledToolUses : List (Text × Text)
  syncToolExecutor : Bool
  scheduler : Option Scheduler
  /-- Whether it is connected. -/
  eventsClient : Option Bool
  cache : Bool
  calls : List Call

/-- The end of a call that nobody interrupts. -/
def Uninterrupted := { result : Except Exc Unit // RaisesOnly Exc.isException result }

/-- How the calls out of the SDK end. -/
structure Environment where
  connect : Uninterrupted
  deregister : Uninterrupted
  waitAndClose : Except Exc Unit
  /-- Whether a graceful close that failed leaves the scheduler open, with jobs in it. -/
  leftOpen : Bool
  closeScheduler : Uninterrupted
  disconnect : Uninterrupted
  closeCache : Uninterrupted

abbrev Coroutine := EStateM Exc Sdk Unit

def modifyLifecycle (f : Lifecycle → Lifecycle) : Coroutine :=
  modify fun s => { s with lifecycle := f s.lifecycle }

def call (c : Call) (result : Except Exc Unit) : Coroutine := do
  modify fun s => { s with calls := s.calls ++ [c] }
  await result

namespace Lifecycle

/-- A registration sent by a task that was already cancelled. -/
def settle (rest : Remainder) (l : Lifecycle) : Lifecycle where
  agentId := l.agentId
  startupTask := l.startupTask
  heartbeatTask := l.heartbeatTask
  lifecycleRegistered := l.lifecycleRegistered || (rest.publishes && l.agentId.isSome)
  startupDone := l.startupDone
  registered_agent := by
    have := l.registered_agent
    cases hregistered : l.lifecycleRegistered <;> simp_all

/-- The last statements of `start`. A heartbeat task cancelled this early ends in
its first sleep. -/
def finishStart (l : Lifecycle) : Lifecycle :=
  if l.startupDone then l
  else
    { l with
      startupDone := true
      heartbeatTask :=
        match l.agentId, l.heartbeatTask with
        | some _, none | some _, some (.finished _) => some (.running ⟨false, .error .cancelled⟩)
        | _, task => task }

def settleStartup (rest : Remainder) (l : Lifecycle) : Lifecycle :=
  match rest.result with
  | .ok _ => (l.settle rest).finishStart
  | .error _ => l.settle rest

def unregister (l : Lifecycle) : Lifecycle :=
  { l with lifecycleRegistered := false, registered_agent := fun h => nomatch h }

def clearStartupTask (l : Lifecycle) : Lifecycle := { l with startupTask := none }

def clearHeartbeatTask (l : Lifecycle) : Lifecycle := { l with heartbeatTask := none }

def clearStartupDone (l : Lifecycle) : Lifecycle := { l with startupDone := false }

end Lifecycle

/-- `await task`, where `settle` is what a running task does before it ends. -/
def awaitTask (task : BackgroundTask) (settle : Remainder → Lifecycle → Lifecycle) : Coroutine := do
  match task with
  | .running rest => modifyLifecycle (settle rest)
  | .finished _ => pure ()
  await task.result

def cancelTask (task : Option BackgroundTask) (settle : Remainder → Lifecycle → Lifecycle) :
    Coroutine :=
  match task with
  | none => pure ()
  | some task => suppress (fun e => e == .cancelled) (awaitTask task settle)

section Aclose
variable (env : Environment)

def ensureEventsClient : Coroutine := do
  if (← get).eventsClient = some true then pure ()
  else
    modify fun s => { s with eventsClient := some false }
    call .connect env.connect.val
    modify fun s => { s with eventsClient := some true }

def deregisterLifecycle (reason : String) : Coroutine := do
  let l := (← get).lifecycle
  match l.lifecycleRegistered, l.agentId with
  | true, some agentId =>
      suppress Exc.isException do
        ensureEventsClient env
        call (.deregisterAgentProcess agentId reason) env.deregister.val
      modifyLifecycle Lifecycle.unregister
  | _, _ => pure ()

def aclose : Coroutine := do
  cancelTask (← get).lifecycle.startupTask Lifecycle.settleStartup
  modifyLifecycle Lifecycle.clearStartupTask
  cancelTask (← get).lifecycle.heartbeatTask Lifecycle.settle
  modifyLifecycle Lifecycle.clearHeartbeatTask
  deregisterLifecycle env "shutdown"
  modifyLifecycle Lifecycle.clearStartupDone

end Aclose

/-! ## The two tasks -/

def EndsQuietly (task : Option BackgroundTask) : Prop :=
  ∀ t ∈ task, t.result = .ok () ∨ t.result = .error .cancelled

def EndsWithError (task : Option BackgroundTask) (e : Exc) : Prop :=
  ∃ t ∈ task, t.result = .error e ∧ e ≠ .cancelled

def Lifecycle.settled (settle : Remainder → Lifecycle → Lifecycle) (l : Lifecycle) :
    Option BackgroundTask → Lifecycle
  | some (.running rest) => settle rest l
  | some (.finished _) | none => l

theorem endsQuietly_or_error (task : Option BackgroundTask) :
    EndsQuietly task ∨ ∃ e, EndsWithError task e := by
  cases task with
  | none => exact .inl fun t h => nomatch h
  | some task =>
      by_cases hquiet : task.result = .ok () ∨ task.result = .error .cancelled
      · exact .inl fun t h => by cases h; exact hquiet
      · cases hresult : task.result with
        | ok u => exact absurd (.inl hresult) hquiet
        | error e =>
            refine .inr ⟨e, task, rfl, hresult, fun he => hquiet (.inr ?_)⟩
            rw [hresult, he]

theorem awaitTask_run (task : BackgroundTask) (settle : Remainder → Lifecycle → Lifecycle)
    (s : Sdk) :
    (awaitTask task settle).run s =
      (await task.result).run { s with lifecycle := s.lifecycle.settled settle (some task) } := by
  cases task <;> rfl

theorem cancelTask_quiet {task : Option BackgroundTask}
    (settle : Remainder → Lifecycle → Lifecycle) (h : EndsQuietly task) (s : Sdk) :
    (cancelTask task settle).run s =
      .ok () { s with lifecycle := s.lifecycle.settled settle task } := by
  cases task with
  | none => rfl
  | some task =>
      have hrun := awaitTask_run task settle s
      cases h task rfl with
      | inl hok =>
          rw [hok, await_ok] at hrun
          exact excepting_of_ok hrun
      | inr hcancelled =>
          rw [hcancelled, await_error] at hrun
          exact excepting_of_caught hrun rfl

theorem cancelTask_error {task : Option BackgroundTask} {e : Exc}
    (settle : Remainder → Lifecycle → Lifecycle) (h : EndsWithError task e) (s : Sdk) :
    (cancelTask task settle).run s =
      .error e { s with lifecycle := s.lifecycle.settled settle task } := by
  obtain ⟨t, hmem, hresult, hne⟩ := h
  cases hmem
  have hrun := awaitTask_run t settle s
  rw [hresult, await_error] at hrun
  exact excepting_of_uncaught hrun (beq_eq_false_iff_ne.mpr hne)

/-! ## Deregistration -/

section Deregistration
variable (env : Environment)

/-- The best effort at a deregistration was made among these calls: it was sent,
unless there was no connection to send it on. -/
def Attempted (env : Environment) (agentId : Text) (reason : String) (made : List Call) : Prop :=
  .deregisterAgentProcess agentId reason ∈ made ∨
    .connect ∈ made ∧ ∃ e, env.connect.val = .error e

structure OnlyCalls (s t : Sdk) (made : List Call) : Prop where
  calls : t.calls = s.calls ++ made
  eventsClient : s.eventsClient.isSome = true → t.eventsClient.isSome = true
  rest : t = { s with calls := t.calls, eventsClient := t.eventsClient }

theorem OnlyCalls.refl (s : Sdk) : OnlyCalls s s [] :=
  ⟨(List.append_nil _).symm, id, rfl⟩

theorem OnlyCalls.trans {s t u : Sdk} {made more : List Call} (h : OnlyCalls s t made)
    (h' : OnlyCalls t u more) : OnlyCalls s u (made ++ more) := by
  refine ⟨?_, fun hs => h'.eventsClient (h.eventsClient hs), ?_⟩
  · rw [h'.calls, h.calls, List.append_assoc]
  · rw [h'.rest, h.rest]

theorem call_run (c : Call) (result : Except Exc Unit) (s : Sdk) :
    (call c result).run s = (await result).run { s with calls := s.calls ++ [c] } := rfl

theorem ensureEventsClient_run (s : Sdk) :
    ∃ t made, OnlyCalls s t made ∧
      ((ensureEventsClient env).run s = .ok () t ∨
        ∃ e, env.connect.val = .error e ∧ .connect ∈ made ∧
          (ensureEventsClient env).run s = .error e t) := by
  by_cases hclient : s.eventsClient = some true
  · refine ⟨s, [], .refl s, .inl ?_⟩
    rw [ensureEventsClient, get_bind, if_pos hclient]
    rfl
  · cases hconnect : env.connect.val with
    | ok u =>
        refine ⟨{ s with eventsClient := some true, calls := s.calls ++ [.connect] }, [.connect],
          ⟨rfl, fun _ => rfl, rfl⟩, .inl ?_⟩
        rw [ensureEventsClient, get_bind, if_neg hclient, hconnect]
        rfl
    | error e =>
        refine ⟨{ s with eventsClient := some false, calls := s.calls ++ [.connect] }, [.connect],
          ⟨rfl, fun _ => rfl, rfl⟩, .inr ⟨e, rfl, List.mem_singleton_self _, ?_⟩⟩
        rw [ensureEventsClient, get_bind, if_neg hclient, hconnect]
        rfl

theorem sendDeregistration_run (agentId : Text) (reason : String) (s : Sdk) :
    let body : Coroutine := do
      ensureEventsClient env
      call (.deregisterAgentProcess agentId reason) env.deregister.val
    ∃ t made, OnlyCalls s t made ∧ Attempted env agentId reason made ∧
      (suppress Exc.isException body).run s = .ok () t := by
  intro body
  obtain ⟨t, made, hcalls, hrun | ⟨e, he, hconnect, hrun⟩⟩ := ensureEventsClient_run env s
  · let c := Call.deregisterAgentProcess agentId reason
    have hbody : body.run s = (call c env.deregister.val).run t := bind_of_ok hrun _
    have hsent : OnlyCalls t { t with calls := t.calls ++ [c] } [c] := ⟨rfl, id, rfl⟩
    refine ⟨_, _, hcalls.trans hsent, .inl (by simp [c]), ?_⟩
    rw [call_run] at hbody
    cases hresult : env.deregister.val with
    | ok u => rw [hresult, await_ok] at hbody; exact excepting_of_ok hbody
    | error e =>
        rw [hresult, await_error] at hbody
        exact excepting_of_caught hbody (env.deregister.property e hresult)
  · have hbody : body.run s = .error e t := bind_of_error hrun _
    exact ⟨t, made, hcalls, .inr ⟨hconnect, e, he⟩,
      excepting_of_caught hbody (env.connect.property e he)⟩

theorem unregister_of_not_registered {l : Lifecycle} (h : l.lifecycleRegistered = false) :
    l.unregister = l := by
  cases l
  cases h
  rfl

theorem deregisterLifecycle_run (reason : String) (s : Sdk) :
    ∃ t made, OnlyCalls s t made ∧
      (∀ agentId, s.lifecycle.agentId = some agentId → s.lifecycle.lifecycleRegistered = true →
        Attempted env agentId reason made) ∧
      (deregisterLifecycle env reason).run s =
        .ok () { t with lifecycle := t.lifecycle.unregister } := by
  cases hregistered : s.lifecycle.lifecycleRegistered with
  | false =>
      refine ⟨s, [], .refl s, fun _ _ h => absurd h Bool.false_ne_true, ?_⟩
      rw [unregister_of_not_registered hregistered, deregisterLifecycle, get_bind]
      simp only [hregistered]
      rfl
  | true =>
      obtain ⟨agentId, hagent⟩ := Option.isSome_iff_exists.mp
        (s.lifecycle.registered_agent hregistered)
      obtain ⟨t, made, hcalls, hattempted, hrun⟩ :=
        sendDeregistration_run env agentId reason s
      refine ⟨t, made, hcalls, ?_, ?_⟩
      · intro other hother _
        rw [hagent] at hother
        cases hother
        exact hattempted
      · rw [deregisterLifecycle, get_bind]
        simp only [hregistered, hagent]
        exact bind_of_ok hrun _

end Deregistration

/-! ## `aclose` -/

namespace Lifecycle

def afterStartup (l : Lifecycle) : Lifecycle := l.settled settleStartup l.startupTask

/-- The lifecycle once the heartbeat task found then has ended as well. -/
def afterTasks (l : Lifecycle) : Lifecycle :=
  l.afterStartup.settled settle l.afterStartup.heartbeatTask

def TasksEndQuietly (l : Lifecycle) : Prop :=
  EndsQuietly l.startupTask ∧ EndsQuietly l.afterStartup.heartbeatTask

/-- The start-up task, or the heartbeat task found once it ended, ends with `e`. -/
def TasksEndWithError (l : Lifecycle) (e : Exc) : Prop :=
  EndsWithError l.startupTask e ∨
    EndsQuietly l.startupTask ∧ EndsWithError l.afterStartup.heartbeatTask e

theorem tasksEndQuietly_or_error (l : Lifecycle) :
    l.TasksEndQuietly ∨ ∃ e, l.TasksEndWithError e := by
  cases endsQuietly_or_error l.startupTask with
  | inl hstartup =>
      cases endsQuietly_or_error l.afterStartup.heartbeatTask with
      | inl hheartbeat => exact .inl ⟨hstartup, hheartbeat⟩
      | inr h =>
          obtain ⟨e, he⟩ := h
          exact .inr ⟨e, .inr ⟨hstartup, he⟩⟩
  | inr h =>
      obtain ⟨e, he⟩ := h
      exact .inr ⟨e, .inl he⟩

theorem settled_keeps {settle : Remainder → Lifecycle → Lifecycle}
    (hsettle : ∀ rest l, (settle rest l).agentId = l.agentId ∧
      (l.lifecycleRegistered = true → (settle rest l).lifecycleRegistered = true))
    (l : Lifecycle) (task : Option BackgroundTask) :
    (l.settled settle task).agentId = l.agentId ∧
      (l.lifecycleRegistered = true → (l.settled settle task).lifecycleRegistered = true) := by
  cases task with
  | none => exact ⟨rfl, id⟩
  | some task =>
      cases task with
      | running rest => exact hsettle rest l
      | finished result => exact ⟨rfl, id⟩

theorem settle_keeps (rest : Remainder) (l : Lifecycle) :
    (l.settle rest).agentId = l.agentId ∧
      (l.lifecycleRegistered = true → (l.settle rest).lifecycleRegistered = true) :=
  ⟨rfl, fun h => by simp [settle, h]⟩

theorem settleStartup_keeps (rest : Remainder) (l : Lifecycle) :
    (l.settleStartup rest).agentId = l.agentId ∧
      (l.lifecycleRegistered = true → (l.settleStartup rest).lifecycleRegistered = true) := by
  unfold settleStartup finishStart
  split
  · split <;> exact settle_keeps rest l
  · exact settle_keeps rest l

theorem afterTasks_keeps (l : Lifecycle) :
    l.afterTasks.agentId = l.agentId ∧
      (l.lifecycleRegistered = true → l.afterTasks.lifecycleRegistered = true) := by
  have hstartup := settled_keeps settleStartup_keeps l l.startupTask
  have hheartbeat := settled_keeps settle_keeps l.afterStartup l.afterStartup.heartbeatTask
  exact ⟨hheartbeat.1.trans hstartup.1, fun h => hheartbeat.2 (hstartup.2 h)⟩

end Lifecycle

structure Closed (env : Environment) (s t : Sdk) : Prop where
  startupTask : t.lifecycle.startupTask = none
  heartbeatTask : t.lifecycle.heartbeatTask = none
  notRegistered : t.lifecycle.lifecycleRegistered = false
  notStarted : t.lifecycle.startupDone = false
  deregistered : ∃ made, t.calls = s.calls ++ made ∧
    ∀ agentId, s.lifecycle.agentId = some agentId →
      s.lifecycle.lifecycleRegistered = true ∨ s.lifecycle.afterTasks.lifecycleRegistered = true →
      Attempted env agentId "shutdown" made

theorem aclose_quiet (env : Environment) {s : Sdk} (h : s.lifecycle.TasksEndQuietly) :
    ∃ t made, (aclose env).run s = .ok () t ∧ Closed env s t ∧
      OnlyCalls s { t with lifecycle := s.lifecycle } made := by
  obtain ⟨hstartup, hheartbeat⟩ := h
  let ended : Sdk := { s with
    lifecycle := (s.lifecycle.afterStartup.clearStartupTask.settled Lifecycle.settle
      s.lifecycle.afterStartup.heartbeatTask).clearHeartbeatTask }
  obtain ⟨t, made, hcalls, hattempted, hrun⟩ := deregisterLifecycle_run env "shutdown" ended
  have hended : ended.lifecycle.agentId = s.lifecycle.afterTasks.agentId ∧
      ended.lifecycle.lifecycleRegistered = s.lifecycle.afterTasks.lifecycleRegistered := by
    simp only [ended, Lifecycle.afterTasks]
    cases s.lifecycle.afterStartup.heartbeatTask with
    | none => exact ⟨rfl, rfl⟩
    | some task => cases task <;> exact ⟨rfl, rfl⟩
  have hcleared : t.lifecycle = ended.lifecycle := by rw [hcalls.rest]
  refine ⟨{ t with lifecycle := t.lifecycle.unregister.clearStartupDone }, made, ?_, ?_, ?_⟩
  · rw [aclose, get_bind, bind_of_ok (cancelTask_quiet _ hstartup s)]
    refine (bind_of_ok (cancelTask_quiet Lifecycle.settle hheartbeat _) _).trans ?_
    exact bind_of_ok hrun _
  · refine ⟨?_, ?_, rfl, rfl, made, hcalls.calls, ?_⟩
    · show t.lifecycle.startupTask = none
      rw [hcleared]
      simp only [ended]
      cases s.lifecycle.afterStartup.heartbeatTask with
      | none => rfl
      | some task => cases task <;> rfl
    · show t.lifecycle.heartbeatTask = none
      rw [hcleared]
      rfl
    · intro agentId hagent hpublished
      have hkeeps := s.lifecycle.afterTasks_keeps
      refine hattempted agentId ?_ ?_
      · rw [hended.1, hkeeps.1, hagent]
      · rw [hended.2]
        exact hpublished.elim hkeeps.2 id
  · refine ⟨hcalls.calls, hcalls.eventsClient, ?_⟩
    show ({ t with lifecycle := s.lifecycle } : Sdk) = _
    rw [hcalls.rest]

/-- A task that ends with an exception of its own aborts `aclose` before it
deregisters or makes any call. -/
theorem aclose_error (env : Environment) {s : Sdk} {e : Exc}
    (h : s.lifecycle.TasksEndWithError e) :
    ∃ l : Lifecycle, (s.lifecycle.lifecycleRegistered = true → l.lifecycleRegistered = true) ∧
      (aclose env).run s = .error e { s with lifecycle := l } := by
  cases h with
  | inl hstartup =>
      refine ⟨s.lifecycle.afterStartup,
        (Lifecycle.settled_keeps Lifecycle.settleStartup_keeps _ _).2, ?_⟩
      rw [aclose, get_bind]
      exact bind_of_error (cancelTask_error _ hstartup s) _
  | inr hright =>
      obtain ⟨hstartup, hheartbeat⟩ := hright
      refine ⟨s.lifecycle.afterStartup.clearStartupTask.settled Lifecycle.settle
        s.lifecycle.afterStartup.heartbeatTask, ?_, ?_⟩
      · intro hregistered
        exact (Lifecycle.settled_keeps Lifecycle.settle_keeps _ _).2
          ((Lifecycle.settled_keeps Lifecycle.settleStartup_keeps _ _).2 hregistered)
      · rw [aclose, get_bind, bind_of_ok (cancelTask_quiet _ hstartup s)]
        exact bind_of_error (cancelTask_error Lifecycle.settle hheartbeat _) _

end DualeAI.Shutdown
