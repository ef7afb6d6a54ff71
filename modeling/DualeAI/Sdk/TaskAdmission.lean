import DualeAI.Foundation.Dict
import DualeAI.Sdk.BreakerRuns
import DualeAI.Sdk.TaskBreaker

/-!
A submission and its runner, from `_execute_task_operation` to `_spawn_run_task` and
`_run_task_with_circuit_breaker`.

The submitter waits on a future, its admission, that the runner sets in its first step,
and any number of submissions share the breaker, the metrics and the timing cache of the
flow logger. An action is what the event loop runs between two suspensions. What was
counted is recorded in order.
-/
namespace DualeAI.TaskAdmission
open Foundation
open Breaker (CircuitBreaker admitAttempt classify)

/-- The future that the submitter waits on. -/
inductive Admission where
  | pending
  | granted
  | rejected (retryAfter : Rat)
  | cancelled
deriving DecidableEq

/-- How a runner ended: cancelled before its first step, turned away by the breaker, given
up by its submitter before its admission, or with the result of its task. -/
inductive RunnerEnd where
  | unstarted
  | rejected (retryAfter : Rat)
  | abandoned
  | finished (result : Except Exc BridgeEventData)

/-- A `_run_task_with_circuit_breaker` task; a running one has a body of the breaker. -/
inductive Runner where
  | created (cancelRequested : Bool)
  | running (body : Nat)
  | ended (how : RunnerEnd)

def Runner.isCreated : Runner → Bool
  | .created _ => true
  | .running _ | .ended _ => false

inductive Outcome where
  | returned
  /-- The `RuntimeError` that tells to retry later. -/
  | rejected (retryAfter : Rat)
  | cancelled
  | raised (error : Exc)

/-- Where the submitter stands: at `await admission`, at `await task` of its `except`
clause, or at `asyncio.sleep(0)`; each of them may have been cancelled since. -/
inductive Submitter where
  | waiting (cancelled : Bool)
  | joining (cancelled : Bool)
  | settling (cancelled : Bool)
  | ended (outcome : Outcome)

structure Submission where
  taskId : Text
  operationName : Text
  admission : Admission := .pending
  runner : Runner := .created false
  submitter : Submitter := .waiting false

def Submission.cacheKey (sub : Submission) : Text :=
  sub.taskId ++ ":".toList ++ sub.operationName

structure BackpressureMetrics where
  tasksSubmitted : Nat := 0
  tasksRejected : Nat := 0
  tasksCompleted : Nat := 0
  tasksFailed : Nat := 0
  lastRejectionTime : Option Rat := none
  consecutiveRejections : Nat := 0
deriving DecidableEq

namespace BackpressureMetrics

def recordRejection (now : Rat) (m : BackpressureMetrics) : BackpressureMetrics :=
  { m with
    tasksRejected := m.tasksRejected + 1
    consecutiveRejections := m.consecutiveRejections + 1
    lastRejectionTime := some now }

def recordSubmission (m : BackpressureMetrics) : BackpressureMetrics :=
  { m with tasksSubmitted := m.tasksSubmitted + 1, consecutiveRejections := 0 }

/-- `record_failure` or `record_success` in the `finally` clause of an admitted runner. -/
def recordResult (result : Except Exc BridgeEventData) (m : BackpressureMetrics) :
    BackpressureMetrics :=
  match result with
  | .error _ | .ok (.taskError _) => { m with tasksFailed := m.tasksFailed + 1 }
  | .ok (.taskStopped _) => m
  | .ok _ => { m with tasksCompleted := m.tasksCompleted + 1 }

end BackpressureMetrics

structure State where
  breaker : Breaker.System := {}
  submissions : List Submission := []
  metrics : BackpressureMetrics := {}
  /-- When the flow under each key started. -/
  timingCache : Dict Text Rat := []
  /-- The rejections, and the submissions that were none. -/
  counted : List Bool := []

inductive Action where
  /-- `submit_task` or a continuation up to `await admission`. -/
  | submit (taskId operationName : Text) (now : Rat)
  /-- The runner's first step, and what it reads where it leaves the breaker at once. -/
  | start (i : Nat) (now later : Rat)
  /-- The runner ends with what `run_task` gave. -/
  | finish (i : Nat) (now : Rat) (result : Except Exc BridgeEventData)
  /-- The submitter goes on behind `await admission`. -/
  | wake (i : Nat) (now : Rat)
  /-- The submitter goes on behind `await task`. -/
  | join (i : Nat) (now : Rat)
  /-- The submitter goes on behind `asyncio.sleep(0)`. -/
  | settle (i : Nat) (now : Rat)
  | cancelRunner (i : Nat)
  | cancelSubmitter (i : Nat)

namespace State

def put (i : Nat) (sub : Submission) (s : State) : State :=
  { s with submissions := s.submissions.set i sub }

/-- `FlowLogger.end`. -/
def endFlow (sub : Submission) (s : State) : State :=
  { s with timingCache := Dict.pop sub.cacheKey s.timingCache }

/-- The end of `_execute_task_operation`. -/
def conclude (i : Nat) (sub : Submission) (outcome : Outcome) (now : Rat) (s : State) : State :=
  let s := s.put i { sub with submitter := .ended outcome }
  match outcome with
  | .returned =>
      { s with metrics := s.metrics.recordSubmission, counted := s.counted ++ [false] }
  | .rejected _ =>
      { s with metrics := s.metrics.recordRejection now, counted := s.counted ++ [true] }
  | .cancelled | .raised _ => s

end State

/-- How the submitter ends after `await task` in the clause for its own cancellation: an
exception of the runner that is no cancellation takes its place. -/
def joined : RunnerEnd → Outcome
  | .rejected retryAfter => .rejected retryAfter
  | .finished (.error .cancelled) => .cancelled
  | .finished (.error error) => .raised error
  | .unstarted | .abandoned | .finished (.ok _) => .cancelled

/-- What an action reads off the clock of the breaker. -/
def Action.readings : Action → List Rat
  | .start _ now later => [now, later]
  | .finish _ now _ => [now]
  | .submit _ _ _ | .wake _ _ | .join _ _ | .settle _ _ | .cancelRunner _
  | .cancelSubmitter _ => []

section Steps
variable (b : CircuitBreaker)

def start (i : Nat) (sub : Submission) (now later : Rat) (s : State) : Option State :=
  match sub.runner with
  | .created true => some (s.put i { sub with runner := .ended .unstarted })
  | .created false =>
      match admitAttempt b now s.breaker.breaker with
      | .error retryAfter =>
          some (s.put i { sub with
            runner := .ended (.rejected retryAfter)
            admission := if sub.admission = .pending then .rejected retryAfter
              else sub.admission })
      | .ok _ =>
          let n := s.breaker.bodies.length
          let entered := Breaker.enter b now s.breaker
          if sub.admission = .cancelled then do
            let breaker ← Breaker.step b entered (.leave n later (.error .cancelled))
            some { s.put i { sub with runner := .ended .abandoned } with breaker }
          else
            some { s.put i { sub with runner := .running n, admission := .granted } with
              breaker := entered }
  | .running _ | .ended _ => none

def finish (i : Nat) (sub : Submission) (now : Rat) (result : Except Exc BridgeEventData)
    (s : State) : Option State :=
  match sub.runner with
  | .running n => do
      let marked := Breaker.mark (fun attempt => classify attempt result) n s.breaker
      let breaker ← Breaker.step b marked (.leave n now (result.map fun _ => ()))
      some { s.put i { sub with runner := .ended (.finished result) } with
        breaker
        metrics := s.metrics.recordResult result }
  | .created _ | .ended _ => none

def wake (i : Nat) (sub : Submission) (now : Rat) (s : State) : Option State :=
  match sub.submitter, sub.admission, sub.runner with
  | .waiting true, _, .created _ =>
      some (s.put i { sub with runner := .created true, submitter := .joining false })
  | .waiting true, _, .running _ => some (s.put i { sub with submitter := .joining false })
  | .waiting true, _, .ended how => some ((s.endFlow sub).conclude i sub (joined how) now)
  | .waiting false, .granted, _ =>
      some ((s.endFlow sub).put i { sub with submitter := .settling false })
  | .waiting false, .rejected retryAfter, _ =>
      some ((s.endFlow sub).conclude i sub (.rejected retryAfter) now)
  | _, _, _ => none

def join (i : Nat) (sub : Submission) (now : Rat) (s : State) : Option State :=
  match sub.submitter, sub.runner with
  | .joining cancelled, .ended how =>
      some ((s.endFlow sub).conclude i sub (if cancelled then .cancelled else joined how) now)
  | _, _ => none

def settle (i : Nat) (sub : Submission) (now : Rat) (s : State) : Option State :=
  match sub.submitter with
  | .settling cancelled =>
      some (s.conclude i sub (if cancelled then .cancelled else .returned) now)
  | _ => none

def cancelRunner (i : Nat) (sub : Submission) (s : State) : Option State :=
  match sub.runner with
  | .created _ => some (s.put i { sub with runner := .created true })
  | .running _ => some s
  | .ended _ => none

/-- `cancel()` reaches what the submitter waits for, unless that is done. -/
def cancelSubmitter (i : Nat) (sub : Submission) (s : State) : Option State :=
  match sub.submitter, sub.runner with
  | .waiting _, _ =>
      some (s.put i { sub with
        submitter := .waiting true
        admission := if sub.admission = .pending then .cancelled else sub.admission })
  | .joining _, .ended _ => some (s.put i { sub with submitter := .joining true })
  | .joining _, _ => cancelRunner i sub s
  | .settling _, _ => some (s.put i { sub with submitter := .settling true })
  | .ended _, _ => none

def step (s : State) : Action → Option State
  | .submit taskId operationName now =>
      let sub : Submission := { taskId, operationName }
      some { s with
        submissions := s.submissions ++ [sub]
        timingCache := Dict.put sub.cacheKey now s.timingCache }
  | .start i now later => (s.submissions[i]?).bind fun sub => start b i sub now later s
  | .finish i now result => (s.submissions[i]?).bind fun sub => finish b i sub now result s
  | .wake i now => (s.submissions[i]?).bind fun sub => wake i sub now s
  | .join i now => (s.submissions[i]?).bind fun sub => join i sub now s
  | .settle i now => (s.submissions[i]?).bind fun sub => settle i sub now s
  | .cancelRunner i => (s.submissions[i]?).bind fun sub => cancelRunner i sub s
  | .cancelSubmitter i => (s.submissions[i]?).bind fun sub => cancelSubmitter i sub s

end Steps

/-! ## What one step does -/

/-- A submission moves on, and nothing is counted; `endsFlow` where its flow ends. -/
inductive Moves (sub : Submission) : Submission → (endsFlow : Bool) → Prop where
  | unstarted (h : sub.runner = .created true) :
      Moves sub { sub with runner := .ended .unstarted } false
  | turnedAway (retryAfter : Rat) (h : sub.runner = .created false)
      (hadmission : sub.admission = .pending) :
      Moves sub { sub with
        runner := .ended (.rejected retryAfter)
        admission := .rejected retryAfter } false
  | turnedAwayLate (retryAfter : Rat) (h : sub.runner = .created false)
      (hadmission : sub.admission ≠ .pending) :
      Moves sub { sub with runner := .ended (.rejected retryAfter) } false
  | abandoned (h : sub.runner = .created false) (hadmission : sub.admission = .cancelled) :
      Moves sub { sub with runner := .ended .abandoned } false
  | admitted (n : Nat) (h : sub.runner = .created false) (hadmission : sub.admission ≠ .cancelled) :
      Moves sub { sub with runner := .running n, admission := .granted } false
  | gaveUpEarly (cancelRequested : Bool) (h : sub.submitter = .waiting true)
      (hrunner : sub.runner = .created cancelRequested) :
      Moves sub { sub with runner := .created true, submitter := .joining false } false
  | gaveUp (n : Nat) (h : sub.submitter = .waiting true) (hrunner : sub.runner = .running n) :
      Moves sub { sub with submitter := .joining false } false
  | granted (h : sub.submitter = .waiting false) (hadmission : sub.admission = .granted) :
      Moves sub { sub with submitter := .settling false } true
  | runnerCancelled (cancelRequested : Bool) (h : sub.runner = .created cancelRequested) :
      Moves sub { sub with runner := .created true } false
  | cancelled (before : Bool) (h : sub.submitter = .waiting before)
      (hadmission : sub.admission = .pending) :
      Moves sub { sub with submitter := .waiting true, admission := .cancelled } false
  | cancelledLate (before : Bool) (h : sub.submitter = .waiting before)
      (hadmission : sub.admission ≠ .pending) :
      Moves sub { sub with submitter := .waiting true } false
  | interrupted (before : Bool) (how : RunnerEnd) (h : sub.submitter = .joining before)
      (hrunner : sub.runner = .ended how) :
      Moves sub { sub with submitter := .joining true } false
  | unsettled (before : Bool) (h : sub.submitter = .settling before) :
      Moves sub { sub with submitter := .settling true } false

/-- How a submission ends. -/
inductive Ends (sub : Submission) : Outcome → (endsFlow : Bool) → Prop where
  | gaveUp (how : RunnerEnd) (h : sub.submitter = .waiting true)
      (hrunner : sub.runner = .ended how) : Ends sub (joined how) true
  | turnedAway (retryAfter : Rat) (h : sub.submitter = .waiting false)
      (hadmission : sub.admission = .rejected retryAfter) : Ends sub (.rejected retryAfter) true
  | joined (how : RunnerEnd) (h : sub.submitter = .joining false)
      (hrunner : sub.runner = .ended how) : Ends sub (joined how) true
  | interrupted (how : RunnerEnd) (h : sub.submitter = .joining true)
      (hrunner : sub.runner = .ended how) : Ends sub .cancelled true
  | returned (h : sub.submitter = .settling false) : Ends sub .returned false
  | unsettled (h : sub.submitter = .settling true) : Ends sub .cancelled false

section Effects
variable (b : CircuitBreaker)

/-- What a step of a runner that does not end its task does at the breaker. -/
inductive Enters (s : Breaker.System) (sub sub' : Submission) :
    List Breaker.Action → Breaker.System → Prop where
  | stays (h : ∀ n, sub'.runner = .running n → sub.runner = .running n)
      (hadmitted : sub'.runner = .ended .abandoned → sub.runner = .ended .abandoned) :
      Enters s sub sub' [] s
  | admitted (now : Rat) (hgrows : (Breaker.enter b now s).bodies.length = s.bodies.length + 1)
      (h : sub'.runner = .running s.bodies.length) (hbefore : sub.runner = .created false) :
      Enters s sub sub' [.enter now] (Breaker.enter b now s)
  | abandoned (now later : Rat) (t : Breaker.System)
      (hgrows : (Breaker.enter b now s).bodies.length = s.bodies.length + 1)
      (h : sub'.runner = .ended .abandoned) (hbefore : sub.runner = .created false)
      (hleave : Breaker.step b (Breaker.enter b now s)
        (.leave s.bodies.length later (.error .cancelled)) = some t) :
      Enters s sub sub' [.enter now, .leave s.bodies.length later (.error .cancelled)] t

def State.endFlowIf (endsFlow : Bool) (sub : Submission) (s : State) : State :=
  if endsFlow then s.endFlow sub else s

def Action.submission : Action → Option Nat
  | .submit _ _ _ => none
  | .start i _ _ | .finish i _ _ | .wake i _ | .join i _ | .settle i _ | .cancelRunner i
  | .cancelSubmitter i => some i

inductive Effect (s : State) : Action → State → Prop where
  | submitted (taskId operationName : Text) (now : Rat) :
      Effect s (.submit taskId operationName now) { s with
        submissions := s.submissions ++ [{ taskId, operationName }]
        timingCache := Dict.put (taskId ++ ":".toList ++ operationName) now s.timingCache }
  | stays (a : Action) : Effect s a s
  | moved (a : Action) (i : Nat) (sub sub' : Submission) (endsFlow : Bool)
      (calls : List Breaker.Action) (breaker : Breaker.System) (ha : a.submission = some i)
      (hget : s.submissions[i]? = some sub) (hmoves : Moves sub sub' endsFlow)
      (henters : Enters b s.breaker sub sub' calls breaker)
      (hreads : (Breaker.readings calls).Sublist (Action.readings a))
      (hcancel : sub'.runner = .created true → sub'.submitter = .waiting false →
        a = .cancelRunner i ∧ sub.runner.isCreated = true) :
      Effect s a { (s.endFlowIf endsFlow sub).put i sub' with breaker }
  | finished (i : Nat) (sub : Submission) (n : Nat) (now : Rat)
      (result : Except Exc BridgeEventData) (breaker : Breaker.System)
      (hget : s.submissions[i]? = some sub) (hrunner : sub.runner = .running n)
      (hleave : Breaker.step b
        (Breaker.mark (fun attempt => classify attempt result) n s.breaker)
        (.leave n now (result.map fun _ => ())) = some breaker) :
      Effect s (.finish i now result)
        { s.put i { sub with runner := .ended (.finished result) } with
          breaker
          metrics := s.metrics.recordResult result }
  | ended (a : Action) (i : Nat) (sub : Submission) (outcome : Outcome) (endsFlow : Bool)
      (now : Rat) (ha : a.submission = some i) (hget : s.submissions[i]? = some sub)
      (hends : Ends sub outcome endsFlow) :
      Effect s a ((s.endFlowIf endsFlow sub).conclude i sub outcome now)

variable {b} {s t : State} {i : Nat} {sub : Submission} {now : Rat}

theorem enter_of_ok {system : Breaker.System} {breaker : Breaker.State} {attempt : Breaker.Attempt}
    (h : admitAttempt b now system.breaker = .ok (breaker, attempt)) :
    (Breaker.enter b now system).bodies.length = system.bodies.length + 1 := by
  rw [Breaker.enter, h, List.length_append, List.length_singleton]

/-- The breaker stays as it is. -/
theorem Effect.quiet {a : Action} {sub' : Submission} {endsFlow : Bool}
    (ha : a.submission = some i) (hget : s.submissions[i]? = some sub)
    (hmoves : Moves sub sub' endsFlow)
    (hrunning : ∀ n, sub'.runner = .running n → sub.runner = .running n)
    (habandoned : sub'.runner = .ended .abandoned → sub.runner = .ended .abandoned)
    (hcancel : sub'.runner = .created true → sub'.submitter = .waiting false →
      a = .cancelRunner i ∧ sub.runner.isCreated = true) :
    Effect b s a ((s.endFlowIf endsFlow sub).put i sub') := by
  have hbreaker : (s.endFlowIf endsFlow sub).breaker = s.breaker := by
    rw [State.endFlowIf]
    split <;> rfl
  have heffect := Effect.moved (b := b) a i sub sub' endsFlow [] s.breaker ha hget hmoves
    (.stays hrunning habandoned) (List.nil_sublist _) hcancel
  rwa [← hbreaker] at heffect

theorem start_effect {later : Rat} (hget : s.submissions[i]? = some sub)
    (h : start b i sub now later s = some t) : Effect b s (.start i now later) t := by
  rw [start] at h
  split at h
  · next hrunner =>
      cases h
      exact .quiet rfl hget (.unstarted hrunner) nofun nofun nofun
  · next hrunner =>
      split at h
      · next retryAfter hadmit =>
          cases h
          by_cases hpending : sub.admission = .pending
          · rw [if_pos hpending]
            exact .quiet rfl hget (.turnedAway retryAfter hrunner hpending) nofun nofun nofun
          · rw [if_neg hpending]
            exact .quiet rfl hget (.turnedAwayLate retryAfter hrunner hpending) nofun nofun nofun
      · next admitted hadmit =>
          obtain ⟨breaker, attempt⟩ := admitted
          have hgrows := enter_of_ok hadmit
          split at h
          · next hcancelled =>
              obtain ⟨left, hleave, hret⟩ := Option.bind_eq_some_iff.mp h
              cases hret
              exact .moved _ i sub _ false _ left rfl hget (.abandoned hrunner hcancelled)
                (.abandoned now later left hgrows rfl hrunner hleave) (List.Sublist.refl _) nofun
          · next hopen =>
              cases h
              exact .moved _ i sub _ false _ _ rfl hget (.admitted _ hrunner hopen)
                (.admitted now hgrows rfl hrunner)
                (List.singleton_sublist.mpr List.mem_cons_self) nofun
  · cases h
  · cases h

theorem finish_effect {result : Except Exc BridgeEventData} (hget : s.submissions[i]? = some sub)
    (h : finish b i sub now result s = some t) : Effect b s (.finish i now result) t := by
  rw [finish] at h
  split at h
  · next n hrunner =>
      obtain ⟨breaker, hleave, hret⟩ := Option.bind_eq_some_iff.mp h
      cases hret
      exact .finished i sub n now result breaker hget hrunner hleave
  · cases h
  · cases h

theorem wake_effect (hget : s.submissions[i]? = some sub) (h : wake i sub now s = some t) :
    Effect b s (.wake i now) t := by
  rw [wake] at h
  split at h
  · next cancelRequested hsubmitter hrunner =>
      cases h
      exact .quiet rfl hget (.gaveUpEarly cancelRequested hsubmitter hrunner) nofun nofun nofun
  · next n hsubmitter hrunner =>
      cases h
      exact .quiet rfl hget (.gaveUp n hsubmitter hrunner) (fun _ => id) id nofun
  · next how hsubmitter hrunner =>
      cases h
      exact .ended _ i sub _ true now rfl hget (.gaveUp how hsubmitter hrunner)
  · next hsubmitter hadmission =>
      cases h
      exact .quiet rfl hget (.granted hsubmitter hadmission) (fun _ => id) id nofun
  · next retryAfter hsubmitter hadmission =>
      cases h
      exact .ended _ i sub _ true now rfl hget (.turnedAway retryAfter hsubmitter hadmission)
  · cases h

theorem join_effect (hget : s.submissions[i]? = some sub) (h : join i sub now s = some t) :
    Effect b s (.join i now) t := by
  rw [join] at h
  split at h
  · next cancelled how hsubmitter hrunner =>
      cases h
      cases cancelled with
      | false => exact .ended _ i sub _ true now rfl hget (.joined how hsubmitter hrunner)
      | true => exact .ended _ i sub _ true now rfl hget (.interrupted how hsubmitter hrunner)
  · cases h

theorem settle_effect (hget : s.submissions[i]? = some sub) (h : settle i sub now s = some t) :
    Effect b s (.settle i now) t := by
  rw [settle] at h
  split at h
  · next cancelled hsubmitter =>
      cases h
      cases cancelled with
      | false => exact .ended _ i sub _ false now rfl hget (.returned hsubmitter)
      | true => exact .ended _ i sub _ false now rfl hget (.unsettled hsubmitter)
  · cases h

theorem cancelRunner_effect {a : Action} (ha : a.submission = some i)
    (hget : s.submissions[i]? = some sub) (h : cancelRunner i sub s = some t)
    (hby : sub.submitter = .waiting false → a = .cancelRunner i) : Effect b s a t := by
  rw [cancelRunner] at h
  split at h
  · next cancelRequested hrunner =>
      cases h
      exact .quiet ha hget (.runnerCancelled cancelRequested hrunner) nofun nofun
        fun _ hwaiting => ⟨hby hwaiting, by rw [hrunner]; rfl⟩
  · cases h
    exact .stays a
  · cases h

theorem cancelSubmitter_effect (hget : s.submissions[i]? = some sub)
    (h : cancelSubmitter i sub s = some t) : Effect b s (.cancelSubmitter i) t := by
  rw [cancelSubmitter] at h
  split at h
  · next before hsubmitter =>
      cases h
      by_cases hpending : sub.admission = .pending
      · rw [if_pos hpending]
        exact .quiet rfl hget (.cancelled before hsubmitter hpending) (fun _ => id) id nofun
      · rw [if_neg hpending]
        exact .quiet rfl hget (.cancelledLate before hsubmitter hpending) (fun _ => id) id nofun
  · next before how hsubmitter hrunner =>
      cases h
      exact .quiet rfl hget (.interrupted before how hsubmitter hrunner) (fun _ => id) id nofun
  · next before hsubmitter hrunner =>
      exact cancelRunner_effect rfl hget h fun hwaiting => nomatch hsubmitter.symm.trans hwaiting
  · next before hsubmitter =>
      cases h
      exact .quiet rfl hget (.unsettled before hsubmitter) (fun _ => id) id nofun
  · cases h

theorem step_effect {a : Action} (h : step b s a = some t) : Effect b s a t := by
  cases a with
  | submit taskId operationName now =>
      cases h
      exact .submitted taskId operationName now
  | start i now later =>
      obtain ⟨sub, hget, hstep⟩ := Option.bind_eq_some_iff.mp h
      exact start_effect hget hstep
  | finish i now result =>
      obtain ⟨sub, hget, hstep⟩ := Option.bind_eq_some_iff.mp h
      exact finish_effect hget hstep
  | wake i now =>
      obtain ⟨sub, hget, hstep⟩ := Option.bind_eq_some_iff.mp h
      exact wake_effect hget hstep
  | join i now =>
      obtain ⟨sub, hget, hstep⟩ := Option.bind_eq_some_iff.mp h
      exact join_effect hget hstep
  | settle i now =>
      obtain ⟨sub, hget, hstep⟩ := Option.bind_eq_some_iff.mp h
      exact settle_effect hget hstep
  | cancelRunner i =>
      obtain ⟨sub, hget, hstep⟩ := Option.bind_eq_some_iff.mp h
      exact cancelRunner_effect rfl hget hstep fun _ => rfl
  | cancelSubmitter i =>
      obtain ⟨sub, hget, hstep⟩ := Option.bind_eq_some_iff.mp h
      exact cancelSubmitter_effect hget hstep

end Effects

end DualeAI.TaskAdmission
