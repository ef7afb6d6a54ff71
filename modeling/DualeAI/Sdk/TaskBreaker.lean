import DualeAI.Events.DecidingReply
import DualeAI.Sdk.CircuitBreaker

/-!
How a task ends under the breaker, `_run_task_with_circuit_breaker`.

The task's result and the marks made on its attempt decide what its completion
records. A connection error of the session that outlives the retry budget is no
SDK error, so the last `except` clause marks it neutral. A malformed stream, which no
attempt is made after, becomes an SDK connection error and is recorded as a failure.
-/
namespace DualeAI.Breaker
open Foundation Http Client

/-- One admitted task: whether its submitter gave up while it waited, what
`_ensure_events_client` gives, and what the Bridge replies to its attempts. -/
structure Task where
  admissionCancelled : Bool
  eventsClient : Except Exc CloudEventsClient
  replies : Nat → Reply
  callbacks : Callbacks
  taskId : Text
  request : BridgeTaskRequest

/-- The marks made on the attempt once the task ended. -/
def classify (attempt : Attempt) : Except Exc BridgeEventData → Attempt
  | .error .cancelled => attempt
  | .error (.sdk error) =>
      if error.kind = .connectionError then
        match error.problemDetails with
        | some problem => if problem.retryable = some false then attempt.ignore else attempt
        | none => attempt
      else attempt.ignore
  | .error _ => attempt.ignore
  | .ok (.taskError data) => if data.retryable = some true then attempt.fail else attempt.ignore
  | .ok (.taskStopped _) => attempt.ignore
  | .ok _ => attempt

section Run
variable (D : HttpDecoders) (b : CircuitBreaker)

def taskResult (task : Task) : Except Exc BridgeEventData :=
  match task.eventsClient with
  | .error e => .error e
  | .ok client =>
      (runTask D client (fun number _ => task.replies number) task.callbacks task.taskId
        task.request).result

/-- The attempt and `raised` that `protect` completes the task with. -/
def taskExit (task : Task) (attempt : Attempt) : Attempt × Bool :=
  if task.admissionCancelled then
    protectExit attempt (.error .cancelled : Except Exc BridgeEventData)
  else protectExit (classify attempt (taskResult D task)) (taskResult D task)

def finishTask (now : Rat) (task : Task) (attempt : Attempt) (s : State) : State :=
  complete b now (taskExit D task attempt).1 (taskExit D task attempt).2 s

def taskVerdict (task : Task) : Verdict :=
  verdict (taskExit D task ⟨0, none⟩).1 (taskExit D task ⟨0, none⟩).2

def resultVerdict : Except Exc BridgeEventData → Verdict
  | .error (.sdk error) =>
      if error.kind = .connectionError ∧
        ∀ problem ∈ error.problemDetails, problem.retryable ≠ some false then .failure
      else .neutral
  | .error _ => .neutral
  | .ok (.taskError data) => if data.retryable = some true then .failure else .neutral
  | .ok (.taskStopped _) => .neutral
  | .ok _ => .success

theorem classify_generation (attempt : Attempt) (result : Except Exc BridgeEventData) :
    (classify attempt result).generation = attempt.generation := by
  unfold classify Attempt.ignore Attempt.fail
  repeat' split
  all_goals rfl

theorem verdict_classify (generation : Nat) (result : Except Exc BridgeEventData) :
    verdict (protectExit (classify ⟨generation, none⟩ result) result).1
        (protectExit (classify ⟨generation, none⟩ result) result).2 = resultVerdict result := by
  cases result with
  | ok data =>
      cases data with
      | taskError data =>
          by_cases h : data.retryable = some true <;>
            simp [classify, protectExit, resultVerdict, verdict, Attempt.fail, Attempt.ignore, h]
      | contentDelta _ | contentReset _ | toolUse _ | taskCompleted _ | taskStopped _ => rfl
  | error e =>
      cases e with
      | sdk error =>
          by_cases hkind : error.kind = .connectionError
          · cases hproblem : error.problemDetails with
            | none =>
                simp [classify, protectExit, resultVerdict, verdict, hkind, hproblem,
                  Exc.isException]
            | some problem =>
                by_cases hretry : problem.retryable = some false <;>
                  simp [classify, protectExit, resultVerdict, verdict, hkind, hproblem, hretry,
                    Exc.isException, Attempt.ignore]
          · simp [classify, protectExit, resultVerdict, verdict, hkind, Exc.isException,
              Attempt.ignore]
      | client _ | sse _ | unicodeDecodeError | transport _ | cancelled | other _ | fatal _ => rfl

theorem verdict_taskExit (task : Task) (generation : Nat) :
    verdict (taskExit D task ⟨generation, none⟩).1 (taskExit D task ⟨generation, none⟩).2 =
      taskVerdict D task := by
  unfold taskVerdict taskExit
  split
  · rfl
  · rw [verdict_classify, verdict_classify]

theorem taskVerdict_eq {task : Task} (h : task.admissionCancelled = false) :
    taskVerdict D task = resultVerdict (taskResult D task) := by
  simp only [taskVerdict, taskExit, h, Bool.false_eq_true, ite_false]
  exact verdict_classify 0 _

theorem taskExit_generation (task : Task) (attempt : Attempt) :
    (taskExit D task attempt).1.generation = attempt.generation := by
  rw [taskExit]
  split
  · exact protectExit_generation _ _
  · exact (protectExit_generation _ _).trans (classify_generation _ _)

theorem finishTask_eq (now : Rat) (task : Task) {generation : Nat} {s : State}
    (h : generation = s.generation) :
    finishTask D b now task ⟨generation, none⟩ s = record b now (taskVerdict D task) s := by
  have hgeneration := (taskExit_generation D task ⟨generation, none⟩).trans h
  rw [finishTask, complete_eq_record hgeneration, verdict_taskExit]

end Run

/-! ## The classes of tasks -/

section Classes
variable (D : HttpDecoders)

def Reaches (task : Task) : Prop :=
  task.admissionCancelled = false ∧ task.eventsClient = .ok ⟨true, true, true⟩

def DecidedBy (task : Task) (reply : Reply) : Prop :=
  Reaches task ∧ ∃ k, DecidesTask D task.replies k ∧ task.replies (1 + k) = reply

/-- Every attempt of the retry budget ends in a retryable connection error. -/
def Unreachable (task : Task) : Prop :=
  Reaches task ∧ ∀ k < maxRetries, ¬ DeliversTerminal D (task.replies (1 + k)) ∧
    ∃ kind, (task.replies (1 + k)).outcome D = .error (.client kind) ∧
      isRetryableStreamError (.client kind) = true

/-- The stream's first terminal event. -/
def EndsWith (task : Task) (data : BridgeEventData) : Prop :=
  ∃ reply event, DecidedBy D task reply ∧
    (reply.events D).find? (fun event => event.data.isTerminal) = some event ∧ event.data = data

def EndsWithoutTerminal (task : Task) : Prop :=
  ∃ reply, DecidedBy D task reply ∧ ¬ DeliversTerminal D reply ∧ reply.outcome D = .ok ()

def EndsWithStatus (task : Task) (status : Nat) (problem : Option ProblemDetails) : Prop :=
  ∃ response, DecidedBy D task (.answers response) ∧ response.status = status ∧ 400 ≤ status ∧
    readProblemDetails D response.body = .ok problem

def Cancelled (task : Task) : Prop :=
  task.admissionCancelled = true ∨ task.eventsClient = .error .cancelled ∨
    ∃ reply, DecidedBy D task reply ∧ ¬ DeliversTerminal D reply ∧
      reply.outcome D = .error .cancelled

/-- The last attempt ends in `e`, before its `except` clauses. -/
def FailsWith (task : Task) (e : Exc) : Prop :=
  ∃ reply, DecidedBy D task reply ∧ ¬ DeliversTerminal D reply ∧ reply.outcome D = .error e

/-- The stream breaks a rule of its format, other than by a checksum. -/
def Malformed (task : Task) : Prop :=
  ∃ error : SSEParseError, FailsWith D task (.sse error) ∧ error.isChecksumError = false

def notMarked (problem : Option ProblemDetails) : Bool :=
  problem.all fun problem => problem.retryable != some false

/-- A connection error that is not marked otherwise, or one that the transport retries. -/
def isRetryable : Exc → Bool
  | .sdk error => error.kind == .connectionError && notMarked error.problemDetails
  | .transport error =>
      (error.kind == .connection || error.kind == .stream) && notMarked error.problemDetails
  | e => isRetryableStreamError e

inductive CountsAsFailure (task : Task) : Prop where
  | unreachable (h : Unreachable D task)
  | noTerminal (h : EndsWithoutTerminal D task)
  | retryableError (data : ProblemDetails) (h : EndsWith D task (.taskError data))
      (hretry : data.retryable = some true)
  | serverError (status : Nat) (problem : Option ProblemDetails)
      (h : EndsWithStatus D task status problem) (hstatus : 500 ≤ status)
      (hretry : ∀ p ∈ problem, p.retryable ≠ some false)

inductive CountsAsNeutral (task : Task) : Prop where
  | stopped (reason : Text) (h : EndsWith D task (.taskStopped reason))
  | cancelled (h : Cancelled D task)
  | nonRetryableError (data : ProblemDetails) (h : EndsWith D task (.taskError data))
      (hretry : data.retryable ≠ some true)
  | clientError (status : Nat) (problem : Option ProblemDetails)
      (h : EndsWithStatus D task status problem) (hstatus : status < 500)
  | nonRetryableStatus (status : Nat) (problem : ProblemDetails)
      (h : EndsWithStatus D task status (some problem)) (hretry : problem.retryable = some false)
  | nonRetryableFailure (e : Exc) (h : FailsWith D task e) (hretry : isRetryable e = false)
  | noClient (e : Exc) (hadmitted : task.admissionCancelled = false)
      (h : task.eventsClient = .error e) (hretry : isRetryable e = false)

/-! ## What the breaker makes of an ending -/

/-- A failed probe reopens the breaker; any other failure is counted, and opens it at the
threshold. -/
structure FailureRecorded (b : CircuitBreaker) (now : Rat) (s t : State) : Prop where
  probe : s.phase = .halfOpen → t.phase = .opened ∧ t.openUntil = now + b.recoveryTimeout
  counted : s.phase ≠ .halfOpen → t.consecutiveFailures = s.consecutiveFailures + 1
  opens : s.phase ≠ .halfOpen → b.failureThreshold ≤ s.consecutiveFailures + 1 →
    t.phase = .opened ∧ t.openUntil = now + b.recoveryTimeout
  below : s.phase ≠ .halfOpen → s.consecutiveFailures + 1 < b.failureThreshold →
    t.phase = s.phase

structure SuccessRecorded (s t : State) : Prop where
  reset : t.consecutiveFailures = 0
  probe : s.phase = .halfOpen → t.phase = .closed
  phase : s.phase ≠ .halfOpen → t.phase = s.phase

/-- No count changes; only a probe, which shows nothing, makes room for the next one. -/
structure NothingCounted (now : Rat) (s t : State) : Prop where
  count : t.consecutiveFailures = s.consecutiveFailures
  probe : s.phase = .halfOpen → t.phase = .opened ∧ t.openUntil = now
  same : s.phase ≠ .halfOpen → t = s

/-- The task ends at any time in the generation it was admitted in. -/
structure ClassifiedRight (b : CircuitBreaker) (task : Task) : Prop where
  failure : CountsAsFailure D task → ∀ now s,
    FailureRecorded b now s (finishTask D b now task ⟨s.generation, none⟩ s)
  success : ∀ result, EndsWith D task (.taskCompleted result) → ∀ now s,
    SuccessRecorded s (finishTask D b now task ⟨s.generation, none⟩ s)
  neutral : CountsAsNeutral D task → ∀ now s,
    NothingCounted now s (finishTask D b now task ⟨s.generation, none⟩ s)

section Recorded
variable {b : CircuitBreaker} {now : Rat} {s : State}

theorem record_failure : FailureRecorded b now s (record b now .failure s) := by
  cases hphase : s.phase with
  | halfOpen =>
      have hrecord : record b now .failure s = openBreaker b now s := by simp [record, hphase]
      rw [hrecord]
      exact ⟨fun _ => ⟨rfl, rfl⟩, fun h => absurd hphase h, fun h => absurd hphase h,
        fun h => absurd hphase h⟩
  | closed | opened =>
      have hnot : s.phase ≠ .halfOpen := by simp [hphase]
      by_cases hreach : s.consecutiveFailures + 1 ≥ b.failureThreshold
      · have hrecord : record b now .failure s =
            openBreaker b now { s with consecutiveFailures := s.consecutiveFailures + 1 } := by
          simp [record, hphase, hreach]
        rw [hrecord]
        exact ⟨fun h => absurd h hnot, fun _ => rfl, fun _ _ => ⟨rfl, rfl⟩,
          fun _ h => absurd hreach (Nat.not_le.mpr h)⟩
      · have hrecord : record b now .failure s =
            { s with consecutiveFailures := s.consecutiveFailures + 1 } := by
          simp [record, hphase, hreach]
        rw [hrecord]
        exact ⟨fun h => absurd h hnot, fun _ => rfl, fun _ h => absurd h hreach, fun _ _ => rfl⟩

theorem record_success : SuccessRecorded s (record b now .success s) := by
  cases hphase : s.phase with
  | halfOpen =>
      have hrecord : record b now .success s = close s := by simp [record, hphase]
      rw [hrecord]
      exact ⟨rfl, fun _ => rfl, fun h => absurd hphase h⟩
  | closed | opened =>
      have hrecord : record b now .success s = { s with consecutiveFailures := 0 } := by
        simp [record, hphase]
      rw [hrecord]
      exact ⟨rfl, fun h => by simp [hphase] at h, fun _ => rfl⟩

theorem record_neutral : NothingCounted now s (record b now .neutral s) := by
  have hrecord : record b now .neutral s = recordIgnoredProbe now s := by
    cases hphase : s.phase <;> simp [record]
  rw [hrecord, recordIgnoredProbe]
  split
  · next hphase => exact ⟨rfl, fun _ => ⟨rfl, rfl⟩, fun h => absurd hphase h⟩
  · next hphase => exact ⟨rfl, fun h => absurd h hphase, fun _ => rfl⟩

/-- One more failure is not nothing. -/
theorem FailureRecorded.not_nothing {t : State} (h : FailureRecorded b now s t)
    (hphase : s.phase = .closed) : ¬ NothingCounted now s t := by
  intro hnothing
  have hcounted := h.counted (by simp [hphase])
  rw [hnothing.count] at hcounted
  omega

end Recorded

variable {D}

theorem DecidedBy.taskVerdict {task : Task} {reply : Reply} (h : DecidedBy D task reply) :
    ∃ operation, taskVerdict D task =
      resultVerdict (replyResult D task.callbacks task.taskId operation reply) := by
  obtain ⟨⟨hadmitted, hclient⟩, k, hk, rfl⟩ := h
  have hstream (operation : String) := consume_taskStream D task.replies task.callbacks task.taskId
    (show (CloudEventsClient.mk true true true).transportConnected = true from rfl) operation
    task.request.json none hk
  refine ⟨if task.request.type = continueType then "Task continuation" else "Task run", ?_⟩
  rw [taskVerdict_eq D hadmitted, taskResult, hclient, ← hstream]
  rfl

theorem replyResult_open {reply : Reply} (h : ¬ DeliversTerminal D reply) (callbacks : Callbacks)
    (taskId : Text) (operation : String) :
    replyResult D callbacks taskId operation reply =
      .error (streamEndError taskId operation (closing (reply.outcome D))) := by
  refine consumeTerminalStream_open callbacks taskId operation ?_
  intro event hmem
  exact Bool.eq_false_iff.mpr fun hterminal => h ⟨event, hmem, hterminal⟩

theorem EndsWith.taskVerdict {task : Task} {data : BridgeEventData} (h : EndsWith D task data) :
    taskVerdict D task = resultVerdict (.ok data) := by
  obtain ⟨reply, event, hdecided, hfind, rfl⟩ := h
  obtain ⟨operation, hverdict⟩ := hdecided.taskVerdict
  rw [hverdict, replyResult, consumeTerminalStream_terminal _ _ _ hfind]

theorem EndsWithoutTerminal.taskVerdict {task : Task} (h : EndsWithoutTerminal D task) :
    taskVerdict D task = .failure := by
  obtain ⟨reply, hdecided, hopen, hend⟩ := h
  obtain ⟨operation, hverdict⟩ := hdecided.taskVerdict
  rw [hverdict, replyResult_open hopen, hend]
  simp [closing, streamEndError, resultVerdict]

theorem EndsWithStatus.taskVerdict {task : Task} {status : Nat} {problem : Option ProblemDetails}
    (h : EndsWithStatus D task status problem) :
    taskVerdict D task =
      if 500 ≤ status ∧ ∀ p ∈ problem, p.retryable ≠ some false then .failure else .neutral := by
  obtain ⟨response, hdecided, rfl, hstatus, hproblem⟩ := h
  obtain ⟨operation, hverdict⟩ := hdecided.taskVerdict
  have hlow : ¬ response.status < 400 := Nat.not_lt.mpr hstatus
  have hopen : ¬ DeliversTerminal D (.answers response) := by
    simp [DeliversTerminal, Reply.events, hlow]
  rw [hverdict, replyResult_open hopen]
  simp only [Reply.outcome, hlow, ite_false, raiseForHttpStatus, hproblem, closing, exceptClauses,
    streamEndError, resultVerdict, translated]
  by_cases hauth : response.status = 401 ∨ response.status = 403
  · have hclient : ¬ 500 ≤ response.status := by omega
    simp [statusErrorKind, hauth, hclient]
  · by_cases hserver : response.status < 500
    · simp [statusErrorKind, hauth, hserver, Nat.not_le.mpr hserver]
    · simp [statusErrorKind, hauth, hserver, Nat.le_of_not_lt hserver]

theorem Cancelled.taskVerdict {task : Task} (h : Cancelled D task) :
    taskVerdict D task = .neutral := by
  rcases h with hadmission | hclient | ⟨reply, hdecided, hopen, hend⟩
  · simp [Breaker.taskVerdict, taskExit, hadmission, protectExit, Attempt.ignoreCancellation,
      verdict]
  · cases hadmission : task.admissionCancelled with
    | true =>
        simp [Breaker.taskVerdict, taskExit, hadmission, protectExit, Attempt.ignoreCancellation,
          verdict]
    | false => rw [taskVerdict_eq D hadmission, taskResult, hclient]; rfl
  · obtain ⟨operation, hverdict⟩ := hdecided.taskVerdict
    rw [hverdict, replyResult_open hopen, hend]
    rfl

/-- A Bridge out of reach for the whole retry budget is recorded as neutral. -/
theorem Unreachable.taskVerdict {task : Task} (h : Unreachable D task) :
    taskVerdict D task = .neutral := by
  obtain ⟨hreaches, hattempts⟩ := h
  have hpassed (k : Nat) (hk : k < maxRetries) : Passes D (task.replies (1 + k)) := by
    obtain ⟨hopen, kind, hend, hretry⟩ := hattempts k hk
    exact ⟨hopen, _, hend, hretry⟩
  have hdecides : DecidesTask D task.replies (maxRetries - 1) :=
    ⟨Nat.le_refl _, fun j hj => hpassed j (by omega), fun hlt => absurd hlt (Nat.lt_irrefl _)⟩
  have hdecided : DecidedBy D task (task.replies (1 + (maxRetries - 1))) :=
    ⟨hreaches, _, hdecides, rfl⟩
  obtain ⟨operation, hverdict⟩ := hdecided.taskVerdict
  obtain ⟨hopen, kind, hend, -⟩ := hattempts (maxRetries - 1) (by decide)
  rw [hverdict, replyResult_open hopen, hend]
  rfl

/-- A task that counts as a failure is recorded as one unless its Bridge is
out of reach. -/
theorem CountsAsFailure.taskVerdict {task : Task} (h : CountsAsFailure D task)
    (hreached : ¬ Unreachable D task) : taskVerdict D task = .failure := by
  cases h with
  | unreachable h => exact absurd h hreached
  | noTerminal h => exact h.taskVerdict
  | retryableError data h hretry => rw [h.taskVerdict, resultVerdict, if_pos hretry]
  | serverError status problem h hstatus hretry =>
      rw [h.taskVerdict, if_pos ⟨hstatus, hretry⟩]

theorem notMarked_eq_true {problem : Option ProblemDetails} :
    notMarked problem = true ↔ ∀ p ∈ problem, p.retryable ≠ some false := by
  cases problem with
  | none => simp [notMarked]
  | some p => simp [notMarked]

/-- An error that is not retryable is recorded as neutral, whatever raised it. -/
theorem resultVerdict_nonRetryable {e : Exc} (h : isRetryable e = false) :
    resultVerdict (.error e) = .neutral := by
  cases e with
  | sdk error =>
      refine if_neg fun hfail => ?_
      have hmarked := notMarked_eq_true.mpr hfail.2
      simp [isRetryable, hfail.1, hmarked] at h
  | client _ | sse _ | unicodeDecodeError | transport _ | cancelled | other _ | fatal _ => rfl

theorem FailsWith.taskVerdict {task : Task} {e : Exc} (h : FailsWith D task e) :
    ∃ operation, taskVerdict D task =
      resultVerdict (.error (streamEndError task.taskId operation (.error (exceptClauses e)))) := by
  obtain ⟨reply, hdecided, hopen, hend⟩ := h
  obtain ⟨operation, hverdict⟩ := hdecided.taskVerdict
  refine ⟨operation, ?_⟩
  rw [hverdict, replyResult_open hopen, hend]
  rfl

/-- A malformed stream is recorded as a failure. -/
theorem Malformed.taskVerdict {task : Task} (h : Malformed D task) :
    taskVerdict D task = .failure := by
  obtain ⟨error, hfails, hchecksum⟩ := h
  obtain ⟨operation, hverdict⟩ := hfails.taskVerdict
  rw [hverdict]
  simp [exceptClauses, hchecksum, streamEndError, translated, resultVerdict]

theorem FailsWith.taskVerdict_neutral {task : Task} {e : Exc} (h : FailsWith D task e)
    (hretry : isRetryable e = false) (hformed : ¬ Malformed D task) :
    Breaker.taskVerdict D task = .neutral := by
  obtain ⟨operation, hverdict⟩ := h.taskVerdict
  rw [hverdict]
  cases e with
  | sse error =>
      cases hchecksum : error.isChecksumError with
      | true => simp [exceptClauses, hchecksum, streamEndError, resultVerdict]
      | false => exact absurd ⟨error, h, hchecksum⟩ hformed
  | transport error =>
      refine resultVerdict_nonRetryable ?_
      rw [← hretry]
      obtain ⟨kind, cause, problem⟩ := error
      cases kind <;> rfl
  | client _ | unicodeDecodeError | sdk _ | cancelled | other _ | fatal _ =>
      exact resultVerdict_nonRetryable hretry

theorem CountsAsNeutral.taskVerdict {task : Task} (h : CountsAsNeutral D task)
    (hformed : ¬ Malformed D task) : taskVerdict D task = .neutral := by
  cases h with
  | stopped reason h => exact h.taskVerdict
  | cancelled h => exact h.taskVerdict
  | nonRetryableError data h hretry => rw [h.taskVerdict, resultVerdict, if_neg hretry]
  | clientError status problem h hstatus =>
      rw [h.taskVerdict, if_neg fun hfail => absurd hfail.1 (Nat.not_le.mpr hstatus)]
  | nonRetryableStatus status problem h hretry =>
      rw [h.taskVerdict, if_neg fun hfail => hfail.2 problem rfl hretry]
  | nonRetryableFailure e h hretry => exact h.taskVerdict_neutral hretry hformed
  | noClient e hadmitted h hretry =>
      rw [taskVerdict_eq D hadmitted, taskResult, h]
      exact resultVerdict_nonRetryable hretry

/-! ## Runs of failing tasks -/

/-- Admitted tasks of one generation, completed one after another. -/
def finishTasks (D : HttpDecoders) (b : CircuitBreaker) (attempt : Attempt)
    (run : List (Rat × Task)) (s : State) : State :=
  run.foldl (fun s completion => finishTask D b completion.1 completion.2 attempt s) s

/-- Run: as many failures as are missing to the threshold open a closed breaker. -/
theorem finishTasks_opens {b : CircuitBreaker} {run : List (Rat × Task)}
    (hrun : ∀ completion ∈ run, Breaker.taskVerdict D completion.2 = .failure) {s : State}
    (hclosed : s.phase = .closed) (hbelow : s.consecutiveFailures < b.failureThreshold)
    (hlength : s.consecutiveFailures + run.length = b.failureThreshold) :
    (finishTasks D b ⟨s.generation, none⟩ run s).phase = .opened := by
  induction run generalizing s with
  | nil => simp at hlength; omega
  | cons completion run ih =>
      have hfirst := hrun completion List.mem_cons_self
      rw [finishTasks, List.foldl_cons, finishTask_eq D b _ _ rfl, hfirst]
      by_cases hreach : s.consecutiveFailures + 1 ≥ b.failureThreshold
      · have hnil : run = [] := by
          rw [List.length_cons] at hlength
          exact List.length_eq_zero_iff.mp (by omega)
        subst hnil
        simp [record, hclosed, hreach, openBreaker]
      · have hcount : record b completion.1 .failure s =
            { s with consecutiveFailures := s.consecutiveFailures + 1 } := by
          simp [record, hclosed, hreach]
        rw [hcount]
        refine ih (s := { s with consecutiveFailures := s.consecutiveFailures + 1 })
          (fun e he => hrun e (List.mem_cons_of_mem completion he)) hclosed ?_ ?_
        · exact Nat.lt_of_not_le hreach
        · rw [List.length_cons] at hlength
          simp only
          omega

theorem finishTask_verdict (b : CircuitBreaker) (now : Rat) (task : Task) (s : State) :
    finishTask D b now task ⟨s.generation, none⟩ s = record b now (Breaker.taskVerdict D task) s :=
  finishTask_eq D b now task rfl

/-- Every admitted task leaves the breaker as its ending calls for exactly when its
Bridge is not out of reach for the whole retry budget and its stream is not malformed. Once
the breaker has left the generation of an admission, its end changes nothing; and failing
tasks that are not out of reach open a closed breaker when the threshold is reached. -/
theorem task_classified_iff (D : HttpDecoders) (b : CircuitBreaker) :
    (∀ task, ClassifiedRight D b task ↔ ¬ Unreachable D task ∧ ¬ Malformed D task) ∧
    (∀ (now : Rat) (task : Task) (generation : Nat) (s : State), generation ≠ s.generation →
      finishTask D b now task ⟨generation, none⟩ s = s) ∧
    ∀ (s : State) (run : List (Rat × Task)), s.phase = .closed →
      s.consecutiveFailures < b.failureThreshold →
      s.consecutiveFailures + run.length = b.failureThreshold →
      (∀ completion ∈ run, CountsAsFailure D completion.2 ∧ ¬ Unreachable D completion.2) →
      (∀ now, admitAttempt b now s = .ok (s, ⟨s.generation, none⟩)) ∧
        (finishTasks D b ⟨s.generation, none⟩ run s).phase = .opened := by
  refine ⟨?_, ?_, ?_⟩
  · intro task
    constructor
    · intro hright
      constructor
      · intro hunreachable
        have hfailure := hright.failure (.unreachable hunreachable) 0 {}
        rw [finishTask_verdict, hunreachable.taskVerdict] at hfailure
        exact hfailure.not_nothing rfl record_neutral
      · intro hmalformed
        obtain ⟨error, hfails, hchecksum⟩ := hmalformed
        have hneutral := hright.neutral (.nonRetryableFailure _ hfails hchecksum) 0 {}
        rw [finishTask_verdict, Malformed.taskVerdict ⟨error, hfails, hchecksum⟩] at hneutral
        exact record_failure.not_nothing rfl hneutral
    · rintro ⟨hreached, hformed⟩
      refine ⟨fun h now s => ?_, fun result h now s => ?_, fun h now s => ?_⟩
      · rw [finishTask_verdict, h.taskVerdict hreached]
        exact record_failure
      · rw [finishTask_verdict, h.taskVerdict]
        exact record_success
      · rw [finishTask_verdict, h.taskVerdict hformed]
        exact record_neutral
  · intro now task generation s hstale
    rw [finishTask]
    refine complete_stale ?_
    rw [taskExit_generation]
    exact hstale
  · intro s run hclosed hbelow hlength hrun
    refine ⟨fun now => by simp [admitAttempt, hclosed], ?_⟩
    exact finishTasks_opens (fun e he => (hrun e he).1.taskVerdict (hrun e he).2) hclosed hbelow
      hlength

def unreachableTask : Task :=
  ⟨false, .ok ⟨true, true, true⟩, fun _ => .raises (.client .clientConnectionError),
    ⟨false, false, true⟩, "t".toList, ⟨"create".toList, []⟩⟩

def strictBreaker : CircuitBreaker := ⟨1, 30, Nat.le_refl 1, by decide⟩

/-- A breaker that should open at the first failure stays as it is. -/
theorem unreachableTask_uncounted :
    ¬ ClassifiedRight frozenHttpDecoders strictBreaker unreachableTask ∧
      finishTask frozenHttpDecoders strictBreaker 0 unreachableTask ⟨0, none⟩ {} = {} := by
  have hunreachable : Unreachable frozenHttpDecoders unreachableTask := by
    refine ⟨⟨rfl, rfl⟩, fun k _ => ⟨?_, .clientConnectionError, rfl, rfl⟩⟩
    rintro ⟨event, hmem, -⟩
    cases hmem
  have hrecord :=
    finishTask_verdict (D := frozenHttpDecoders) strictBreaker 0 unreachableTask {}
  rw [hunreachable.taskVerdict] at hrecord
  refine ⟨fun hright => ?_, hrecord⟩
  have hcounted := (hright.failure (.unreachable hunreachable) 0 {}).counted (by decide)
  rw [hrecord] at hcounted
  cases hcounted

end Classes
end DualeAI.Breaker
