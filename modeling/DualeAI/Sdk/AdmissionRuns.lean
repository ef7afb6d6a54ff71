import DualeAI.Foundation.Streak
import DualeAI.Sdk.TaskAdmission

/-!
What every run of the submissions keeps.

The counters are the numbers of the submissions they are about; admission, runner and
submitter go together; a running runner has its body of the breaker.
-/
namespace DualeAI.TaskAdmission
open Foundation
open Breaker (CircuitBreaker admitAttempt classify)

/-! ## What is counted -/

def Submitter.wasReturned : Submitter → Bool
  | .ended .returned => true
  | .ended _ | .waiting _ | .joining _ | .settling _ => false

def Submitter.wasRejected : Submitter → Bool
  | .ended (.rejected _) => true
  | .ended _ | .waiting _ | .joining _ | .settling _ => false

/-- The breaker let it in. -/
def Runner.admitted : Runner → Bool
  | .running _ | .ended .abandoned | .ended (.finished _) => true
  | .created _ | .ended .unstarted | .ended (.rejected _) => false

def isFailure : Except Exc BridgeEventData → Bool
  | .error _ | .ok (.taskError _) => true
  | .ok _ => false

def isSuccess : Except Exc BridgeEventData → Bool
  | .error _ | .ok (.taskError _) | .ok (.taskStopped _) => false
  | .ok _ => true

/-- It ended, and its result is of a kind. -/
def Runner.finishedWith (p : Except Exc BridgeEventData → Bool) : Runner → Bool
  | .ended (.finished result) => p result
  | .created _ | .running _ | .ended _ => false

/-- Each counter is the number of the submissions that it is about. -/
structure Accounts (s : State) : Prop where
  rejected : s.metrics.tasksRejected = s.submissions.countP fun sub => sub.submitter.wasRejected
  submitted : s.metrics.tasksSubmitted = s.submissions.countP fun sub => sub.submitter.wasReturned
  failed : s.metrics.tasksFailed =
    s.submissions.countP fun sub => sub.runner.finishedWith isFailure
  completed : s.metrics.tasksCompleted =
    s.submissions.countP fun sub => sub.runner.finishedWith isSuccess
  admitted : s.breaker.bodies.length = s.submissions.countP fun sub => sub.runner.admitted
  counted : s.counted.count true = s.metrics.tasksRejected ∧
    s.counted.count false = s.metrics.tasksSubmitted
  consecutive : s.metrics.consecutiveRejections = streak id s.counted

section Accounting
variable {b : CircuitBreaker} {s t : State} {i : Nat} {sub sub' : Submission}

theorem recordResult_eq (result : Except Exc BridgeEventData) (m : BackpressureMetrics) :
    m.recordResult result = { m with
      tasksFailed := m.tasksFailed + (isFailure result).toNat
      tasksCompleted := m.tasksCompleted + (isSuccess result).toNat } := by
  cases result with
  | error e => rfl
  | ok data => cases data <;> rfl

theorem Moves.uncounted {endsFlow : Bool} (h : Moves sub sub' endsFlow) :
    sub'.submitter.wasRejected = sub.submitter.wasRejected ∧
      sub'.submitter.wasReturned = sub.submitter.wasReturned ∧
      ∀ p, sub'.runner.finishedWith p = sub.runner.finishedWith p := by
  cases h with
  | unstarted h | turnedAway _ h | turnedAwayLate _ h | abandoned h | admitted _ h
  | runnerCancelled _ h => exact ⟨rfl, rfl, fun p => by rw [h]; rfl⟩
  | gaveUpEarly _ h hrunner => exact ⟨by rw [h]; rfl, by rw [h]; rfl, fun p => by rw [hrunner]; rfl⟩
  | gaveUp _ h | granted h | cancelled _ h | cancelledLate _ h | interrupted _ _ h
  | unsettled _ h => exact ⟨by rw [h]; rfl, by rw [h]; rfl, fun _ => rfl⟩

theorem Ends.open {outcome : Outcome} {endsFlow : Bool} (h : Ends sub outcome endsFlow) :
    sub.submitter.wasRejected = false ∧ sub.submitter.wasReturned = false := by
  cases h with
  | gaveUp _ h | turnedAway _ h | joined _ h | interrupted _ h | returned h | unsettled h =>
      rw [h]
      exact ⟨rfl, rfl⟩

theorem leave_length {system left : Breaker.System} {n : Nat} {now : Rat} {result : Except Exc Unit}
    (h : Breaker.step b system (.leave n now result) = some left) :
    left.bodies.length = system.bodies.length := by
  obtain ⟨body, -, rfl⟩ := Option.map_eq_some_iff.mp h
  exact List.length_modify _ _ _

/-- The breaker has a body more where the runner is admitted. -/
theorem Enters.admits {system breaker : Breaker.System} {calls : List Breaker.Action}
    {endsFlow : Bool} (h : Enters b system sub sub' calls breaker)
    (hmoves : Moves sub sub' endsFlow) :
    breaker.bodies.length + sub.runner.admitted.toNat =
      system.bodies.length + sub'.runner.admitted.toNat := by
  cases h with
  | stays hrunning habandoned =>
      cases hmoves with
      | unstarted h | turnedAway _ h | turnedAwayLate _ h | runnerCancelled _ h => rw [h]; rfl
      | abandoned h => exact nomatch h.symm.trans (habandoned rfl)
      | admitted n h => exact nomatch h.symm.trans (hrunning n rfl)
      | gaveUpEarly _ _ h => rw [h]; rfl
      | gaveUp | granted | cancelled | cancelledLate | interrupted | unsettled => rfl
  | admitted now hgrows h hbefore =>
      rw [hgrows, h, hbefore]
      rfl
  | abandoned now later left hgrows h hbefore hleave =>
      rw [leave_length hleave, hgrows, h, hbefore]
      rfl

theorem accounts_init : Accounts {} :=
  ⟨rfl, rfl, rfl, rfl, rfl, ⟨rfl, rfl⟩, rfl⟩

theorem countP_set_same {p : Submission → Bool} (hget : s.submissions[i]? = some sub)
    (h : p sub' = p sub) : (s.submissions.set i sub').countP p = s.submissions.countP p := by
  have hset := countP_set p sub' hget
  rw [h] at hset
  exact Nat.add_right_cancel hset

theorem Accounts.moved {endsFlow : Bool} {breaker : Breaker.System} (hs : Accounts s)
    (hget : s.submissions[i]? = some sub) (hmoves : Moves sub sub' endsFlow)
    (hbodies : breaker.bodies.length + sub.runner.admitted.toNat =
      s.breaker.bodies.length + sub'.runner.admitted.toNat) :
    Accounts { (s.endFlowIf endsFlow sub).put i sub' with breaker } := by
  obtain ⟨hrejected, hreturned, hfinished⟩ := hmoves.uncounted
  have hadmitted := countP_set (fun sub => sub.runner.admitted) sub' hget
  have hbefore := hs.admitted
  have hmetrics : (s.endFlowIf endsFlow sub).metrics = s.metrics ∧
      (s.endFlowIf endsFlow sub).counted = s.counted ∧
      (s.endFlowIf endsFlow sub).submissions = s.submissions := by
    cases endsFlow <;> exact ⟨rfl, rfl, rfl⟩
  constructor
  · rw [State.put, hmetrics.1, hmetrics.2.2, countP_set_same hget hrejected]
    exact hs.rejected
  · rw [State.put, hmetrics.1, hmetrics.2.2, countP_set_same hget hreturned]
    exact hs.submitted
  · rw [State.put, hmetrics.1, hmetrics.2.2, countP_set_same hget (hfinished _)]
    exact hs.failed
  · rw [State.put, hmetrics.1, hmetrics.2.2, countP_set_same hget (hfinished _)]
    exact hs.completed
  · rw [State.put, hmetrics.2.2]
    simp only at hadmitted ⊢
    omega
  · rw [State.put, hmetrics.1, hmetrics.2.1]
    exact hs.counted
  · rw [State.put, hmetrics.1, hmetrics.2.1]
    exact hs.consecutive

theorem Accounts.finished {n : Nat} {result : Except Exc BridgeEventData}
    {breaker : Breaker.System} (hs : Accounts s) (hget : s.submissions[i]? = some sub)
    (hrunner : sub.runner = .running n)
    (hbodies : breaker.bodies.length = s.breaker.bodies.length) :
    Accounts { s.put i { sub with runner := .ended (.finished result) } with
      breaker
      metrics := s.metrics.recordResult result } := by
  have hkind (p : Except Exc BridgeEventData → Bool) :
      ((s.submissions.set i { sub with runner := .ended (.finished result) }).countP fun sub =>
        sub.runner.finishedWith p) =
        (s.submissions.countP fun sub => sub.runner.finishedWith p) + (p result).toNat := by
    have hset := countP_set (fun sub : Submission => sub.runner.finishedWith p)
      { sub with runner := .ended (.finished result) } hget
    rw [hrunner] at hset
    exact hset
  have hsubmitter (p : Submitter → Bool) :
      ((s.submissions.set i { sub with runner := .ended (.finished result) }).countP fun sub =>
        p sub.submitter) = s.submissions.countP fun sub => p sub.submitter :=
    countP_set_same hget rfl
  rw [recordResult_eq]
  refine ⟨?_, ?_, ?_, ?_, ?_, hs.counted, hs.consecutive⟩
  · exact hs.rejected.trans (hsubmitter _).symm
  · exact hs.submitted.trans (hsubmitter _).symm
  · exact (congrArg (· + _) hs.failed).trans (hkind isFailure).symm
  · exact (congrArg (· + _) hs.completed).trans (hkind isSuccess).symm
  · refine (hbodies.trans hs.admitted).trans (countP_set_same hget ?_).symm
    rw [hrunner]
    rfl

theorem Accounts.ended {outcome : Outcome} {endsFlow : Bool} (hs : Accounts s)
    (hget : s.submissions[i]? = some sub) (hends : Ends sub outcome endsFlow) (now : Rat) :
    Accounts ((s.endFlowIf endsFlow sub).conclude i sub outcome now) := by
  obtain ⟨hrejected, hreturned⟩ := hends.open
  have hkind (p : Submitter → Bool) (hp : p sub.submitter = false) :
      ((s.submissions.set i { sub with submitter := .ended outcome }).countP fun sub =>
        p sub.submitter) =
        (s.submissions.countP fun sub => p sub.submitter) + (p (.ended outcome)).toNat := by
    have hset := countP_set (fun sub : Submission => p sub.submitter)
      { sub with submitter := .ended outcome } hget
    rw [hp] at hset
    exact hset
  have hrunner (p : Runner → Bool) :
      ((s.submissions.set i { sub with submitter := .ended outcome }).countP fun sub =>
        p sub.runner) = s.submissions.countP fun sub => p sub.runner := countP_set_same hget rfl
  have hcountRejected := hkind _ hrejected
  have hcountReturned := hkind _ hreturned
  have hflow : Accounts (s.endFlowIf endsFlow sub) ∧
      (s.endFlowIf endsFlow sub).submissions = s.submissions := by
    cases endsFlow <;> exact ⟨⟨hs.rejected, hs.submitted, hs.failed, hs.completed, hs.admitted,
      hs.counted, hs.consecutive⟩, rfl⟩
  generalize s.endFlowIf endsFlow sub = u at hflow
  obtain ⟨hu, hsubmissions⟩ := hflow
  rw [← hsubmissions] at hcountRejected hcountReturned hrunner
  obtain ⟨hrejections, hreturns⟩ := hu.counted
  have hlog (rejection kind : Bool) : (u.counted ++ [rejection]).count kind =
      u.counted.count kind + (rejection == kind).toNat := by
    rw [List.count_append, List.count_singleton]
    cases rejection == kind <;> rfl
  cases outcome with
  | returned =>
      refine ⟨hu.rejected.trans hcountRejected.symm,
        (congrArg (· + 1) hu.submitted).trans hcountReturned.symm, hu.failed.trans (hrunner _).symm,
        hu.completed.trans (hrunner _).symm, hu.admitted.trans (hrunner _).symm, ⟨?_, ?_⟩, ?_⟩
      · exact (hlog false true).trans hrejections
      · exact (hlog false false).trans (congrArg (· + 1) hreturns)
      · exact (streak_concat_of_neg rfl).symm
  | rejected retryAfter =>
      refine ⟨(congrArg (· + 1) hu.rejected).trans hcountRejected.symm,
        hu.submitted.trans hcountReturned.symm, hu.failed.trans (hrunner _).symm,
        hu.completed.trans (hrunner _).symm, hu.admitted.trans (hrunner _).symm, ⟨?_, ?_⟩, ?_⟩
      · exact (hlog true true).trans (congrArg (· + 1) hrejections)
      · exact (hlog true false).trans hreturns
      · exact (congrArg (· + 1) hu.consecutive).trans (streak_concat_of_pos rfl).symm
  | cancelled | raised error =>
      exact ⟨hu.rejected.trans hcountRejected.symm, hu.submitted.trans hcountReturned.symm,
        hu.failed.trans (hrunner _).symm, hu.completed.trans (hrunner _).symm,
        hu.admitted.trans (hrunner _).symm, hu.counted, hu.consecutive⟩

theorem Accounts.step {a : Action} (heffect : Effect b s a t) (hs : Accounts s) : Accounts t := by
  cases heffect with
  | submitted taskId operationName now =>
      refine ⟨?_, ?_, ?_, ?_, ?_, hs.counted, hs.consecutive⟩
      · rw [List.countP_append]; exact hs.rejected
      · rw [List.countP_append]; exact hs.submitted
      · rw [List.countP_append]; exact hs.failed
      · rw [List.countP_append]; exact hs.completed
      · rw [List.countP_append]; exact hs.admitted
  | stays => exact hs
  | moved a i sub sub' endsFlow calls breaker ha hget hmoves henters hreads hcancel =>
      exact hs.moved hget hmoves (henters.admits hmoves)
  | finished i sub n now result breaker hget hrunner hleave =>
      exact hs.finished hget hrunner ((leave_length hleave).trans (List.length_modify _ _ _))
  | ended a i sub outcome endsFlow now ha hget hends => exact hs.ended hget hends now

end Accounting

/-! ## How the parts of a submission go together -/

def RunnerEnd.beforeAdmission : RunnerEnd → Bool
  | .unstarted | .rejected _ | .abandoned => true
  | .finished _ => false

def Submitter.isOpen : Submitter → Bool
  | .waiting _ | .joining _ | .settling _ => true
  | .ended _ => false

/-- With an admission that was granted the runner is the breaker's, whatever its submitter
does since. -/
inductive Valid : Admission → Runner → Submitter → Prop where
  | queued (cancelRequested : Bool) : Valid .pending (.created cancelRequested) (.waiting false)
  | stuck : Valid .pending (.ended .unstarted) (.waiting false)
  | turnedAway (retryAfter : Rat) (cancelled : Bool) :
      Valid (.rejected retryAfter) (.ended (.rejected retryAfter)) (.waiting cancelled)
  | rejected (retryAfter : Rat) :
      Valid (.rejected retryAfter) (.ended (.rejected retryAfter)) (.ended (.rejected retryAfter))
  | leaving (cancelRequested : Bool) : Valid .cancelled (.created cancelRequested) (.waiting true)
  | leavingLate (how : RunnerEnd) (h : how.beforeAdmission = true) :
      Valid .cancelled (.ended how) (.waiting true)
  | joining (cancelled : Bool) : Valid .cancelled (.created true) (.joining cancelled)
  | joiningLate (how : RunnerEnd) (cancelled : Bool)
      (h : how.beforeAdmission = true) :
      Valid .cancelled (.ended how) (.joining cancelled)
  | left (how : RunnerEnd) (h : how.beforeAdmission = true) :
      Valid .cancelled (.ended how) (.ended .cancelled)
  | rejectedLate (retryAfter : Rat) :
      Valid .cancelled (.ended (.rejected retryAfter)) (.ended (.rejected retryAfter))
  | running (n : Nat) (submitter : Submitter)
      (h : ∀ outcome, submitter = .ended outcome → outcome = .returned ∨ outcome = .cancelled) :
      Valid .granted (.running n) submitter
  | finished (result : Except Exc BridgeEventData) (submitter : Submitter)
      (h : ∀ outcome, submitter = .ended outcome → outcome = .returned ∨ outcome = .cancelled ∨
        ∃ error, outcome = .raised error ∧ result = .error error) :
      Valid .granted (.ended (.finished result)) submitter

def Submission.Valid (sub : Submission) : Prop :=
  TaskAdmission.Valid sub.admission sub.runner sub.submitter

theorem Valid.running_open (n : Nat) {submitter : Submitter} (h : submitter.isOpen = true) :
    Valid .granted (.running n) submitter := by
  refine .running n submitter fun outcome hended => ?_
  rw [hended] at h
  cases h

theorem Valid.finished_open (result : Except Exc BridgeEventData) {submitter : Submitter}
    (h : submitter.isOpen = true) : Valid .granted (.ended (.finished result)) submitter := by
  refine .finished result submitter fun outcome hended => ?_
  rw [hended] at h
  cases h

section Parts
variable {b : CircuitBreaker} {s t : State} {i : Nat} {sub sub' : Submission}

theorem Moves.valid {endsFlow : Bool} (h : Moves sub sub' endsFlow) (hs : sub.Valid) :
    sub'.Valid := by
  obtain ⟨taskId, operationName, admission, runner, submitter⟩ := sub
  cases h with
  | unstarted h =>
      cases h
      cases hs with
      | queued => exact .stuck
      | leaving => exact .leavingLate _ rfl
      | joining cancelled => exact .joiningLate _ cancelled rfl
  | turnedAway retryAfter h hadmission =>
      cases h
      cases hadmission
      cases hs with
      | queued => exact .turnedAway retryAfter false
  | turnedAwayLate retryAfter h hadmission =>
      cases h
      cases hs with
      | queued => exact absurd rfl hadmission
      | leaving => exact .leavingLate _ rfl
  | abandoned h hadmission =>
      cases h
      cases hadmission
      cases hs with
      | leaving => exact .leavingLate _ rfl
  | admitted n h hadmission =>
      cases h
      cases hs with
      | queued => exact .running_open n rfl
      | leaving => exact absurd rfl hadmission
  | gaveUpEarly cancelRequested h hrunner =>
      cases h
      cases hrunner
      cases hs with
      | leaving => exact .joining false
  | gaveUp n h hrunner =>
      cases h
      cases hrunner
      cases hs with
      | running => exact .running_open n rfl
  | granted h hadmission =>
      cases h
      cases hadmission
      cases hs with
      | running n => exact .running_open n rfl
      | finished result => exact .finished_open result rfl
  | runnerCancelled cancelRequested h =>
      cases h
      cases hs with
      | queued => exact .queued true
      | leaving => exact .leaving true
      | joining cancelled => exact .joining cancelled
  | cancelled before h hadmission =>
      cases h
      cases hadmission
      cases hs with
      | queued cancelRequested => exact .leaving cancelRequested
      | stuck => exact .leavingLate _ rfl
  | cancelledLate before h hadmission =>
      cases h
      cases hs with
      | queued | stuck => exact absurd rfl hadmission
      | turnedAway retryAfter => exact .turnedAway retryAfter true
      | leaving cancelRequested => exact .leaving cancelRequested
      | leavingLate how hhow => exact .leavingLate how hhow
      | running n => exact .running_open n rfl
      | finished result => exact .finished_open result rfl
  | interrupted before how h hrunner =>
      cases h
      cases hrunner
      cases hs with
      | joiningLate _ _ hhow => exact .joiningLate how true hhow
      | finished result => exact .finished_open result rfl
  | unsettled before h =>
      cases h
      cases hs with
      | running n => exact .running_open n rfl
      | finished result => exact .finished_open result rfl

/-- A runner that was never admitted ends its submitter with a rejection or not at all. -/
theorem valid_joined {how : RunnerEnd} (h : how.beforeAdmission = true) :
    Valid .cancelled (.ended how) (.ended (joined how)) := by
  cases how with
  | unstarted | abandoned => exact .left _ h
  | rejected retryAfter => exact .rejectedLate retryAfter
  | finished result => cases h

theorem valid_joined_finished (result : Except Exc BridgeEventData) :
    Valid .granted (.ended (.finished result)) (.ended (joined (.finished result))) := by
  refine .finished result _ fun outcome houtcome => ?_
  cases houtcome
  cases result with
  | ok data => exact .inr (.inl rfl)
  | error e =>
      cases e with
      | cancelled => exact .inr (.inl rfl)
      | client | sse | unicodeDecodeError | transport | sdk | other | fatal =>
          exact .inr (.inr ⟨_, rfl, rfl⟩)

theorem Ends.valid {outcome : Outcome} {endsFlow : Bool} (h : Ends sub outcome endsFlow)
    (hs : sub.Valid) : Submission.Valid { sub with submitter := .ended outcome } := by
  obtain ⟨taskId, operationName, admission, runner, submitter⟩ := sub
  cases h with
  | gaveUp how h hrunner =>
      cases h
      cases hrunner
      cases hs with
      | turnedAway retryAfter => exact .rejected retryAfter
      | leavingLate _ hhow => exact valid_joined hhow
      | finished result => exact valid_joined_finished result
  | turnedAway retryAfter h hadmission =>
      cases h
      cases hadmission
      cases hs with
      | turnedAway => exact .rejected retryAfter
  | joined how h hrunner =>
      cases h
      cases hrunner
      cases hs with
      | joiningLate _ _ hhow => exact valid_joined hhow
      | finished result => exact valid_joined_finished result
  | interrupted how h hrunner =>
      cases h
      cases hrunner
      cases hs with
      | joiningLate _ _ hhow => exact .left how hhow
      | finished result => exact .finished result _ fun _ h => by cases h; exact .inr (.inl rfl)
  | returned h =>
      cases h
      cases hs with
      | running n => exact .running n _ fun _ h => by cases h; exact .inl rfl
      | finished result => exact .finished result _ fun _ h => by cases h; exact .inl rfl
  | unsettled h =>
      cases h
      cases hs with
      | running n => exact .running n _ fun _ h => by cases h; exact .inr rfl
      | finished result => exact .finished result _ fun _ h => by cases h; exact .inr (.inl rfl)

theorem valid_submitted (taskId operationName : Text) :
    Submission.Valid { taskId, operationName } := .queued false

theorem finished_valid {n : Nat} (result : Except Exc BridgeEventData) (hs : sub.Valid)
    (hrunner : sub.runner = .running n) :
    Submission.Valid { sub with runner := .ended (.finished result) } := by
  obtain ⟨taskId, operationName, admission, runner, submitter⟩ := sub
  cases hrunner
  cases hs with
  | running _ _ h =>
      exact .finished result _ fun outcome hended => (h outcome hended).imp_right .inl

theorem Effect.valid {a : Action} (heffect : Effect b s a t)
    (hs : ∀ sub ∈ s.submissions, sub.Valid) : ∀ sub ∈ t.submissions, sub.Valid := by
  cases heffect with
  | submitted taskId operationName now =>
      refine List.forall_mem_append.mpr ⟨hs, List.forall_mem_singleton.mpr ?_⟩
      exact valid_submitted taskId operationName
  | stays => exact hs
  | moved a i sub sub' endsFlow calls breaker ha hget hmoves henters hreads hcancel =>
      have hflow : (s.endFlowIf endsFlow sub).submissions = s.submissions := by
        cases endsFlow <;> rfl
      rw [State.put, hflow]
      exact forall_mem_set hs (hmoves.valid (hs sub (List.mem_of_getElem? hget)))
  | finished i sub n now result breaker hget hrunner hleave =>
      exact forall_mem_set hs (finished_valid result (hs sub (List.mem_of_getElem? hget)) hrunner)
  | ended a i sub outcome endsFlow now ha hget hends =>
      have hsubmissions : ((s.endFlowIf endsFlow sub).conclude i sub outcome now).submissions =
          s.submissions.set i { sub with submitter := .ended outcome } := by
        cases endsFlow <;> cases outcome <;> rfl
      rw [hsubmissions]
      exact forall_mem_set hs (hends.valid (hs sub (List.mem_of_getElem? hget)))

end Parts

/-! ## The bodies of the breaker -/

section Bodies
variable {b : CircuitBreaker} {s t : State} {i : Nat} {sub sub' : Submission}
variable {system left : Breaker.System} {n m : Nat} {now : Rat}

theorem running_enter
    (hgrows : (Breaker.enter b now system).bodies.length = system.bodies.length + 1) :
    (∀ m, (Breaker.running m system).isSome = true →
      (Breaker.running m (Breaker.enter b now system)).isSome = true) ∧
      (Breaker.running system.bodies.length (Breaker.enter b now system)).isSome = true := by
  rw [Breaker.enter] at hgrows ⊢
  split at hgrows
  · next breaker attempt hadmit =>
      refine ⟨fun m hm => ?_, ?_⟩
      · obtain ⟨body, hbody⟩ := Option.isSome_iff_exists.mp hm
        obtain ⟨hget, hrunning⟩ := Breaker.running_eq_some.mp hbody
        have hlt := (List.getElem?_eq_some_iff.mp hget).1
        simp [Breaker.running, List.getElem?_append_left hlt, hget, Option.filter, hrunning]
      · rw [Breaker.running, List.getElem?_concat_length]
        rfl
  · exact absurd hgrows.symm (Nat.succ_ne_self _)

theorem running_leave {result : Except Exc Unit}
    (h : Breaker.step b system (.leave n now result) = some left) (hm : m ≠ n) :
    Breaker.running m left = Breaker.running m system := by
  obtain ⟨body, -, rfl⟩ := Option.map_eq_some_iff.mp h
  exact congrArg (Option.filter fun body : Breaker.Body => body.running)
    (List.getElem?_modify_ne _ system.bodies hm.symm)

theorem running_mark (f : Breaker.Attempt → Breaker.Attempt) (n m : Nat) :
    (Breaker.running m (Breaker.mark f n system)).isSome = (Breaker.running m system).isSome := by
  rw [Breaker.running, Breaker.running, Breaker.mark, List.getElem?_modify]
  cases hget : system.bodies[m]? with
  | none => rfl
  | some body =>
      by_cases hn : n = m
      · cases hrunning : body.running <;> simp [hn, Option.filter, hrunning]
      · simp [hn]

theorem running_lt (h : (Breaker.running m system).isSome = true) : m < system.bodies.length := by
  obtain ⟨body, hbody⟩ := Option.isSome_iff_exists.mp h
  exact (List.getElem?_eq_some_iff.mp (Breaker.running_eq_some.mp hbody).1).1

/-- A running runner has a body of its own that runs. -/
structure Bodies (s : State) : Prop where
  running : ∀ (i : Nat) (sub : Submission) (n : Nat), s.submissions[i]? = some sub →
    sub.runner = .running n → (Breaker.running n s.breaker).isSome = true
  alone : ∀ (i j : Nat) (sub sub' : Submission) (n : Nat), s.submissions[i]? = some sub →
    s.submissions[j]? = some sub' → sub.runner = .running n → sub'.runner = .running n → i = j

theorem Bodies.update (hs : Bodies s) (hsubmissions : t.submissions = s.submissions.set i sub')
    (hkeeps : ∀ (j : Nat) (other : Submission) (m : Nat), j ≠ i → s.submissions[j]? = some other →
      other.runner = .running m → (Breaker.running m t.breaker).isSome = true)
    (hnew : ∀ m, sub'.runner = .running m → (Breaker.running m t.breaker).isSome = true ∧
      ∀ (j : Nat) (other : Submission), j ≠ i → s.submissions[j]? = some other →
        other.runner ≠ .running m) : Bodies t := by
  constructor
  · intro j other m hget hrunner
    rw [hsubmissions] at hget
    cases getElem?_set_eq_some hget with
    | inl hself => exact (hnew m (hself.2 ▸ hrunner)).1
    | inr hother => exact hkeeps j other m hother.1 hother.2 hrunner
  · intro j k other other' m hj hk hrunner hrunner'
    rw [hsubmissions] at hj hk
    cases getElem?_set_eq_some hj with
    | inl hself =>
        obtain ⟨rfl, rfl⟩ := hself
        cases getElem?_set_eq_some hk with
        | inl hself' => exact hself'.1.symm
        | inr hother' => exact absurd hrunner' ((hnew m hrunner).2 k other' hother'.1 hother'.2)
    | inr hother =>
        cases getElem?_set_eq_some hk with
        | inl hself' =>
            obtain ⟨rfl, rfl⟩ := hself'
            exact absurd hrunner ((hnew m hrunner').2 j other hother.1 hother.2)
        | inr hother' => exact hs.alone j k other other' m hother.2 hother'.2 hrunner hrunner'

/-- The runner goes on with the body it has. -/
theorem Bodies.same (hs : Bodies s) (hget : s.submissions[i]? = some sub)
    (hsubmissions : t.submissions = s.submissions.set i sub') (hbreaker : t.breaker = s.breaker)
    (hrunning : ∀ n, sub'.runner = .running n → sub.runner = .running n) : Bodies t := by
  refine hs.update hsubmissions (fun j other m _ hother hrunner => ?_) fun m hrunner => ⟨?_, ?_⟩
  · rw [hbreaker]
    exact hs.running j other m hother hrunner
  · rw [hbreaker]
    exact hs.running i sub m hget (hrunning m hrunner)
  · intro j other hj hother hrunner'
    exact hj (hs.alone j i other sub m hother hget hrunner' (hrunning m hrunner))

theorem Bodies.enters {calls : List Breaker.Action} {breaker : Breaker.System} (hs : Bodies s)
    (hget : s.submissions[i]? = some sub) (hsubmissions : t.submissions = s.submissions.set i sub')
    (hbreaker : t.breaker = breaker) (h : Enters b s.breaker sub sub' calls breaker) :
    Bodies t := by
  cases h with
  | stays hrunning => exact hs.same hget hsubmissions hbreaker hrunning
  | admitted now hgrows h =>
      obtain ⟨hold, hnew⟩ := running_enter hgrows
      refine hs.update hsubmissions (fun j other m _ hother hrunner => ?_) fun m hrunner => ?_
      · rw [hbreaker]
        exact hold m (hs.running j other m hother hrunner)
      · cases h.symm.trans hrunner
        refine ⟨by rw [hbreaker]; exact hnew, fun j other _ hother hrunner' => ?_⟩
        exact Nat.lt_irrefl _ (running_lt (hs.running j other _ hother hrunner'))
  | abandoned now later left hgrows h hbefore hleave =>
      obtain ⟨hold, -⟩ := running_enter hgrows
      refine hs.update hsubmissions (fun j other m _ hother hrunner => ?_) fun m hrunner => ?_
      · have hrunning := hs.running j other m hother hrunner
        rw [hbreaker, running_leave hleave (Nat.ne_of_lt (running_lt hrunning))]
        exact hold m hrunning
      · exact nomatch h.symm.trans hrunner

theorem Effect.bodies {a : Action} (heffect : Effect b s a t) (hs : Bodies s) : Bodies t := by
  cases heffect with
  | submitted taskId operationName now =>
      constructor
      · intro j other m hget hrunner
        cases getElem?_concat_eq_some hget with
        | inl hold => exact hs.running j other m hold hrunner
        | inr hnew => rw [hnew.2] at hrunner; cases hrunner
      · intro j k other other' m hj hk hrunner hrunner'
        cases getElem?_concat_eq_some hj with
        | inl hold =>
            cases getElem?_concat_eq_some hk with
            | inl hold' => exact hs.alone j k other other' m hold hold' hrunner hrunner'
            | inr hnew => rw [hnew.2] at hrunner'; cases hrunner'
        | inr hnew => rw [hnew.2] at hrunner; cases hrunner
  | stays => exact hs
  | moved a i sub sub' endsFlow calls breaker ha hget hmoves henters hreads hcancel =>
      refine hs.enters hget ?_ rfl henters
      cases endsFlow <;> rfl
  | finished i sub n now result breaker hget hrunner hleave =>
      refine hs.update rfl (fun j other m hj hother hrunner' => ?_) nofun
      have hne : m ≠ n := by
        rintro rfl
        exact hj (hs.alone j i other sub m hother hget hrunner' hrunner)
      exact (congrArg Option.isSome (running_leave hleave hne)).trans
        ((running_mark _ n m).trans (hs.running j other m hother hrunner'))
  | ended a i sub outcome endsFlow now ha hget hends =>
      refine hs.same hget
        (?_ : _ = s.submissions.set i { sub with submitter := .ended outcome }) ?_ fun _ => id
      · cases endsFlow <;> cases outcome <;> rfl
      · cases endsFlow <;> cases outcome <;> rfl

end Bodies

/-! ## The breaker -/

section BreakerTrace
variable {b : CircuitBreaker} {s t : State} {past : List Action}

/-- The marks that a result makes are those of one method, or none. -/
theorem mark_classify (result : Except Exc BridgeEventData) :
    (∀ attempt, classify attempt result = attempt) ∨
      (∀ attempt, classify attempt result = attempt.fail) ∨
      ∀ attempt, classify attempt result = attempt.ignore := by
  cases result with
  | ok data =>
      cases data with
      | taskError data =>
          by_cases h : data.retryable = some true
          · exact .inr (.inl fun _ => by simp [classify, h])
          · exact .inr (.inr fun _ => by simp [classify, h])
      | taskStopped => exact .inr (.inr fun _ => rfl)
      | contentDelta | contentReset | toolUse | taskCompleted => exact .inl fun _ => rfl
  | error e =>
      cases e with
      | cancelled => exact .inl fun _ => rfl
      | sdk error =>
          by_cases hkind : error.kind = .connectionError
          · cases hproblem : error.problemDetails with
            | none => exact .inl fun _ => by simp [classify, hkind, hproblem]
            | some problem =>
                by_cases hretry : problem.retryable = some false
                · exact .inr (.inr fun _ => by simp [classify, hkind, hproblem, hretry])
                · exact .inl fun _ => by simp [classify, hkind, hproblem, hretry]
          · exact .inr (.inr fun _ => by simp [classify, hkind])
      | client | sse | unicodeDecodeError | transport | other | fatal =>
          exact .inr (.inr fun _ => rfl)

theorem mark_run {system : Breaker.System} {n : Nat} (result : Except Exc BridgeEventData)
    (hrunning : (Breaker.running n system).isSome = true) :
    ∃ calls, Run (Breaker.step b) system calls
        (Breaker.mark (fun attempt => classify attempt result) n system) ∧
      Breaker.readings calls = [] := by
  have hmark (f : Breaker.Attempt → Breaker.Attempt)
      (hf : ∀ attempt, classify attempt result = f attempt) :
      Breaker.mark (fun attempt => classify attempt result) n system =
        Breaker.mark f n system := by rw [funext hf]
  obtain ⟨body, hbody⟩ := Option.isSome_iff_exists.mp hrunning
  rcases mark_classify result with hnone | hfail | hignore
  · refine ⟨[], ?_, rfl⟩
    rw [hmark id hnone]
    have hsame : Breaker.mark id n system = system := by
      rw [Breaker.mark, show (fun body : Breaker.Body => { body with attempt := id body.attempt }) =
        id from rfl, List.modify_id]
    rw [hsame]
    exact .nil
  · refine ⟨[.fail n], .single ?_, rfl⟩
    rw [hmark _ hfail, Breaker.step, hbody, Option.map_some]
  · refine ⟨[.ignore n], .single ?_, rfl⟩
    rw [hmark _ hignore, Breaker.step, hbody, Option.map_some]

theorem Effect.breaker {a : Action} (heffect : Effect b s a t) (hs : Bodies s) :
    ∃ calls, Run (Breaker.step b) s.breaker calls t.breaker ∧
      (Breaker.readings calls).Sublist a.readings := by
  cases heffect with
  | submitted | stays => exact ⟨[], .nil, List.nil_sublist _⟩
  | moved a i sub sub' endsFlow calls breaker ha hget hmoves henters hreads hcancel =>
      refine ⟨calls, ?_, hreads⟩
      cases henters with
      | stays => exact .nil
      | admitted => exact .single rfl
      | abandoned now later left hgrows h hbefore hleave =>
          exact (Run.single (a := .enter now) rfl).append (.single hleave)
  | finished i sub n now result breaker hget hrunner hleave =>
      obtain ⟨calls, hcalls, hreads⟩ := mark_run (b := b) result (hs.running i sub n hget hrunner)
      refine ⟨calls ++ [.leave n now (result.map fun _ => ())], hcalls.append (.single hleave), ?_⟩
      rw [Breaker.readings, List.filterMap_append,
        show calls.filterMap Breaker.Action.reading = [] from hreads]
      exact List.Sublist.refl _
  | ended a i sub outcome endsFlow now ha hget hends =>
      refine ⟨[], ?_, List.nil_sublist _⟩
      have hbreaker : ((s.endFlowIf endsFlow sub).conclude i sub outcome now).breaker =
          s.breaker := by
        cases endsFlow <;> cases outcome <;> rfl
      rw [hbreaker]
      exact .nil

theorem bodies_init : Bodies {} where
  running _ _ _ hget := by cases hget
  alone _ _ _ _ _ hget := by cases hget

theorem bodies_of_run (h : Run (step b) {} past s) : Bodies s :=
  h.invariant (I := fun _ s => Bodies s) bodies_init
    fun _ _ _ _ hs hstep => (step_effect hstep).bodies hs

theorem valid_of_run (h : Run (step b) {} past s) : ∀ sub ∈ s.submissions, sub.Valid :=
  h.invariant (I := fun _ s => ∀ sub ∈ s.submissions, sub.Valid)
    (fun _ hmem => (List.not_mem_nil hmem).elim)
    fun _ _ _ _ hs hstep => (step_effect hstep).valid hs

theorem accounts_of_run (h : Run (step b) {} past s) : Accounts s :=
  h.invariant (I := fun _ s => Accounts s) accounts_init
    fun _ _ _ _ hs hstep => hs.step (step_effect hstep)

/-- The breaker of a run is that of a run of its own, which reads the clock as often. -/
theorem breaker_of_run (h : Run (step b) {} past s) :
    ∃ calls, Run (Breaker.step b) {} calls s.breaker ∧
      (Breaker.readings calls).Sublist (past.flatMap Action.readings) := by
  refine h.invariant_of (I := fun _ s => Bodies s)
    (J := fun past s => ∃ calls, Run (Breaker.step b) {} calls s.breaker ∧
      (Breaker.readings calls).Sublist (past.flatMap Action.readings))
    (fun _ _ hrun => bodies_of_run hrun) ⟨[], .nil, List.nil_sublist _⟩ ?_
  intro past s a t hbodies hs hstep
  obtain ⟨calls, hcalls, hreads⟩ := hs
  obtain ⟨more, hmore, hreads'⟩ := (step_effect hstep).breaker hbodies
  refine ⟨calls ++ more, hcalls.append hmore, ?_⟩
  rw [Breaker.readings, List.filterMap_append, List.flatMap_append]
  refine hreads.append ?_
  rw [List.flatMap_cons, List.flatMap_nil, List.append_nil]
  exact hreads'

end BreakerTrace

/-! ## Flows -/

/-- Its flow has started and not ended. -/
def Submitter.flows : Submitter → Bool
  | .waiting _ | .joining _ => true
  | .settling _ | .ended _ => false

/-- Each key of the timing cache is that of a flow that goes on. -/
def Flowing (s : State) : Prop :=
  ∀ key ∈ s.timingCache.map Prod.fst,
    ∃ sub ∈ s.submissions, sub.submitter.flows = true ∧ sub.cacheKey = key

section Flows
variable {b : CircuitBreaker} {s t : State} {i : Nat} {sub sub' : Submission}

theorem Flowing.update (hs : Flowing s) (hget : s.submissions[i]? = some sub)
    (hsubmissions : t.submissions = s.submissions.set i sub')
    (hcache : ∀ key ∈ t.timingCache.map Prod.fst, key ∈ s.timingCache.map Prod.fst ∧
      (key = sub.cacheKey → sub'.submitter.flows = sub.submitter.flows ∧
        sub'.cacheKey = sub.cacheKey)) : Flowing t := by
  intro key hkey
  obtain ⟨hmem, hself⟩ := hcache key hkey
  obtain ⟨other, hother, hflows, rfl⟩ := hs key hmem
  obtain ⟨j, hj⟩ := List.mem_iff_getElem?.mp hother
  rw [hsubmissions]
  by_cases hji : j = i
  · subst hji
    cases hget.symm.trans hj
    obtain ⟨hsame, hkeys⟩ := hself rfl
    refine ⟨sub', List.mem_iff_getElem?.mpr ⟨j, ?_⟩, hsame.trans hflows, hkeys⟩
    exact List.getElem?_set_self (List.getElem?_eq_some_iff.mp hj).1
  · exact ⟨other, List.mem_iff_getElem?.mpr ⟨j, (List.getElem?_set_ne (Ne.symm hji)).trans hj⟩,
      hflows, rfl⟩

theorem mem_keys_endFlow {key : Text} (h : key ∈ (s.endFlow sub).timingCache.map Prod.fst) :
    key ∈ s.timingCache.map Prod.fst ∧ key ≠ sub.cacheKey := by
  obtain ⟨entry, hmem, rfl⟩ := List.mem_map.mp h
  obtain ⟨hold, hne⟩ := List.mem_filter.mp hmem
  exact ⟨List.mem_map_of_mem hold, by simpa using hne⟩

theorem Moves.flows (h : Moves sub sub' false) :
    sub'.submitter.flows = sub.submitter.flows ∧ sub'.cacheKey = sub.cacheKey := by
  cases h with
  | unstarted | turnedAway | turnedAwayLate | abandoned | admitted | runnerCancelled =>
      exact ⟨rfl, rfl⟩
  | gaveUpEarly _ h | gaveUp _ h | cancelled _ h | cancelledLate _ h | interrupted _ _ h
  | unsettled _ h => exact ⟨by rw [h]; rfl, rfl⟩

theorem Ends.flows {outcome : Outcome} (h : Ends sub outcome false) :
    sub.submitter.flows = false := by
  cases h with
  | returned h | unsettled h => rw [h]; rfl

theorem Effect.flowing {a : Action} (heffect : Effect b s a t) (hs : Flowing s) : Flowing t := by
  cases heffect with
  | submitted taskId operationName now =>
      intro key hkey
      have hcases : key = taskId ++ ":".toList ++ operationName ∨
          key ∈ s.timingCache.map Prod.fst := by
        obtain ⟨⟨k, v⟩, hmem, rfl⟩ := List.mem_map.mp hkey
        exact (Dict.mem_put hmem).imp And.left fun hold => List.mem_map_of_mem hold.2
      cases hcases with
      | inl hnew =>
          exact ⟨_, List.mem_append_right _ (List.mem_singleton_self _), rfl, hnew.symm⟩
      | inr hold =>
          obtain ⟨sub, hmem, hflows⟩ := hs key hold
          exact ⟨sub, List.mem_append_left _ hmem, hflows⟩
  | stays => exact hs
  | moved a i sub sub' endsFlow calls breaker ha hget hmoves henters hreads hcancel =>
      cases endsFlow with
      | false => exact hs.update hget rfl fun key hkey => ⟨hkey, fun _ => hmoves.flows⟩
      | true =>
          refine hs.update hget rfl fun key hkey => ?_
          obtain ⟨hold, hne⟩ := mem_keys_endFlow hkey
          exact ⟨hold, fun heq => absurd heq hne⟩
  | finished i sub n now result breaker hget hrunner hleave =>
      exact hs.update hget rfl fun key hkey => ⟨hkey, fun _ => ⟨rfl, rfl⟩⟩
  | ended a i sub outcome endsFlow now ha hget hends =>
      cases endsFlow with
      | false =>
          refine hs.update hget
            (?_ : _ = s.submissions.set i { sub with submitter := .ended outcome })
            fun key hkey => ?_
          · cases outcome <;> rfl
          · refine ⟨by cases outcome <;> exact hkey, fun _ => ⟨hends.flows.symm, rfl⟩⟩
      | true =>
          refine hs.update hget
            (?_ : _ = s.submissions.set i { sub with submitter := .ended outcome })
            fun key hkey => ?_
          · cases outcome <;> rfl
          · have hkeys : key ∈ (s.endFlow sub).timingCache.map Prod.fst := by
              cases outcome <;> exact hkey
            obtain ⟨hold, hne⟩ := mem_keys_endFlow hkeys
            exact ⟨hold, fun heq => absurd heq hne⟩

theorem flowing_of_run {past : List Action} (h : Run (step b) {} past s) : Flowing s :=
  h.invariant (I := fun _ s => Flowing s) (fun _ hmem => (List.not_mem_nil hmem).elim)
    fun _ _ _ _ hs hstep => (step_effect hstep).flowing hs

end Flows

/-! ## Who can go on -/

/-- The submitter waits for an admission that its runner, cancelled before its first step,
never gives. -/
def Submission.Stuck (sub : Submission) : Prop :=
  sub.submitter = .waiting false ∧ sub.admission = .pending ∧ sub.runner = .ended .unstarted

/-- A step of the runner or the submitter themselves. -/
def Action.isOwn : Action → Bool
  | .start _ _ _ | .finish _ _ _ | .wake _ _ | .join _ _ | .settle _ _ => true
  | .submit _ _ _ | .cancelRunner _ | .cancelSubmitter _ => false

section Progress
variable {b : CircuitBreaker} {s t : State} {i : Nat} {sub : Submission}

theorem start_isSome (hget : s.submissions[i]? = some sub) {cancelRequested : Bool}
    (hrunner : sub.runner = .created cancelRequested) :
    (step b s (.start i 0 0)).isSome = true := by
  rw [step, hget, Option.bind_some, start, hrunner]
  cases cancelRequested with
  | true => rfl
  | false =>
      simp only
      split
      · rfl
      · next admitted hadmit =>
          obtain ⟨breaker, attempt⟩ := admitted
          split
          · obtain ⟨body, hbody⟩ :=
              Option.isSome_iff_exists.mp (running_enter (enter_of_ok hadmit)).2
            simp [Breaker.step, hbody]
          · rfl

theorem finish_isSome (hbodies : Bodies s) (hget : s.submissions[i]? = some sub) {n : Nat}
    (hrunner : sub.runner = .running n) :
    (step b s (.finish i 0 (.error .cancelled))).isSome = true := by
  have hrunning := (running_mark (fun attempt => classify attempt (.error .cancelled)) n n).trans
    (hbodies.running i sub n hget hrunner)
  obtain ⟨body, hbody⟩ := Option.isSome_iff_exists.mp hrunning
  rw [step, hget, Option.bind_some, finish, hrunner]
  simp [Breaker.step, hbody]

theorem stuck_step {a : Action} (hget : s.submissions[i]? = some sub) (hstuck : sub.Stuck)
    (ha : a.submission = some i) (hne : a ≠ .cancelSubmitter i) : step b s a = none := by
  obtain ⟨hsubmitter, hadmission, hrunner⟩ := hstuck
  cases a with
  | submit => cases ha
  | start | finish | wake | join | settle | cancelRunner =>
      cases ha
      simp [step, hget, start, finish, wake, join, settle, cancelRunner, hsubmitter, hadmission,
        hrunner]
  | cancelSubmitter => cases ha; exact absurd rfl hne

theorem own_of_valid (hbodies : Bodies s) (hget : s.submissions[i]? = some sub)
    (hvalid : sub.Valid) (hopen : sub.submitter.isOpen = true) (hstuck : ¬ sub.Stuck) :
    ∃ a : Action, a.isOwn = true ∧ a.submission = some i ∧ (step b s a).isSome = true := by
  have hstart {cancelRequested : Bool} (hrunner : sub.runner = .created cancelRequested) :
      ∃ a : Action, a.isOwn = true ∧ a.submission = some i ∧ (step b s a).isSome = true :=
    ⟨_, rfl, rfl, start_isSome hget hrunner⟩
  have hfinish {n : Nat} (hrunner : sub.runner = .running n) :
      ∃ a : Action, a.isOwn = true ∧ a.submission = some i ∧ (step b s a).isSome = true :=
    ⟨_, rfl, rfl, finish_isSome hbodies hget hrunner⟩
  have hwake (h : (wake i sub 0 s).isSome = true) :
      ∃ a : Action, a.isOwn = true ∧ a.submission = some i ∧ (step b s a).isSome = true :=
    ⟨.wake i 0, rfl, rfl, by rw [step, hget]; exact h⟩
  have hjoin (h : (join i sub 0 s).isSome = true) :
      ∃ a : Action, a.isOwn = true ∧ a.submission = some i ∧ (step b s a).isSome = true :=
    ⟨.join i 0, rfl, rfl, by rw [step, hget]; exact h⟩
  obtain ⟨taskId, operationName, admission, runner, submitter⟩ := sub
  cases hvalid with
  | queued | leaving | joining => exact hstart rfl
  | stuck => exact absurd ⟨rfl, rfl, rfl⟩ hstuck
  | turnedAway retryAfter cancelled => cases cancelled <;> exact hwake rfl
  | leavingLate => exact hwake rfl
  | joiningLate => exact hjoin rfl
  | running n => exact hfinish rfl
  | finished result =>
      cases submitter with
      | waiting cancelled => cases cancelled <;> exact hwake rfl
      | joining => exact hjoin rfl
      | settling => exact ⟨.settle i 0, rfl, rfl, by rw [step, hget]; rfl⟩
      | ended => cases hopen
  | rejected | left | rejectedLate => cases hopen

theorem submissions_kept {a : Action} (heffect : Effect b s a t) (ha : a.submission ≠ some i)
    (hget : s.submissions[i]? = some sub) : t.submissions[i]? = some sub := by
  have hset {j : Nat} (hj : a.submission = some j) (other : Submission) :
      (s.submissions.set j other)[i]? = some sub := by
    rw [List.getElem?_set_ne, hget]
    rintro rfl
    exact ha hj
  cases heffect with
  | submitted =>
      exact (List.getElem?_append_left (List.getElem?_eq_some_iff.mp hget).1).trans hget
  | stays => exact hget
  | moved a j other other' endsFlow calls breaker hj =>
      cases endsFlow <;> exact hset hj other'
  | finished j other n now result breaker => exact hset rfl _
  | ended a j other outcome endsFlow now hj =>
      cases endsFlow <;> cases outcome <;> exact hset hj _

theorem stuck_of_run {more : List Action} (hget : s.submissions[i]? = some sub)
    (hstuck : sub.Stuck) (hrun : Run (step b) s more t) (hmore : .cancelSubmitter i ∉ more) :
    t.submissions[i]? = some sub := by
  induction hrun with
  | nil => exact hget
  | @snoc past u v a _ hstep ih =>
      have hbefore := ih fun hmem => hmore (List.mem_append_left _ hmem)
      have hne : a ≠ .cancelSubmitter i := by
        rintro rfl
        exact hmore (List.mem_append_right _ (List.mem_singleton_self _))
      by_cases ha : a.submission = some i
      · rw [stuck_step hbefore hstuck ha hne] at hstep
        cases hstep
      · exact submissions_kept (step_effect hstep) ha hbefore

/-- Nobody cancels a runner before its first step, but its own submitter. -/
def spares (s : State) : Action → Bool
  | .cancelRunner i => (s.submissions[i]?).all fun sub => !sub.runner.isCreated
  | _ => true

/-- No runner is about to be lost. -/
def Submission.Safe (sub : Submission) : Prop :=
  (sub.runner = .created true → sub.submitter ≠ .waiting false) ∧ ¬ sub.Stuck

theorem safe_of_submitter (h : sub.submitter ≠ .waiting false) : sub.Safe :=
  ⟨fun _ => h, fun hstuck => h hstuck.1⟩

theorem safe_of_runner (h : sub.runner ≠ .created true) (hended : sub.runner ≠ .ended .unstarted) :
    sub.Safe :=
  ⟨fun hrunner => absurd hrunner h, fun hstuck => hended hstuck.2.2⟩

theorem Moves.safe {sub' : Submission} {endsFlow : Bool} (h : Moves sub sub' endsFlow)
    (hs : sub.Safe) (hcancel : sub'.runner = .created true → sub'.submitter ≠ .waiting false) :
    sub'.Safe := by
  refine ⟨hcancel, fun hstuck => ?_⟩
  obtain ⟨hsubmitter, hadmission, hrunner⟩ := hstuck
  cases h with
  | unstarted h => exact hs.1 h hsubmitter
  | cancelled | cancelledLate | gaveUp | granted | interrupted | unsettled => cases hsubmitter
  | turnedAway | turnedAwayLate | abandoned | admitted | gaveUpEarly | runnerCancelled =>
      cases hrunner

theorem Effect.safe {a : Action} (heffect : Effect b s a t) (hspares : spares s a = true)
    (hs : ∀ sub ∈ s.submissions, sub.Safe) : ∀ sub ∈ t.submissions, sub.Safe := by
  cases heffect with
  | submitted taskId operationName now =>
      exact List.forall_mem_append.mpr
        ⟨hs, List.forall_mem_singleton.mpr (safe_of_runner (by simp) (by simp))⟩
  | stays => exact hs
  | moved a i sub sub' endsFlow calls breaker ha hget hmoves henters hreads hcancel =>
      have hsafe : sub'.Safe := by
        refine hmoves.safe (hs sub (List.mem_of_getElem? hget)) fun hrunner hwaiting => ?_
        obtain ⟨rfl, hcreated⟩ := hcancel hrunner hwaiting
        simp [spares, hget, hcreated] at hspares
      cases endsFlow <;> exact forall_mem_set hs hsafe
  | finished i sub n now result breaker hget hrunner hleave =>
      exact forall_mem_set hs (safe_of_runner (by simp) (by simp))
  | ended a i sub outcome endsFlow now ha hget hends =>
      have hsafe : Submission.Safe { sub with submitter := .ended outcome } :=
        safe_of_submitter (by simp)
      cases endsFlow <;> cases outcome <;> exact forall_mem_set hs hsafe

theorem safe_of_run {past : List Action} (h : Run (restrict spares (step b)) {} past s) :
    ∀ sub ∈ s.submissions, sub.Safe := by
  refine h.invariant (I := fun _ s => ∀ sub ∈ s.submissions, sub.Safe)
    (fun _ hmem => (List.not_mem_nil hmem).elim) fun _ _ _ _ hs hstep => ?_
  obtain ⟨hspares, hstep⟩ := restrict_eq_some.mp hstep
  exact (step_effect hstep).safe hspares hs

end Progress

/-! ## How a submission ends -/

section Endings
variable {b : CircuitBreaker} {s t : State} {i : Nat} {sub sub' : Submission}

def Runner.stepsLeft : Runner → Nat
  | .created _ => 2
  | .running _ => 1
  | .ended _ => 0

def Submitter.stepsLeft : Submitter → Nat
  | .waiting _ => 2
  | .joining _ | .settling _ => 1
  | .ended _ => 0

/-- The own steps of a submission are at most these. -/
def Submission.stepsLeft (sub : Submission) : Nat :=
  sub.runner.stepsLeft + sub.submitter.stepsLeft

/-- A step of a submission's own brings it closer to its end. -/
def Closer (i : Nat) (sub : Submission) (t : State) : Prop :=
  ∃ sub', t.submissions[i]? = some sub' ∧ sub'.stepsLeft < sub.stepsLeft ∧
    (sub.Safe → sub'.Safe)

theorem closer_of_set (hget : s.submissions[i]? = some sub)
    (hsubmissions : t.submissions = s.submissions.set i sub')
    (hleft : sub'.stepsLeft < sub.stepsLeft) (hsafe : sub.Safe → sub'.Safe) : Closer i sub t := by
  refine ⟨sub', ?_, hleft, hsafe⟩
  rw [hsubmissions]
  exact List.getElem?_set_self (List.getElem?_eq_some_iff.mp hget).1

theorem start_closer {now later : Rat} (hget : s.submissions[i]? = some sub)
    (h : start b i sub now later s = some t) : Closer i sub t := by
  rw [start] at h
  split at h
  · next hrunner =>
      cases h
      refine closer_of_set hget rfl ?_ fun hsafe => ?_
      · simp [Submission.stepsLeft, Runner.stepsLeft, hrunner]
      · refine ⟨fun hcreated => ?_, fun hstuck => hsafe.1 hrunner hstuck.1⟩
        cases hcreated
  · next hrunner =>
      have hcloser {u : State} {runner : Runner} {admission : Admission}
          (hsubmissions : u.submissions = s.submissions.set i { sub with runner, admission })
          (hless : runner.stepsLeft < 2) (hstarted : runner ≠ .ended .unstarted) :
          Closer i sub u := by
        refine closer_of_set hget hsubmissions ?_ fun _ => safe_of_runner ?_ hstarted
        · simpa [Submission.stepsLeft, hrunner, Runner.stepsLeft] using hless
        · rintro rfl
          exact Nat.lt_irrefl 2 hless
      split at h
      · cases h
        exact hcloser rfl (by simp [Runner.stepsLeft]) (by simp)
      · split at h
        · obtain ⟨breaker, -, hret⟩ := Option.bind_eq_some_iff.mp h
          cases hret
          exact hcloser rfl (by simp [Runner.stepsLeft]) (by simp)
        · cases h
          exact hcloser rfl (by simp [Runner.stepsLeft]) (by simp)
  · cases h
  · cases h

theorem finish_closer {now : Rat} {result : Except Exc BridgeEventData}
    (hget : s.submissions[i]? = some sub) (h : finish b i sub now result s = some t) :
    Closer i sub t := by
  rw [finish] at h
  split at h
  · next n hrunner =>
      obtain ⟨breaker, -, hret⟩ := Option.bind_eq_some_iff.mp h
      cases hret
      refine closer_of_set hget rfl ?_ fun _ => safe_of_runner (by simp) (by simp)
      simp [Submission.stepsLeft, hrunner, Runner.stepsLeft]
  · cases h
  · cases h

theorem conclude_closer {outcome : Outcome} {now : Rat} (hget : s.submissions[i]? = some sub)
    (hopen : sub.submitter.isOpen = true) : Closer i sub (s.conclude i sub outcome now) := by
  have hleft : Submission.stepsLeft { sub with submitter := .ended outcome } < sub.stepsLeft := by
    cases hsubmitter : sub.submitter with
    | ended => rw [hsubmitter] at hopen; cases hopen
    | _ => simp [Submission.stepsLeft, hsubmitter, Submitter.stepsLeft]
  refine closer_of_set hget ?_ hleft fun _ => safe_of_submitter (by simp)
  cases outcome <;> rfl

theorem wake_closer {now : Rat} (hget : s.submissions[i]? = some sub)
    (h : wake i sub now s = some t) : Closer i sub t := by
  rw [wake] at h
  split at h
  · next hsubmitter hrunner =>
      cases h
      refine closer_of_set hget rfl ?_ fun _ => safe_of_submitter (by simp)
      simp [Submission.stepsLeft, hsubmitter, hrunner, Submitter.stepsLeft, Runner.stepsLeft]
  · next hsubmitter hrunner =>
      cases h
      refine closer_of_set hget rfl ?_ fun _ => safe_of_submitter (by simp)
      simp [Submission.stepsLeft, hsubmitter, Submitter.stepsLeft]
  · next hsubmitter hrunner =>
      cases h
      exact conclude_closer (s := s.endFlow sub) hget (by rw [hsubmitter]; rfl)
  · next hsubmitter hadmission =>
      cases h
      refine closer_of_set hget rfl ?_ fun _ => safe_of_submitter (by simp)
      simp [Submission.stepsLeft, hsubmitter, Submitter.stepsLeft]
  · next hsubmitter hadmission =>
      cases h
      exact conclude_closer (s := s.endFlow sub) hget (by rw [hsubmitter]; rfl)
  · cases h

theorem join_closer {now : Rat} (hget : s.submissions[i]? = some sub)
    (h : join i sub now s = some t) : Closer i sub t := by
  rw [join] at h
  split at h
  · next hsubmitter hrunner =>
      cases h
      exact conclude_closer (s := s.endFlow sub) hget (by rw [hsubmitter]; rfl)
  · cases h

theorem settle_closer {now : Rat} (hget : s.submissions[i]? = some sub)
    (h : settle i sub now s = some t) : Closer i sub t := by
  rw [settle] at h
  split at h
  · next hsubmitter =>
      cases h
      exact conclude_closer hget (by rw [hsubmitter]; rfl)
  · cases h

theorem own_closer {a : Action} (hget : s.submissions[i]? = some sub) (hown : a.isOwn = true)
    (ha : a.submission = some i) (hstep : step b s a = some t) : Closer i sub t := by
  cases a with
  | submit | cancelRunner | cancelSubmitter => cases hown
  | start j now later =>
      cases ha
      rw [step, hget] at hstep
      exact start_closer hget hstep
  | finish j now result =>
      cases ha
      rw [step, hget] at hstep
      exact finish_closer hget hstep
  | wake j now =>
      cases ha
      rw [step, hget] at hstep
      exact wake_closer hget hstep
  | join j now =>
      cases ha
      rw [step, hget] at hstep
      exact join_closer hget hstep
  | settle j now =>
      cases ha
      rw [step, hget] at hstep
      exact settle_closer hget hstep

/-- By induction on the steps that are left: the own steps lead to the end. -/
theorem ends_of_safe {past : List Action} (hrun : Run (step b) {} past s)
    (hget : s.submissions[i]? = some sub) (hsafe : sub.Safe) :
    ∃ more t ended, Run (step b) s more t ∧ (∀ a ∈ more, a.isOwn = true) ∧
      t.submissions[i]? = some ended ∧ ended.submitter.isOpen = false := by
  induction hleft : sub.stepsLeft using Nat.strong_induction_on generalizing past s sub with
  | _ n ih =>
      cases hopen : sub.submitter.isOpen with
      | false => exact ⟨[], s, sub, .nil, fun a hmem => absurd hmem List.not_mem_nil, hget, hopen⟩
      | true =>
          have hvalid := valid_of_run hrun sub (List.mem_of_getElem? hget)
          obtain ⟨a, hown, ha, hsome⟩ :=
            own_of_valid (bodies_of_run hrun) hget hvalid hopen hsafe.2
          obtain ⟨next, hstep⟩ := Option.isSome_iff_exists.mp hsome
          obtain ⟨sub', hget', hless, hkept⟩ := own_closer hget hown ha hstep
          obtain ⟨more, t, ended, hmore, hall, hended⟩ :=
            ih _ (hleft ▸ hless) (hrun.snoc hstep) hget' (hkept hsafe) rfl
          exact ⟨a :: more, t, ended, (Run.single hstep).append hmore,
            List.forall_mem_cons.mpr ⟨hown, hall⟩, hended⟩

/-- What `Safe` leaves out: the submitter does not learn that its runner was cancelled. -/
structure Submission.Lost (sub : Submission) : Prop where
  submitter : sub.submitter = .waiting false
  admission : sub.admission = .pending
  runner : sub.runner = .created true ∨ sub.runner = .ended .unstarted

theorem lost_of_not_safe (hvalid : sub.Valid) (h : ¬ sub.Safe) : sub.Lost := by
  obtain ⟨taskId, operationName, admission, runner, submitter⟩ := sub
  cases hvalid with
  | queued cancelRequested =>
      cases cancelRequested with
      | true => exact ⟨rfl, rfl, .inl rfl⟩
      | false => exact absurd (safe_of_runner (by simp) (by simp)) h
  | stuck => exact ⟨rfl, rfl, .inr rfl⟩
  | turnedAway | running | finished => exact absurd (safe_of_runner (by simp) (by simp)) h
  | rejected | leaving | leavingLate | joining | joiningLate | left | rejectedLate =>
      exact absurd (safe_of_submitter (by simp)) h

theorem lost_step {a : Action} (hget : s.submissions[i]? = some sub) (hlost : sub.Lost)
    (hne : a ≠ .cancelSubmitter i) (hstep : step b s a = some t) :
    ∃ sub', t.submissions[i]? = some sub' ∧ sub'.Lost := by
  obtain ⟨hsubmitter, hadmission, hrunner⟩ := hlost
  have hset (runner : Runner) (hlater : runner = .created true ∨ runner = .ended .unstarted) :
      ∃ sub', (s.put i { sub with runner }).submissions[i]? = some sub' ∧ sub'.Lost :=
    ⟨{ sub with runner }, List.getElem?_set_self (List.getElem?_eq_some_iff.mp hget).1,
      ⟨hsubmitter, hadmission, hlater⟩⟩
  by_cases ha : a.submission = some i
  · cases a with
    | submit => cases ha
    | cancelSubmitter => cases ha; exact absurd rfl hne
    | start j now later =>
        cases ha
        rcases hrunner with hrunner | hrunner
        · simp only [step, hget, Option.bind_some, start, hrunner, Option.some.injEq] at hstep
          subst hstep
          exact hset _ (.inr rfl)
        · simp [step, hget, start, hrunner] at hstep
    | cancelRunner j =>
        cases ha
        rcases hrunner with hrunner | hrunner
        · simp only [step, hget, Option.bind_some, cancelRunner, hrunner,
            Option.some.injEq] at hstep
          subst hstep
          exact hset _ (.inl rfl)
        · simp [step, hget, cancelRunner, hrunner] at hstep
    | finish | wake | join | settle =>
        cases ha
        rcases hrunner with hrunner | hrunner <;>
          simp [step, hget, finish, wake, join, settle, hsubmitter, hadmission, hrunner] at hstep
  · exact ⟨sub, submissions_kept (step_effect hstep) ha hget,
      ⟨hsubmitter, hadmission, hrunner⟩⟩

theorem lost_of_run {more : List Action} (hget : s.submissions[i]? = some sub) (hlost : sub.Lost)
    (hrun : Run (step b) s more t) (hmore : .cancelSubmitter i ∉ more) :
    ∃ sub', t.submissions[i]? = some sub' ∧ sub'.Lost := by
  induction hrun with
  | nil => exact ⟨sub, hget, hlost⟩
  | @snoc past u v a _ hstep ih =>
      obtain ⟨before, hbefore, hlost⟩ := ih fun hmem => hmore (List.mem_append_left _ hmem)
      refine lost_step hbefore hlost ?_ hstep
      rintro rfl
      exact hmore (List.mem_append_right _ (List.mem_singleton_self _))

/-- Unless its submitter is cancelled, a submission can end exactly if it is not lost. -/
theorem ends_iff_safe {past : List Action} (hrun : Run (step b) {} past s)
    (hget : s.submissions[i]? = some sub) :
    (∃ more t ended, Run (step b) s more t ∧ .cancelSubmitter i ∉ more ∧
      t.submissions[i]? = some ended ∧ ended.submitter.isOpen = false) ↔ sub.Safe := by
  constructor
  · rintro ⟨more, t, ended, hmore, hspared, hended, hclosed⟩
    by_contra hunsafe
    have hvalid := valid_of_run hrun sub (List.mem_of_getElem? hget)
    obtain ⟨sub', hget', hlost⟩ :=
      lost_of_run hget (lost_of_not_safe hvalid hunsafe) hmore hspared
    cases hended.symm.trans hget'
    rw [hlost.submitter] at hclosed
    cases hclosed
  · intro hsafe
    obtain ⟨more, t, ended, hmore, hown, hended⟩ := ends_of_safe hrun hget hsafe
    refine ⟨more, t, ended, hmore, fun hmem => ?_, hended⟩
    cases hown _ hmem

end Endings

/-! ## The guarantees -/

/-- A submission can go on until it ends, unless its runner was cancelled before its first
step: then its submitter waits for ever, until it is cancelled itself. -/
theorem submitter_waits_forever_iff (b : CircuitBreaker) :
    (∀ past s i sub, Run (step b) {} past s → s.submissions[i]? = some sub →
      sub.submitter.isOpen = true →
      ((∃ a : Action, a.isOwn = true ∧ a.submission = some i ∧ (step b s a).isSome = true) ↔
        ¬ sub.Stuck) ∧
      ((∃ more t ended, Run (step b) s more t ∧ .cancelSubmitter i ∉ more ∧
        t.submissions[i]? = some ended ∧ ended.submitter.isOpen = false) ↔ sub.Safe) ∧
      (sub.Stuck → ∀ more t, Run (step b) s more t → .cancelSubmitter i ∉ more →
        t.submissions[i]? = some sub)) ∧
    ∀ past s, Run (restrict spares (step b)) {} past s → ∀ sub ∈ s.submissions, sub.Safe := by
  refine ⟨fun past s i sub hrun hget hopen => ⟨⟨?_, ?_⟩, ends_iff_safe hrun hget, ?_⟩,
    fun past s hrun sub hmem => ?_⟩
  · rintro ⟨a, hown, ha, hsome⟩ hstuck
    have hne : a ≠ .cancelSubmitter i := by
      rintro rfl
      cases hown
    rw [stuck_step hget hstuck ha hne] at hsome
    cases hsome
  · exact own_of_valid (bodies_of_run hrun) hget (valid_of_run hrun sub (List.mem_of_getElem? hget))
      hopen
  · exact fun hstuck more t hmore hspared => stuck_of_run hget hstuck hmore hspared
  · exact safe_of_run hrun sub hmem

/-- The runner of a submission for a breaker that lets it in is cancelled before it starts. -/
def lostRunner : List Action :=
  [.submit "task".toList "task_submission".toList 0, .cancelRunner 0, .start 0 1 1]

theorem submitter_waits_for_lostRunner :
    ∃ s sub, Run (step Breaker.strictBreaker) {} lostRunner s ∧ s.submissions[0]? = some sub ∧
      ∀ more t, Run (step Breaker.strictBreaker) s more t → .cancelSubmitter 0 ∉ more →
        t.submissions[0]? = some sub := by
  have hrun : Run (step Breaker.strictBreaker) {} lostRunner _ := .of_foldlM rfl
  exact ⟨_, _, hrun, rfl, ((submitter_waits_forever_iff Breaker.strictBreaker).1 lostRunner _ 0 _
    hrun rfl rfl).2.2 ⟨rfl, rfl, rfl⟩⟩

theorem finished_le_admitted (submissions : List Submission) :
    (submissions.countP fun sub => sub.runner.finishedWith isFailure) +
        (submissions.countP fun sub => sub.runner.finishedWith isSuccess) ≤
      submissions.countP fun sub => sub.runner.admitted := by
  induction submissions with
  | nil => exact Nat.le_refl 0
  | cons sub submissions ih =>
      have hone : (if sub.runner.finishedWith isFailure then 1 else 0) +
          (if sub.runner.finishedWith isSuccess then 1 else 0) ≤
            if sub.runner.admitted then 1 else 0 := by
        cases sub.runner with
        | created | running => exact Nat.zero_le _
        | ended how =>
            cases how with
            | unstarted | rejected | abandoned => exact Nat.zero_le _
            | finished result =>
                cases result with
                | error e => exact Nat.le_refl 1
                | ok data =>
                    cases data with
                    | contentDelta | contentReset | toolUse | taskCompleted | taskError =>
                        exact Nat.le_refl 1
                    | taskStopped => exact Nat.zero_le _
      rw [List.countP_cons, List.countP_cons, List.countP_cons]
      omega

/-- The counters are the numbers of the submissions they are about, and no more tasks are
counted than the breaker admitted; its guarantees hold of the breaker of every run. -/
theorem submissions_accounted (b : CircuitBreaker) {past : List Action} {s : State}
    (hrun : Run (step b) {} past s) :
    Accounts s ∧
      s.metrics.tasksSubmitted ≤ s.breaker.bodies.length ∧
      s.metrics.tasksFailed + s.metrics.tasksCompleted ≤ s.breaker.bodies.length ∧
      ∃ calls, Run (Breaker.step b) {} calls s.breaker ∧
        (Breaker.readings calls).Sublist (past.flatMap Action.readings) := by
  have haccounts := accounts_of_run hrun
  refine ⟨haccounts, ?_, ?_, breaker_of_run hrun⟩
  · rw [haccounts.submitted, haccounts.admitted]
    refine List.countP_mono_left fun sub hmem hreturned => ?_
    have hvalid := valid_of_run hrun sub hmem
    obtain ⟨taskId, operationName, admission, runner, submitter⟩ := sub
    cases hvalid with
    | running | finished => rfl
    | queued | stuck | turnedAway | rejected | leaving | leavingLate | joining | joiningLate
    | left | rejectedLate => cases hreturned
  · rw [haccounts.failed, haccounts.completed, haccounts.admitted]
    exact finished_le_admitted s.submissions

/-- One task fails and opens the breaker, and the next submission is turned away. -/
def turnedAway : List Action :=
  [.submit "first".toList "task_submission".toList 0, .start 0 0 0, .wake 0 0, .settle 0 0,
    .finish 0 1 (.error (.sdk ⟨.connectionError, .connectFailed, none⟩)),
    .submit "second".toList "task_submission".toList 1, .start 1 2 2, .wake 1 2]

theorem submissions_accounted_turnedAway :
    ∃ s, Run (step Breaker.strictBreaker) {} turnedAway s ∧
      s.metrics.tasksFailed + s.metrics.tasksCompleted ≤ s.breaker.bodies.length ∧
      s.metrics = ⟨1, 1, 0, 1, some 2, 1⟩ := by
  have hend : ((turnedAway.foldlM (step Breaker.strictBreaker) {}).any fun s =>
      decide (s.metrics = ⟨1, 1, 0, 1, some 2, 1⟩)) = true := by decide +kernel
  obtain ⟨s, hfold, hs⟩ := (Option.any_eq_true _ _).mp hend
  have hrun : Run (step Breaker.strictBreaker) {} turnedAway s := .of_foldlM hfold
  exact ⟨s, hrun, (submissions_accounted Breaker.strictBreaker hrun).2.2.1, of_decide_eq_true hs⟩

/-- What a submission that ended leaves behind: no runner of its own, unless the breaker
let it in, and only then a response. -/
def Submission.Leaves (sub : Submission) : Outcome → Prop
  | .returned => sub.admission = .granted
  | .rejected retryAfter => sub.runner = .ended (.rejected retryAfter)
  | .cancelled => sub.admission = .granted ∨ ∃ how, sub.runner = .ended how
  | .raised error => sub.runner = .ended (.finished (.error error))

theorem Submission.Valid.granted_iff {sub : Submission} (h : sub.Valid) :
    sub.admission = .granted ↔
      sub.runner.admitted = true ∧ ∀ how, sub.runner = .ended how → how ≠ .abandoned := by
  obtain ⟨taskId, operationName, admission, runner, submitter⟩ := sub
  cases h with
  | queued | stuck | turnedAway | rejected | leaving | joining | rejectedLate =>
      simp [Runner.admitted]
  | leavingLate how h | joiningLate how _ h | left how h =>
      cases how with
      | unstarted | rejected | abandoned => simp [Runner.admitted]
      | finished => cases h
  | running n | finished result => simp [Runner.admitted]

theorem Submission.Valid.leaves {sub : Submission} {outcome : Outcome} (h : sub.Valid)
    (hended : sub.submitter = .ended outcome) : sub.Leaves outcome := by
  obtain ⟨taskId, operationName, admission, runner, submitter⟩ := sub
  cases h with
  | queued | stuck | turnedAway | leaving | leavingLate | joining | joiningLate => cases hended
  | rejected | rejectedLate => cases hended; rfl
  | left how => cases hended; exact .inr ⟨how, rfl⟩
  | running n _ h =>
      cases h outcome hended with
      | inl hreturned => rw [hreturned]; rfl
      | inr hcancelled => rw [hcancelled]; exact .inl rfl
  | finished result _ h =>
      rcases h outcome hended with hreturned | hcancelled | ⟨error, hraised, hresult⟩
      · rw [hreturned]
        rfl
      · rw [hcancelled]
        exact .inl rfl
      · rw [hraised, hresult]
        rfl

theorem submissions_settled (b : CircuitBreaker) {past : List Action} {s : State}
    (hrun : Run (step b) {} past s) :
    (∀ sub ∈ s.submissions, (sub.admission = .granted ↔
        sub.runner.admitted = true ∧ ∀ how, sub.runner = .ended how → how ≠ .abandoned) ∧
      ∀ outcome, sub.submitter = .ended outcome → sub.Leaves outcome) ∧
    Flowing s ∧
    ((∀ sub ∈ s.submissions, sub.submitter.flows = false) → s.timingCache = []) := by
  have hflowing := flowing_of_run hrun
  refine ⟨fun sub hmem => ?_, hflowing, fun hended => ?_⟩
  · have hvalid := valid_of_run hrun sub hmem
    exact ⟨hvalid.granted_iff, fun outcome => hvalid.leaves⟩
  · refine List.eq_nil_iff_forall_not_mem.mpr fun entry hmem => ?_
    obtain ⟨sub, hsub, hflows, -⟩ := hflowing entry.1 (List.mem_map_of_mem hmem)
    rw [hended sub hsub] at hflows
    cases hflows

theorem submissions_settled_turnedAway :
    ∃ s, Run (step Breaker.strictBreaker) {} turnedAway s ∧ s.timingCache = [] := by
  have hend : ((turnedAway.foldlM (step Breaker.strictBreaker) {}).any fun s =>
      s.submissions.all fun sub => !sub.submitter.flows) = true := by decide +kernel
  obtain ⟨s, hfold, hs⟩ := (Option.any_eq_true _ _).mp hend
  have hrun : Run (step Breaker.strictBreaker) {} turnedAway s := .of_foldlM hfold
  refine ⟨s, hrun, (submissions_settled Breaker.strictBreaker hrun).2.2 fun sub hmem => ?_⟩
  simpa using List.all_eq_true.mp hs sub hmem

end DualeAI.TaskAdmission
