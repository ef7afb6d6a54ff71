import DualeAI.Foundation.Indexed
import DualeAI.Foundation.Transition

/-!
Registered tools that are plain functions, and the threads that run them.

An execution holds its place in `_tool_execution_semaphore` for all its attempts. Each
attempt hands the function to the executor and awaits its future. A deadline or a
cancellation ends that wait, and with it the place may go to another execution; the
thread goes on to the end of the function. An executor runs at most `maxWorkers` functions
at a time, in the order they came, and `cleanup` drops it with what it has not begun.
-/
namespace DualeAI.SyncTools
open Foundation

/-- Where an execution stands; `ready` and `awaiting` are inside the semaphore's block. -/
inductive Call where
  | queued
  | ready
  | awaiting (job : Nat)
  | left
deriving DecidableEq, Repr

def Call.holds : Call → Bool
  | .ready | .awaiting _ => true
  | .queued | .left => false

def Call.awaits : Call → Bool
  | .awaiting _ => true
  | .queued | .ready | .left => false

inductive Status where
  | queued
  | running
  | finished
  | cancelled
deriving DecidableEq, Repr

/-- One call of `run_in_executor`. -/
structure Job where
  executor : Nat
  call : Nat
  status : Status := .queued
  /-- Its execution awaits the future. -/
  awaited : Bool := true
deriving DecidableEq, Repr

namespace Job

def queuedIn (executor : Nat) (job : Job) : Bool :=
  job.status == .queued && job.executor == executor

def runningIn (executor : Nat) (job : Job) : Bool :=
  job.status == .running && job.executor == executor

/-- What becomes of it when the executor cancels the futures it has not begun. -/
def cancelledBy (executor : Nat) (job : Job) : Job :=
  if job.queuedIn executor then { job with status := .cancelled } else job

theorem cancelledBy_awaited (executor : Nat) (job : Job) :
    (job.cancelledBy executor).awaited = job.awaited := by
  rw [cancelledBy]
  split <;> rfl

theorem cancelledBy_call (executor : Nat) (job : Job) :
    (job.cancelledBy executor).call = job.call := by
  rw [cancelledBy]
  split <;> rfl

theorem cancelledBy_runningIn (executor p : Nat) (job : Job) :
    (job.cancelledBy executor).runningIn p = job.runningIn p := by
  rw [cancelledBy]
  split
  · next h =>
      rw [queuedIn, Bool.and_eq_true, beq_iff_eq] at h
      rw [runningIn, runningIn, h.1]
      rfl
  · rfl

end Job

structure State where
  calls : List Call := []
  jobs : List Job := []
  /-- `_sync_tool_executor`, and how many were ever made. -/
  executor : Option Nat := none
  executors : Nat := 0

namespace State

def setCall (i : Nat) (call : Call) (s : State) : State := { s with calls := s.calls.set i call }

def setJob (j : Nat) (job : Job) (s : State) : State := { s with jobs := s.jobs.set j job }

/-- How many executions are in the semaphore's block. -/
def holders (s : State) : Nat := s.calls.countP Call.holds

def running (executor : Nat) (s : State) : Nat := s.jobs.countP (Job.runningIn executor)

/-- The functions that an execution waits for and no thread has taken up. -/
def waiting (executor : Nat) (s : State) : Nat :=
  s.jobs.countP fun job => job.queuedIn executor && job.awaited

/-- The functions that run on although nobody waits for them. -/
def orphans (executor : Nat) (s : State) : Nat :=
  s.jobs.countP fun job => job.runningIn executor && !job.awaited

/-- `_get_sync_tool_executor` and `run_in_executor`. -/
def submit (i : Nat) (s : State) : State :=
  let call := Call.awaiting s.jobs.length
  match s.executor with
  | some executor =>
      { s.setCall i call with jobs := s.jobs ++ [{ executor, call := i }] }
  | none =>
      { s.setCall i call with
        jobs := s.jobs ++ [{ executor := s.executors, call := i }]
        executor := some s.executors
        executors := s.executors + 1 }

theorem submit_calls (i : Nat) (s : State) :
    (s.submit i).calls = s.calls.set i (.awaiting s.jobs.length) := by
  rw [submit]
  split <;> rfl

/-- The executor in use when execution `i` has handed its function over. -/
theorem submit_jobs (i : Nat) (s : State) :
    ∃ executor, (s.submit i).jobs = s.jobs ++ [{ executor, call := i }] ∧
      (s.submit i).executor = some executor ∧
      (some executor = s.executor ∨ none = s.executor) := by
  rw [submit]
  split
  · next executor hcurrent => exact ⟨executor, rfl, hcurrent, .inl hcurrent.symm⟩
  · next hnone => exact ⟨s.executors, rfl, rfl, .inr hnone.symm⟩

/-- The part of `cleanup`: `shutdown(wait=False, cancel_futures=True)`. -/
def shutdown (s : State) : State :=
  match s.executor with
  | none => s
  | some executor => { s with jobs := s.jobs.map (Job.cancelledBy executor), executor := none }

/-- The wait of execution `i` for job `j` is over. -/
def settle (i j : Nat) (job : Job) (status : Status) (s : State) : State :=
  (s.setJob j { job with status, awaited := false }).setCall i .ready

end State

inductive Action where
  | arrive
  /-- An execution enters the semaphore's block. -/
  | enter (i : Nat)
  | submit (i : Nat)
  /-- A thread of the executor takes up the next function. -/
  | take
  | finish (j : Nat)
  /-- The execution goes on with the result. -/
  | deliver (i : Nat)
  /-- The timeout of the attempt, or a cancellation. -/
  | giveUp (i : Nat)
  /-- The function's future is cancelled because nobody awaits it. -/
  | drop (j : Nat)
  | leave (i : Nat)
  /-- A cancellation outside the block. -/
  | abort (i : Nat)
  | shutdown
  /-- The execution that awaits a cancelled function hears of it. -/
  | reject (j : Nat)
deriving DecidableEq, Repr

section Steps
variable (maxWorkers : Nat)

def step (s : State) : Action → Option State
  | .arrive => some { s with calls := s.calls ++ [.queued] }
  | .enter i =>
      if s.calls[i]? = some .queued ∧ s.holders < maxWorkers then some (s.setCall i .ready)
      else none
  | .submit i => if s.calls[i]? = some .ready then some (s.submit i) else none
  | .take => do
      let executor ← s.executor
      let j ← s.jobs.findIdx? (Job.queuedIn executor)
      let job ← s.jobs[j]?
      if s.running executor < maxWorkers then some (s.setJob j { job with status := .running })
      else none
  | .finish j => do
      let job ← s.jobs[j]?
      if job.status = .running then some (s.setJob j { job with status := .finished }) else none
  | .deliver i =>
      match s.calls[i]? with
      | some (.awaiting j) => do
          let job ← s.jobs[j]?
          if job.status = .finished then some (s.settle i j job .finished) else none
      | _ => none
  | .giveUp i =>
      match s.calls[i]? with
      | some (.awaiting j) => do
          let job ← s.jobs[j]?
          some (s.settle i j job job.status)
      | _ => none
  | .drop j => do
      let job ← s.jobs[j]?
      if job.status = .queued ∧ job.awaited = false then
        some (s.setJob j { job with status := .cancelled })
      else none
  | .leave i => if s.calls[i]? = some .ready then some (s.setCall i .left) else none
  | .abort i => if s.calls[i]? = some .queued then some (s.setCall i .left) else none
  | .shutdown => some s.shutdown
  | .reject j => do
      let job ← s.jobs[j]?
      if job.status = .cancelled ∧ job.awaited = true then
        some (s.settle job.call j job .cancelled)
      else none

end Steps

/-! ## What a step does -/

/-- A change of an execution that awaits nothing, before and after. -/
structure Recalls (maxWorkers : Nat) (s : State) (before after : Call) : Prop where
  before_open : before.awaits = false
  after_open : after.awaits = false
  holds : after.holds = true → before.holds = true ∨ s.holders < maxWorkers

/-- A change of a function's status. -/
structure Advances (maxWorkers : Nat) (s : State) (job : Job) (status : Status) : Prop where
  queued : status = .queued → job.status = .queued
  cancelled : job.status = .cancelled → status = .cancelled
  runs : status = .running → job.status = .running ∨ s.running job.executor < maxWorkers

theorem Advances.toCancelled (maxWorkers : Nat) (s : State) (job : Job) :
    Advances maxWorkers s job .cancelled where
  queued := fun h => by cases h
  cancelled := fun _ => rfl
  runs := fun h => by cases h

theorem Advances.toFinished {maxWorkers : Nat} {s : State} {job : Job}
    (h : job.status ≠ .cancelled) : Advances maxWorkers s job .finished where
  queued := fun h => by cases h
  cancelled := fun hcancelled => absurd hcancelled h
  runs := fun h => by cases h

theorem Advances.runningIn {maxWorkers p : Nat} {s : State} {job : Job} {status : Status}
    (h : Advances maxWorkers s job status) (awaited : Bool)
    (hruns : Job.runningIn p { job with status, awaited } = true) :
    job.runningIn p = true ∨ s.running p < maxWorkers := by
  rw [Job.runningIn, Bool.and_eq_true, beq_iff_eq, beq_iff_eq] at hruns
  cases h.runs hruns.1 with
  | inl hold =>
      refine .inl ?_
      rw [Job.runningIn, hold, beq_iff_eq.mpr hruns.2]
      rfl
  | inr hfree => exact .inr (hruns.2 ▸ hfree)

inductive Effect (maxWorkers : Nat) (s : State) : State → Prop where
  | shutdown : Effect maxWorkers s s.shutdown
  | arrived : Effect maxWorkers s { s with calls := s.calls ++ [.queued] }
  | recalled (i : Nat) (before after : Call) (hget : s.calls[i]? = some before)
      (h : Recalls maxWorkers s before after) : Effect maxWorkers s (s.setCall i after)
  | submitted (i : Nat) (hget : s.calls[i]? = some .ready) : Effect maxWorkers s (s.submit i)
  | moved (j : Nat) (job : Job) (status : Status) (hget : s.jobs[j]? = some job)
      (h : Advances maxWorkers s job status) :
      Effect maxWorkers s (s.setJob j { job with status })
  | settled (i j : Nat) (job : Job) (status : Status) (hcall : s.calls[i]? = some (.awaiting j))
      (hget : s.jobs[j]? = some job) (h : Advances maxWorkers s job status) :
      Effect maxWorkers s (s.settle i j job status)

/-! ## The invariant -/

structure Invariant (maxWorkers : Nat) (s : State) : Prop where
  /-- An execution awaits a job of its own, and an awaited job is awaited by its execution. -/
  awaits : ∀ (i j : Nat), s.calls[i]? = some (.awaiting j) →
    ∃ job, s.jobs[j]? = some job ∧ job.awaited = true ∧ job.call = i
  owned : ∀ (j : Nat) (job : Job), s.jobs[j]? = some job → job.awaited = true →
    s.calls[job.call]? = some (.awaiting j)
  counted : s.jobs.countP Job.awaited = s.calls.countP Call.awaits
  /-- Only the executor in use has functions that it has not begun. -/
  queued : ∀ job ∈ s.jobs, job.status = .queued → s.executor = some job.executor
  holders : s.holders ≤ maxWorkers
  running : ∀ executor, s.running executor ≤ maxWorkers

variable {maxWorkers : Nat} {s t : State}

theorem invariant_init (maxWorkers : Nat) : Invariant maxWorkers {} where
  awaits := by simp
  owned := by simp
  counted := rfl
  queued := by simp
  holders := Nat.zero_le _
  running := fun _ => Nat.zero_le _

section Steps
variable (hs : Invariant maxWorkers s)
include hs

theorem Invariant.step_effect {a : Action} (hstep : step maxWorkers s a = some t) :
    Effect maxWorkers s t := by
  cases a with
  | arrive => cases hstep; exact .arrived
  | shutdown => cases hstep; exact .shutdown
  | enter i =>
      obtain ⟨⟨hget, hfree⟩, heq⟩ := Option.ite_none_right_eq_some.mp hstep
      cases heq
      exact .recalled i .queued .ready hget ⟨rfl, rfl, fun _ => .inr hfree⟩
  | submit i =>
      obtain ⟨hget, heq⟩ := Option.ite_none_right_eq_some.mp hstep
      cases heq
      exact .submitted i hget
  | take =>
      obtain ⟨executor, hcurrent, hstep⟩ := Option.bind_eq_some_iff.mp hstep
      obtain ⟨j, hfind, hstep⟩ := Option.bind_eq_some_iff.mp hstep
      obtain ⟨job, hget, hstep⟩ := Option.bind_eq_some_iff.mp hstep
      obtain ⟨hfree, heq⟩ := Option.ite_none_right_eq_some.mp hstep
      cases heq
      obtain ⟨hlt, hqueued, -⟩ := List.findIdx?_eq_some_iff_getElem.mp hfind
      have hjob : s.jobs[j] = job :=
        Option.some.inj ((List.getElem?_eq_getElem hlt).symm.trans hget)
      rw [hjob, Job.queuedIn, Bool.and_eq_true, beq_iff_eq, beq_iff_eq] at hqueued
      refine .moved j job .running hget ⟨fun hrunning => ?_, fun hcancelled => ?_, fun _ => ?_⟩
      · cases hrunning
      · cases hqueued.1.symm.trans hcancelled
      · exact .inr (hqueued.2 ▸ hfree)
  | finish j =>
      obtain ⟨job, hget, hstep⟩ := Option.bind_eq_some_iff.mp hstep
      obtain ⟨hrunning, heq⟩ := Option.ite_none_right_eq_some.mp hstep
      cases heq
      exact .moved j job .finished hget (.toFinished (by simp [hrunning]))
  | deliver i =>
      simp only [step] at hstep
      split at hstep
      · next j hcall =>
          obtain ⟨job, hget, hstep⟩ := Option.bind_eq_some_iff.mp hstep
          obtain ⟨hfinished, heq⟩ := Option.ite_none_right_eq_some.mp hstep
          cases heq
          exact .settled i j job .finished hcall hget (.toFinished (by simp [hfinished]))
      · cases hstep
  | giveUp i =>
      simp only [step] at hstep
      split at hstep
      · next j hcall =>
          obtain ⟨job, hget, heq⟩ := Option.bind_eq_some_iff.mp hstep
          cases heq
          exact .settled i j job job.status hcall hget ⟨id, id, .inl⟩
      · cases hstep
  | drop j =>
      obtain ⟨job, hget, hstep⟩ := Option.bind_eq_some_iff.mp hstep
      obtain ⟨-, heq⟩ := Option.ite_none_right_eq_some.mp hstep
      cases heq
      exact .moved j job .cancelled hget (.toCancelled maxWorkers s job)
  | leave i =>
      obtain ⟨hget, heq⟩ := Option.ite_none_right_eq_some.mp hstep
      cases heq
      exact .recalled i .ready .left hget ⟨rfl, rfl, fun hholds => by cases hholds⟩
  | abort i =>
      obtain ⟨hget, heq⟩ := Option.ite_none_right_eq_some.mp hstep
      cases heq
      exact .recalled i .queued .left hget ⟨rfl, rfl, fun hholds => by cases hholds⟩
  | reject j =>
      obtain ⟨job, hget, hstep⟩ := Option.bind_eq_some_iff.mp hstep
      obtain ⟨⟨-, hawaited⟩, heq⟩ := Option.ite_none_right_eq_some.mp hstep
      cases heq
      exact .settled job.call j job .cancelled (hs.owned j job hget hawaited) hget
        (.toCancelled maxWorkers s job)

/-! ### One lemma for each effect -/

theorem Invariant.shutdown : Invariant maxWorkers s.shutdown := by
  rw [State.shutdown]
  split
  · exact hs
  · next executor hcurrent =>
      refine ⟨?_, ?_, ?_, ?_, hs.holders, ?_⟩
      · intro i j hcall
        obtain ⟨job, hjob, hawaited, hown⟩ := hs.awaits i j hcall
        refine ⟨job.cancelledBy executor, ?_, ?_, ?_⟩
        · rw [List.getElem?_map, hjob]
          rfl
        · exact (job.cancelledBy_awaited executor).trans hawaited
        · exact (job.cancelledBy_call executor).trans hown
      · intro j job hjob hawaited
        obtain ⟨before, hbefore, rfl⟩ := Option.map_eq_some_iff.mp
          ((List.getElem?_map ..).symm.trans hjob)
        rw [before.cancelledBy_awaited] at hawaited
        rw [before.cancelledBy_call]
        exact hs.owned j before hbefore hawaited
      · have hsame : Job.awaited ∘ Job.cancelledBy executor = Job.awaited :=
          funext (Job.cancelledBy_awaited executor)
        rw [List.countP_map, hsame]
        exact hs.counted
      · intro job hmem hqueued
        obtain ⟨before, hbefore, rfl⟩ := List.mem_map.mp hmem
        rw [Job.cancelledBy] at hqueued
        split at hqueued
        · cases hqueued
        · next hother =>
            have howner := Option.some.inj (hcurrent.symm.trans (hs.queued before hbefore hqueued))
            simp [Job.queuedIn, hqueued, howner] at hother
      · intro p
        have hsame : Job.runningIn p ∘ Job.cancelledBy executor = Job.runningIn p :=
          funext (Job.cancelledBy_runningIn executor p)
        rw [State.running, List.countP_map, hsame]
        exact hs.running p

theorem Invariant.arrived : Invariant maxWorkers { s with calls := s.calls ++ [.queued] } := by
  refine ⟨?_, ?_, ?_, hs.queued, ?_, hs.running⟩
  · intro i j hcall
    cases getElem?_concat_eq_some hcall with
    | inl hold => exact hs.awaits i j hold
    | inr hlast => cases hlast.2
  · intro j job hget hawaited
    have hcall := hs.owned j job hget hawaited
    exact (List.getElem?_append_left (List.getElem?_eq_some_iff.mp hcall).1).trans hcall
  · rw [List.countP_append]
    exact hs.counted
  · rw [State.holders, List.countP_append]
    exact hs.holders

theorem Invariant.recalled {i : Nat} {before after : Call} (hget : s.calls[i]? = some before)
    (h : Recalls maxWorkers s before after) : Invariant maxWorkers (s.setCall i after) := by
  refine ⟨?_, ?_, ?_, hs.queued, ?_, hs.running⟩
  · intro i' j hcall
    cases getElem?_set_eq_some hcall with
    | inl hsame =>
        have hopen := h.after_open
        rw [← hsame.2] at hopen
        cases hopen
    | inr hother => exact hs.awaits i' j hother.2
  · intro j job hjob hawaited
    have hcall := hs.owned j job hjob hawaited
    have hne : i ≠ job.call := by
      intro heq
      have hopen := h.before_open
      rw [Option.some.inj (hget.symm.trans (heq ▸ hcall))] at hopen
      cases hopen
    exact (List.getElem?_set_ne hne).trans hcall
  · have hcount := countP_set Call.awaits after hget
    rw [h.before_open, h.after_open] at hcount
    exact hs.counted.trans hcount.symm
  · exact countP_set_le hget hs.holders h.holds

theorem Invariant.submitted {i : Nat} (hget : s.calls[i]? = some .ready) :
    Invariant maxWorkers (s.submit i) := by
  obtain ⟨executor, hjobs, hexecutor, hmade⟩ := s.submit_jobs i
  have hcalls := s.submit_calls i
  refine ⟨?_, ?_, ?_, ?_, ?_, ?_⟩
  · intro i' j hcall
    rw [hcalls] at hcall
    rw [hjobs]
    cases getElem?_set_eq_some hcall with
    | inl hsame =>
        cases hsame.2
        exact ⟨_, List.getElem?_concat_length, rfl, hsame.1.symm⟩
    | inr hother =>
        obtain ⟨job, hjob, hawaited⟩ := hs.awaits i' j hother.2
        have hlt := (List.getElem?_eq_some_iff.mp hjob).1
        exact ⟨job, (List.getElem?_append_left hlt).trans hjob, hawaited⟩
  · rw [hjobs, hcalls]
    refine forall_getElem?_concat (fun j job hjob hawaited => ?_) fun _ => ?_
    · have hcall := hs.owned j job hjob hawaited
      have hne : i ≠ job.call := by
        intro heq
        cases hget.symm.trans (heq ▸ hcall)
      exact (List.getElem?_set_ne hne).trans hcall
    · exact List.getElem?_set_self (List.getElem?_eq_some_iff.mp hget).1
  · have hcount := countP_set Call.awaits (.awaiting s.jobs.length) hget
    rw [hjobs, hcalls, List.countP_append, hs.counted]
    exact hcount.symm
  · rw [hjobs, hexecutor]
    intro job hmem hqueued
    cases List.mem_append.mp hmem with
    | inl hold =>
        -- where a new executor is made, there was none to have functions waiting
        have hcurrent := hs.queued job hold hqueued
        cases hmade with
        | inl hsame => exact hsame.trans hcurrent
        | inr hnone => cases hnone.trans hcurrent
    | inr hnew =>
        cases List.mem_singleton.mp hnew
        rfl
  · rw [State.holders, hcalls]
    exact countP_set_le hget hs.holders fun _ => .inl rfl
  · intro p
    rw [State.running, hjobs, List.countP_append]
    exact hs.running p

section Advance
variable {j : Nat} {job : Job} {status : Status} (hget : s.jobs[j]? = some job)
  (h : Advances maxWorkers s job status)
include hget h

theorem Invariant.queued_set (awaited : Bool) :
    ∀ job' ∈ s.jobs.set j { job with status, awaited }, job'.status = .queued →
      s.executor = some job'.executor :=
  forall_mem_set hs.queued fun hqueued =>
    hs.queued job (List.mem_of_getElem? hget) (h.queued hqueued)

theorem Invariant.moved : Invariant maxWorkers (s.setJob j { job with status }) := by
  refine ⟨?_, ?_, ?_, hs.queued_set hget h job.awaited, hs.holders, ?_⟩
  · intro i j' hcall
    obtain ⟨job', hjob', hawaited, hown⟩ := hs.awaits i j' hcall
    by_cases hsame : j = j'
    · cases hsame
      cases hget.symm.trans hjob'
      have hlt := (List.getElem?_eq_some_iff.mp hget).1
      exact ⟨_, List.getElem?_set_self hlt, hawaited, hown⟩
    · exact ⟨job', (List.getElem?_set_ne hsame).trans hjob', hawaited, hown⟩
  · intro j' job' hjob' hawaited
    cases getElem?_set_eq_some hjob' with
    | inl hsame =>
        obtain ⟨rfl, rfl⟩ := hsame
        exact hs.owned j' job hget hawaited
    | inr hother => exact hs.owned j' job' hother.2 hawaited
  · have hcount := countP_set Job.awaited { job with status } hget
    exact (Nat.add_right_cancel hcount).trans hs.counted
  · exact fun p => countP_set_le hget (hs.running p) (h.runningIn _)

theorem Invariant.settled {i : Nat} (hcall : s.calls[i]? = some (.awaiting j)) :
    Invariant maxWorkers (s.settle i j job status) := by
  obtain ⟨own, hown, hawaited, hcaller⟩ := hs.awaits i j hcall
  cases hget.symm.trans hown
  refine ⟨?_, ?_, ?_, hs.queued_set hget h false, ?_, ?_⟩
  · intro i' j' hcall'
    cases getElem?_set_eq_some hcall' with
    | inl hsame => cases hsame.2
    | inr hother =>
        obtain ⟨job', hjob', hawaited', hcaller'⟩ := hs.awaits i' j' hother.2
        have hne : j ≠ j' := by
          intro heq
          cases heq
          cases hget.symm.trans hjob'
          exact hother.1 (hcaller'.symm.trans hcaller)
        exact ⟨job', (List.getElem?_set_ne hne).trans hjob', hawaited', hcaller'⟩
  · intro j' job' hjob' hawaited'
    cases getElem?_set_eq_some hjob' with
    | inl hsame =>
        rw [hsame.2] at hawaited'
        cases hawaited'
    | inr hother =>
        have hcall' := hs.owned j' job' hother.2 hawaited'
        have hne : i ≠ job'.call := by
          intro heq
          cases hcall.symm.trans (heq ▸ hcall')
          exact hother.1 rfl
        exact (List.getElem?_set_ne hne).trans hcall'
  · have hjobs := countP_set Job.awaited { job with status, awaited := false } hget
    have hcalls := countP_set Call.awaits .ready hcall
    rw [hawaited, hs.counted] at hjobs
    exact Nat.add_right_cancel (hjobs.trans hcalls.symm)
  · exact countP_set_le hcall hs.holders fun _ => .inl rfl
  · exact fun p => countP_set_le hget (hs.running p) (h.runningIn _)

end Advance

/-- Step: the invariant is kept. -/
theorem Invariant.effect (h : Effect maxWorkers s t) : Invariant maxWorkers t := by
  cases h with
  | shutdown => exact hs.shutdown
  | arrived => exact hs.arrived
  | recalled _ _ _ hget h => exact hs.recalled hget h
  | submitted _ hget => exact hs.submitted hget
  | moved _ _ _ hget h => exact hs.moved hget h
  | settled _ _ _ _ hcall hget h => exact hs.settled hget h hcall

end Steps

theorem invariant_of_run {past : List Action} (h : Run (step maxWorkers) {} past s) :
    Invariant maxWorkers s :=
  Run.invariant (I := fun _ s => Invariant maxWorkers s) (invariant_init maxWorkers)
    (fun _ _ _ _ hs hstep => hs.effect (hs.step_effect hstep)) h

/-! ## Who waits for a thread -/

theorem waiting_add_running_le (hs : Invariant maxWorkers s) (executor : Nat) :
    s.waiting executor + s.running executor ≤ maxWorkers + s.orphans executor := by
  have hkinds : s.waiting executor + s.running executor ≤
      s.jobs.countP Job.awaited + s.orphans executor := by
    refine countP_add_le_add fun job => ?_
    rw [Job.queuedIn, Job.runningIn]
    cases job.status <;> cases job.awaited <;> cases job.executor == executor <;> decide
  have hplaces : s.calls.countP Call.awaits ≤ s.holders := by
    refine List.countP_mono_left fun call _ hawaits => ?_
    cases call with
    | awaiting j => rfl
    | queued | ready | left => cases hawaits
  have hcounted := hs.counted
  have hholders := hs.holders
  omega

theorem take_of_free {executor : Nat} (hcurrent : s.executor = some executor)
    (hwaiting : 0 < s.waiting executor) (hfree : s.running executor < maxWorkers) :
    ∃ t, step maxWorkers s .take = some t := by
  obtain ⟨job, hmem, hjob⟩ := List.countP_pos_iff.mp hwaiting
  have hsome : (s.jobs.findIdx? (Job.queuedIn executor)).isSome = true := by
    rw [List.findIdx?_isSome, List.any_eq_true]
    exact ⟨job, hmem, ((Bool.and_eq_true _ _).mp hjob).1⟩
  obtain ⟨j, hj⟩ := Option.isSome_iff_exists.mp hsome
  obtain ⟨hlt, -⟩ := List.findIdx?_eq_some_iff_getElem.mp hj
  refine ⟨s.setJob j { s.jobs[j] with status := .running }, ?_⟩
  simp [step, hcurrent, hj, hlt, hfree]

/-- An execution that holds a place and handed its function over waits for a thread only
behind functions that outlived the wait for them, and there are as many of those. -/
theorem sync_calls_delayed {past : List Action} (h : Run (step maxWorkers) {} past s)
    {executor : Nat} (hcurrent : s.executor = some executor)
    (hstuck : step maxWorkers s .take = none) : s.waiting executor ≤ s.orphans executor := by
  have hs := invariant_of_run h
  cases Nat.eq_zero_or_pos (s.waiting executor) with
  | inl hnone => exact hnone ▸ Nat.zero_le _
  | inr hwaiting =>
      have hfull : maxWorkers ≤ s.running executor := by
        refine Nat.le_of_not_lt fun hfree => ?_
        obtain ⟨t, ht⟩ := take_of_free hcurrent hwaiting hfree
        cases hstuck.symm.trans ht
      have hle := waiting_add_running_le hs executor
      omega

/-- With one worker: the first execution's function outlives its timeout, and the second,
which got the place, finds the thread still at work. -/
theorem sync_calls_delayed_orphan :
    ∃ past s, Run (step 1) {} past s ∧ s.waiting 0 = 1 ∧ s.waiting 0 ≤ s.orphans 0 := by
  have hend : (([.arrive, .arrive, .enter 0, .submit 0, .take, .giveUp 0, .leave 0, .enter 1,
      .submit 1] : List Action).foldlM (step 1) ({} : State)).any (fun s =>
        s.executor == some 0 && (step 1 s .take).isNone && s.waiting 0 == 1) = true := by
    decide +kernel
  obtain ⟨s, hfold, hs⟩ := (Option.any_eq_true _ _).mp hend
  have hrun := Run.of_foldlM hfold
  simp only [Bool.and_eq_true, beq_iff_eq, Option.isNone_iff_eq_none] at hs
  obtain ⟨⟨hcurrent, hstuck⟩, hwaiting⟩ := hs
  exact ⟨_, s, hrun, hwaiting, sync_calls_delayed hrun hcurrent hstuck⟩

/-! ## What `cleanup` drops -/

def Cancelled (j : Nat) (s : State) : Prop :=
  ∃ job, s.jobs[j]? = some job ∧ job.status = .cancelled

theorem Cancelled.set {j j' : Nat} {job next : Job} (h : Cancelled j s)
    (hget : s.jobs[j']? = some job) (hnext : job.status = .cancelled → next.status = .cancelled) :
    Cancelled j (s.setJob j' next) := by
  obtain ⟨own, hown, hcancelled⟩ := h
  by_cases heq : j' = j
  · cases heq
    cases hget.symm.trans hown
    exact ⟨next, List.getElem?_set_self (List.getElem?_eq_some_iff.mp hget).1, hnext hcancelled⟩
  · exact ⟨own, (List.getElem?_set_ne heq).trans hown, hcancelled⟩

/-- Step: what is cancelled stays so. -/
theorem Cancelled.kept {j : Nat} (h : Cancelled j s) (heffect : Effect maxWorkers s t) :
    Cancelled j t := by
  cases heffect with
  | arrived => exact h
  | recalled _ _ _ _ _ => exact h
  | moved _ _ _ hget hadvances => exact h.set hget hadvances.cancelled
  | settled _ _ _ _ _ hget hadvances => exact h.set hget hadvances.cancelled
  | submitted i _ =>
      obtain ⟨own, hown, hcancelled⟩ := h
      obtain ⟨executor, hjobs, -⟩ := s.submit_jobs i
      refine ⟨own, ?_, hcancelled⟩
      rw [hjobs]
      exact (List.getElem?_append_left (List.getElem?_eq_some_iff.mp hown).1).trans hown
  | shutdown =>
      rw [State.shutdown]
      split
      · exact h
      · next executor hcurrent =>
          obtain ⟨own, hown, hcancelled⟩ := h
          have hkept : own.cancelledBy executor = own := by
            rw [Job.cancelledBy, if_neg (by simp [Job.queuedIn, hcancelled])]
          refine ⟨own, ?_, hcancelled⟩
          rw [List.getElem?_map, hown, Option.map_some, hkept]

theorem cancelled_of_shutdown {j : Nat} {job : Job} (hs : Invariant maxWorkers s)
    (hget : s.jobs[j]? = some job) (hqueued : job.status = .queued) :
    Cancelled j s.shutdown := by
  have hcurrent := hs.queued job (List.mem_of_getElem? hget) hqueued
  refine ⟨{ job with status := .cancelled }, ?_, rfl⟩
  have hcancelled : job.cancelledBy job.executor = { job with status := .cancelled } := by
    rw [Job.cancelledBy, if_pos (by simp [Job.queuedIn, hqueued])]
  simp only [State.shutdown, hcurrent, List.getElem?_map, hget, Option.map_some, hcancelled]

/-- A function that no thread has taken up when `cleanup` comes is cancelled by it, and never
begun, whatever is submitted to the executors made later. -/
theorem dropped_never_begun {past more : List Action} (h : Run (step maxWorkers) {} past s)
    {j : Nat} {job : Job} (hget : s.jobs[j]? = some job) (hqueued : job.status = .queued)
    {u : State} (hshutdown : step maxWorkers s .shutdown = some t)
    (hmore : Run (step maxWorkers) t more u) :
    ∃ job', u.jobs[j]? = some job' ∧ job'.status = .cancelled := by
  cases hshutdown
  have hs := invariant_of_run h
  have hend : Invariant maxWorkers u ∧ Cancelled j u := by
    refine Run.invariant (I := fun _ u => Invariant maxWorkers u ∧ Cancelled j u)
      ⟨hs.shutdown, cancelled_of_shutdown hs hget hqueued⟩ ?_ hmore
    intro _ _ _ _ hkept hstep
    have heffect := hkept.1.step_effect hstep
    exact ⟨hkept.1.effect heffect, hkept.2.kept heffect⟩
  exact hend.2

/-- The second of two functions waits for the only thread when `cleanup` comes, and a third
is begun by the next executor. -/
theorem dropped_never_begun_anew :
    ∃ past s t more u, Run (step 1) {} past s ∧ Run (step 1) t more u ∧
      (∃ job, u.jobs[2]? = some job ∧ job.status = .running) ∧
      ∃ job', u.jobs[1]? = some job' ∧ job'.status = .cancelled := by
  have hfirst : (([.arrive, .arrive, .arrive, .enter 0, .submit 0, .take, .giveUp 0, .leave 0,
      .enter 1, .submit 1] : List Action).foldlM (step 1) ({} : State)).any (fun s =>
        (s.jobs[1]?.any fun job => job.status == .queued) &&
          ((([.reject 1, .leave 1, .enter 2, .submit 2, .take] : List Action).foldlM (step 1)
            s.shutdown).any fun u =>
              u.jobs[2]?.any fun job => job.status == .running)) = true := by
    decide +kernel
  obtain ⟨s, hfold, hs⟩ := (Option.any_eq_true _ _).mp hfirst
  obtain ⟨hqueued, hsecond⟩ := (Bool.and_eq_true _ _).mp hs
  obtain ⟨job, hget, hjob⟩ := (Option.any_eq_true _ _).mp hqueued
  obtain ⟨u, hfold', hu⟩ := (Option.any_eq_true _ _).mp hsecond
  obtain ⟨later, hlater, hrunning⟩ := (Option.any_eq_true _ _).mp hu
  have hrun := Run.of_foldlM hfold
  have hmore := Run.of_foldlM hfold'
  exact ⟨_, s, _, _, u, hrun, hmore, ⟨later, hlater, beq_iff_eq.mp hrunning⟩,
    dropped_never_begun hrun hget (beq_iff_eq.mp hjob) rfl hmore⟩

end DualeAI.SyncTools
