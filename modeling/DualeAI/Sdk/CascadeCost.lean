import DualeAI.Sdk.SubmissionCascade
import Mathlib.Algebra.Order.BigOperators.Group.List
import Mathlib.Algebra.Order.Group.Nat

/-!
What a cascade can cost a task.

A step spends of what the task's open streams and unfinished executions may still
cost. The event that a stream gives leaves it fewer events, and the stream that the
event's answer opens has no more than those.
-/
namespace DualeAI.Cascade
open Foundation Dispatch

section Costs
variable (D : Dispatcher) (logs : TaskLogs)

/-- What may follow from a stream with so many events to come: one step for each
event, and for what the event sets off a stream with fewer events. -/
def budget (work : Nat) : Nat → Nat
  | 0 => 0
  | m + 1 => 2 * budget work m + work

/-- The steps that one event of the log costs at most, its streams apart. -/
def eventWork (log : List BridgeSSEEvent) : Nat := 3 * (log.map (retriesOf D)).sum + 6

def cascadeBudget (taskId : Text) (cursor : Option Text) : Nat :=
  budget (eventWork D (logs.events taskId)) (logs.after taskId cursor).length

variable (taskId : Text)

/-- What the stream of submission `i` may still cost. -/
def streamCost (s : State) (i : Nat) : Nat :=
  match s.dispatch.submissions[i]? with
  | some sub =>
      if sub.delivery.taskId = taskId ∧ s.isOpen (.submission i) = true then
        cascadeBudget D logs taskId (s.cursor (.submission i)) + 1
      else 0
  | none => 0

def executionCost (e : Execution) : Nat :=
  if e.delivery.taskId = taskId then
    phaseCost (D.retries e.delivery.toolUse.name)
      (cascadeBudget D logs taskId e.delivery.lastEventId + 1) e.phase
  else 0

def streamsCost (s : State) : Nat :=
  ∑ i ∈ Finset.range s.dispatch.submissions.length, streamCost D logs taskId s i

def executionsCost (s : Dispatch.State) : Nat :=
  (s.executions.map (executionCost D logs taskId)).sum

/-- The steps that a task may still take. -/
def potential (s : State) : Nat :=
  cascadeBudget D logs taskId (s.cursor (.own taskId)) + streamsCost D logs taskId s +
    executionsCost D logs taskId s.dispatch

variable {D logs taskId}

theorem budget_step {work m m' : Nat} (h : m' < m) : 2 * budget work m' + work ≤ budget work m := by
  induction h with
  | refl => exact Nat.le_refl _
  | step _ ih =>
      rw [budget]
      omega

theorem cascadeBudget_behind {cursor : Option Text} {event : BridgeSSEEvent}
    (h : event ∈ logs.after taskId cursor) :
    2 * cascadeBudget D logs taskId (some event.id) + eventWork D (logs.events taskId) ≤
      cascadeBudget D logs taskId cursor := by
  obtain ⟨read, hsplit⟩ := after_of_mem h
  refine budget_step ?_
  rw [hsplit, List.length_append, List.length_cons]
  omega

theorem cursor_read (s : State) (stream : Stream) (event : BridgeSSEEvent) :
    (s.read stream event).cursor stream = some event.id := by
  have hread : (s.read stream event).lastRead stream = some event.id := Function.update_self _ _ _
  rw [State.cursor, hread, Option.some_or]

theorem cursor_own {s t : State} (h : t.lastRead (.own taskId) = s.lastRead (.own taskId)) :
    t.cursor (.own taskId) = s.cursor (.own taskId) := by
  rw [State.cursor, State.cursor, h]
  rfl

variable (D logs taskId)

theorem streamCost_congr {s t : State} {i : Nat}
    (hsub : t.dispatch.submissions[i]? = s.dispatch.submissions[i]?)
    (hended : t.isOpen (.submission i) = s.isOpen (.submission i))
    (hread : t.lastRead (.submission i) = s.lastRead (.submission i)) :
    streamCost D logs taskId t i = streamCost D logs taskId s i := by
  simp only [streamCost, State.cursor, State.opening, hsub, hended, hread]

/-- A stream that was just opened. -/
theorem streamsCost_concat {s t : State} {sub : Submission} (hs : Opened s)
    (hsubmissions : t.dispatch.submissions = s.dispatch.submissions ++ [sub])
    (hended : t.dispatch.ended = s.dispatch.ended) (hread : t.lastRead = s.lastRead) :
    streamsCost D logs taskId t = streamsCost D logs taskId s +
      if sub.delivery.taskId = taskId then
        cascadeBudget D logs taskId sub.delivery.lastEventId + 1
      else 0 := by
  have hopen (i : Nat) : t.isOpen (.submission i) = s.isOpen (.submission i) := by
    rw [State.isOpen, State.isOpen, hended]
  have hnew : streamCost D logs taskId t s.dispatch.submissions.length =
      if sub.delivery.taskId = taskId then
        cascadeBudget D logs taskId sub.delivery.lastEventId + 1
      else 0 := by
    have hlength := Nat.le_refl s.dispatch.submissions.length
    simp [streamCost, State.cursor, State.opening, hsubmissions, hread, hs.lastRead _ hlength,
      hopen, hs.ended _ hlength]
  rw [streamsCost, hsubmissions, List.length_append, List.length_singleton, Finset.sum_range_succ,
    hnew, streamsCost]
  refine congrArg (· + _) (Finset.sum_congr rfl fun i hi => ?_)
  refine streamCost_congr D logs taskId ?_ (hopen i) (by rw [hread])
  rw [hsubmissions, List.getElem?_append_left (Finset.mem_range.mp hi)]

theorem streamsCost_congr {s t : State}
    (hsubmissions : t.dispatch.submissions = s.dispatch.submissions)
    (hended : t.dispatch.ended = s.dispatch.ended)
    (hread : ∀ i, t.lastRead (.submission i) = s.lastRead (.submission i)) :
    streamsCost D logs taskId t = streamsCost D logs taskId s := by
  rw [streamsCost, streamsCost, hsubmissions]
  refine Finset.sum_congr rfl fun i _ => ?_
  refine streamCost_congr D logs taskId (by rw [hsubmissions]) ?_ (hread i)
  rw [State.isOpen, State.isOpen, hended]

theorem streamCost_read (s : State) {i j : Nat} (event : BridgeSSEEvent) (h : j ≠ i) :
    streamCost D logs taskId (s.read (.submission i) event) j = streamCost D logs taskId s j :=
  streamCost_congr D logs taskId rfl rfl (read_of_ne fun heq => h (Stream.submission.inj heq))

/-- Reading an event moves the share of its stream. -/
theorem potential_read {s : State} {stream : Stream} (event : BridgeSSEEvent)
    (htask : s.taskOf stream = some taskId) (hopen : s.isOpen stream = true) :
    potential D logs taskId (s.read stream event) + cascadeBudget D logs taskId (s.cursor stream) =
      potential D logs taskId s + cascadeBudget D logs taskId (some event.id) := by
  cases stream with
  | own own =>
      cases htask
      have hstreams : streamsCost D logs taskId (s.read (.own taskId) event) =
          streamsCost D logs taskId s :=
        streamsCost_congr D logs taskId rfl rfl fun i => read_of_ne fun heq => by cases heq
      simp only [potential, hstreams, cursor_read]
      simp only [State.read]
      omega
  | submission i =>
      obtain ⟨sub, hsub, hsubTask⟩ := Option.map_eq_some_iff.mp htask
      have hown : (s.read (.submission i) event).cursor (.own taskId) = s.cursor (.own taskId) :=
        cursor_own (read_of_ne fun heq => by cases heq)
      have hsum := sum_range_change (List.getElem?_eq_some_iff.mp hsub).1
        fun j hj => streamCost_read D logs taskId s event hj
      have hbefore : streamCost D logs taskId s i =
          cascadeBudget D logs taskId (s.cursor (.submission i)) + 1 := by
        simp [streamCost, hsub, hsubTask, hopen]
      have hafter : streamCost D logs taskId (s.read (.submission i) event) i =
          cascadeBudget D logs taskId (some event.id) + 1 := by
        have hopen : (s.read (.submission i) event).isOpen (.submission i) = true := hopen
        have hsub : (s.read (.submission i) event).dispatch.submissions[i]? = some sub := hsub
        simp [streamCost, hsub, hsubTask, hopen, cursor_read]
      rw [hbefore, hafter] at hsum
      simp only [potential, hown, streamsCost]
      simp only [State.read] at hsum ⊢
      omega

/-- Another task's stream. -/
theorem potential_read_of_ne {s : State} {stream : Stream} (event : BridgeSSEEvent) {other : Text}
    (htask : s.taskOf stream = some other) (hne : other ≠ taskId) :
    potential D logs taskId (s.read stream event) = potential D logs taskId s := by
  have hown : (s.read stream event).cursor (.own taskId) = s.cursor (.own taskId) := by
    refine cursor_own (read_of_ne fun heq => ?_)
    subst heq
    exact hne (Option.some.inj htask).symm
  have hstreams : streamsCost D logs taskId (s.read stream event) =
      streamsCost D logs taskId s := by
    refine Finset.sum_congr rfl fun i _ => ?_
    by_cases heq : Stream.submission i = stream
    · subst heq
      obtain ⟨sub, hsub, hsubTask⟩ := Option.map_eq_some_iff.mp htask
      have hsub' : (s.read (.submission i) event).dispatch.submissions[i]? = some sub := hsub
      simp [streamCost, hsub, hsub', hsubTask, hne]
    · exact streamCost_congr D logs taskId rfl rfl (read_of_ne heq)
  simp only [potential, hown, hstreams]
  rfl

theorem executionsCost_concat {s t : Dispatch.State} {e : Execution}
    (h : t.executions = s.executions ++ [e]) :
    executionsCost D logs taskId t =
      executionsCost D logs taskId s + executionCost D logs taskId e := by
  rw [executionsCost, h, List.map_append, List.sum_append, List.map_singleton,
    List.sum_singleton, executionsCost]

theorem executionsCost_congr {s t : Dispatch.State} (h : t.executions = s.executions) :
    executionsCost D logs taskId t = executionsCost D logs taskId s := by
  rw [executionsCost, h, executionsCost]

theorem retriesOf_le {cursor : Option Text} {event : BridgeSSEEvent}
    (h : event ∈ logs.after taskId cursor) :
    3 * retriesOf D event + 6 ≤ eventWork D (logs.events taskId) := by
  have hmem := (Log.after_isSuffix cursor (logs.events taskId)).subset h
  have hle : retriesOf D event ≤ ((logs.events taskId).map (retriesOf D)).sum :=
    List.le_sum_of_mem (List.mem_map_of_mem hmem)
  rw [eventWork]
  omega

/-- What is handed on costs no more than the event had to spare. -/
theorem potential_adds {s t : State} {task : Text} {stream : Stream} {event : BridgeSSEEvent}
    (hs : Opened s) (h : Adds D task stream event s.dispatch t.dispatch)
    (hended : t.dispatch.ended = s.dispatch.ended) (hread : t.lastRead = s.lastRead) :
    potential D logs taskId t ≤ potential D logs taskId s +
      if task = taskId then
        cascadeBudget D logs taskId (some event.id) + (3 * retriesOf D event + 5)
      else 0 := by
  have hown : t.cursor (.own taskId) = s.cursor (.own taskId) := cursor_own (by rw [hread])
  cases h with
  | nothing hexecutions hsubmissions =>
      have hstreams := streamsCost_congr D logs taskId hsubmissions hended fun i => by rw [hread]
      simp only [potential, hown, hstreams, executionsCost_congr D logs taskId hexecutions]
      exact Nat.le_add_right _ _
  | submission sub hsub hexecutions hsubmissions =>
      have hstreams := streamsCost_concat D logs taskId hs hsubmissions hended hread
      rw [hsub.taskId, hsub.lastEventId] at hstreams
      simp only [potential, hown, hstreams, executionsCost_congr D logs taskId hexecutions]
      split <;> omega
  | execution e he hphase hexecutions hsubmissions =>
      have hstreams := streamsCost_congr D logs taskId hsubmissions hended fun i => by rw [hread]
      have hcost : executionCost D logs taskId e = if task = taskId then
          3 * retriesOf D event + 4 + (cascadeBudget D logs taskId (some event.id) + 1)
        else 0 := by
        rw [executionCost, he.taskId, he.lastEventId, he.retries, hphase, phaseCost]
      simp only [potential, hown, hstreams, executionsCost_concat D logs taskId hexecutions, hcost]
      split <;> omega

/-- A stage of an execution costs its task a step. -/
theorem potential_advances {s t : State} {n : Nat} {e : Execution} (hs : Opened s)
    (hget : s.dispatch.executions[n]? = some e)
    (h : Advances D n e s.dispatch t.dispatch) (hended : t.dispatch.ended = s.dispatch.ended)
    (hread : t.lastRead = s.lastRead) :
    potential D logs taskId t + (if e.delivery.taskId = taskId then 1 else 0) ≤
      potential D logs taskId s := by
  have hown : t.cursor (.own taskId) = s.cursor (.own taskId) := cursor_own (by rw [hread])
  cases h with
  | moved f hf hphase hexecutions hsubmissions =>
      have hstreams := streamsCost_congr D logs taskId hsubmissions hended fun i => by rw [hread]
      have hsum := sum_map_modify f (executionCost D logs taskId) hget
      rw [← hexecutions] at hsum
      have hcost := hphase (cascadeBudget D logs taskId e.delivery.lastEventId + 1)
      have hless : executionCost D logs taskId (f e) +
          (if e.delivery.taskId = taskId then 1 else 0) ≤ executionCost D logs taskId e := by
        rw [executionCost, executionCost, hf]
        split <;> omega
      simp only [potential, hown, hstreams, executionsCost]
      omega
  | recorded f hf hphase hcost sub hsub hexecutions hsubmissions =>
      have hstreams := streamsCost_concat D logs taskId hs hsubmissions hended hread
      have hsum := sum_map_modify f (executionCost D logs taskId) hget
      rw [← hexecutions] at hsum
      have hanswer := hcost (cascadeBudget D logs taskId e.delivery.lastEventId + 1)
      have hdone : executionCost D logs taskId (f e) = 0 := by
        rw [executionCost, hphase, phaseCost, ite_self]
      have hless : (if e.delivery.taskId = taskId then
          cascadeBudget D logs taskId e.delivery.lastEventId + 1 else 0) +
          (if e.delivery.taskId = taskId then 1 else 0) ≤ executionCost D logs taskId e := by
        rw [executionCost]
        split <;> omega
      rw [hsub] at hstreams
      simp only [potential, hown, hstreams, executionsCost]
      omega

/-- The end of a submission's stream costs its task a step. -/
theorem potential_ends {s t : State} {i : Nat} {sub : Submission} {failed : Bool}
    (hget : s.dispatch.submissions[i]? = some sub) (hopen : s.isOpen (.submission i) = true)
    (hdispatch : t.dispatch = { s.dispatch with ended := s.dispatch.ended ++ [(i, failed)] })
    (hread : t.lastRead = s.lastRead) :
    potential D logs taskId t + (if sub.delivery.taskId = taskId then 1 else 0) ≤
      potential D logs taskId s := by
  have hown : t.cursor (.own taskId) = s.cursor (.own taskId) := cursor_own (by rw [hread])
  have hsubmissions : t.dispatch.submissions = s.dispatch.submissions := by rw [hdispatch]
  have hexecutions : t.dispatch.executions = s.dispatch.executions := by rw [hdispatch]
  have hended (j : Nat) :
      t.isOpen (.submission j) = (s.isOpen (.submission j) && !decide (j = i)) := by
    simp [State.isOpen, hdispatch]
  have hsum := sum_range_change (List.getElem?_eq_some_iff.mp hget).1
    (f := streamCost D logs taskId s) (g := streamCost D logs taskId t) fun j hj =>
      streamCost_congr D logs taskId (by rw [hsubmissions]) (by simp [hended, hj]) (by rw [hread])
  have hbefore :
      (if sub.delivery.taskId = taskId then 1 else 0) ≤ streamCost D logs taskId s i := by
    simp only [streamCost, hget, hopen, and_true]
    split <;> omega
  have hafter : streamCost D logs taskId t i = 0 := by
    simp [streamCost, hsubmissions, hget, hended]
  rw [hafter] at hsum
  simp only [potential, hown, streamsCost, hsubmissions,
    executionsCost_congr D logs taskId hexecutions]
  omega

/-! ## Runs -/

variable {D logs}

/-- Step: what a task has spent and what it may still spend do not grow. -/
theorem Turn.potential_le {s t : State} {task : Text} (h : Turn D logs task s t) (hs : Opened s) :
    potential D logs taskId t + (if task = taskId then 1 else 0) ≤ potential D logs taskId s := by
  cases h with
  | received stream event htask hevent hopen hadds hended hread =>
      have hadded := potential_adds D logs taskId (s := s.read stream event) (t := t)
        (hs.read htask event) hadds hended hread
      by_cases heq : task = taskId
      · subst heq
        have hmoved := potential_read D logs task event htask hopen
        have hbehind := cascadeBudget_behind (D := D) hevent
        have hretries := retriesOf_le D logs task hevent
        simp only [if_true] at hadded ⊢
        omega
      · have hsame := potential_read_of_ne D logs taskId event htask heq
        simp only [if_neg heq] at hadded ⊢
        omega
  | advanced n e hget htask hadvances hended hread =>
      rw [← htask]
      exact potential_advances D logs taskId hs hget hadvances hended hread
  | ended i sub failed hget htask hopen hdispatch hread =>
      rw [← htask]
      exact potential_ends D logs taskId hget hopen hdispatch hread

theorem steps_of_run {past : List Action} {s : State} (h : Run (step D logs) {} past s) :
    s.steps.length = past.length ∧
      s.steps.count taskId + potential D logs taskId s ≤ cascadeBudget D logs taskId none := by
  refine Run.invariant_of (I := fun _ s => Opened s) (J := fun past s =>
    s.steps.length = past.length ∧
      s.steps.count taskId + potential D logs taskId s ≤ cascadeBudget D logs taskId none)
    (fun _ _ => opened_of_run) ⟨rfl, Nat.le_of_eq (Nat.zero_add _)⟩ ?_ h
  intro past s a t hopened ⟨hlength, hspent⟩ hstep
  obtain ⟨task, hsteps, hturn⟩ := step_turn hstep
  have hle := hturn.potential_le taskId hopened
  refine ⟨by simp [hsteps, hlength], ?_⟩
  rw [hsteps, List.count_append, List.count_singleton]
  simp only [beq_iff_eq]
  omega

end Costs
end DualeAI.Cascade
