import DualeAI.Events.StreamResume
import DualeAI.Sdk.ToolReplay
import Mathlib.Logic.Function.Basic

/-!
The cascade of submissions that the stream of a task sets off.

Each stream is read behind the cursor that the transport keeps for it: at first the
one of the event that the submission answers, then that of the last event read. What
a stream gives may start an execution or send a recorded result again, and either
opens one more stream. A step is charged to the task it works for.
-/
namespace DualeAI.Cascade
open Foundation Dispatch

/-- The events of each task, in the order and under the cursors the Bridge keeps. -/
structure TaskLogs where
  events : Text → List BridgeSSEEvent
  cursors : ∀ taskId, ((events taskId).map BridgeSSEEvent.id).Nodup

def TaskLogs.after (logs : TaskLogs) (taskId : Text) (cursor : Option Text) : List BridgeSSEEvent :=
  Log.after BridgeSSEEvent.id cursor (logs.events taskId)

inductive Stream where
  | own (taskId : Text)
  | submission (i : Nat)
deriving DecidableEq

def Stream.origin : Stream → Option Nat
  | .own _ => none
  | .submission i => some i

structure State where
  dispatch : Dispatch.State := {}
  /-- `current_last_event_id` of the streams that have given an event. -/
  lastRead : Stream → Option Text := fun _ => none
  /-- The task of each step taken. -/
  steps : List Text := []

inductive Action where
  | receive (stream : Stream) (cursor : Text) (now : Int)
  | proceed (a : Dispatch.Action)

namespace State

def taskOf (s : State) : Stream → Option Text
  | .own taskId => some taskId
  | .submission i => s.dispatch.submissions[i]?.map fun sub => sub.delivery.taskId

def isOpen (s : State) : Stream → Bool
  | .own _ => true
  | .submission i => !(s.dispatch.ended.map Prod.fst).contains i

/-- The cursor a stream is opened with. -/
def opening (s : State) : Stream → Option Text
  | .own _ => none
  | .submission i => s.dispatch.submissions[i]?.bind fun sub => sub.delivery.lastEventId

def cursor (s : State) (stream : Stream) : Option Text := (s.lastRead stream).or (s.opening stream)

def read (stream : Stream) (event : BridgeSSEEvent) (s : State) : State :=
  { s with lastRead := Function.update s.lastRead stream (some event.id) }

def actor (s : State) : Dispatch.Action → Option Text
  | .deliver _ => none
  | .endSubmission i _ => s.taskOf (.submission i)
  | a => a.execution.bind fun n => s.dispatch.executions[n]?.map fun e => e.delivery.taskId

end State

section Steps
variable (D : Dispatcher) (logs : TaskLogs)

/-- What an event of a stream does to the dispatch: only a tool use is handed on. -/
def dispatchEvent (taskId : Text) (stream : Stream) (event : BridgeSSEEvent) (now : Int)
    (s : Dispatch.State) : Option Dispatch.State :=
  match event.data with
  | .toolUse call => Dispatch.step D s (.deliver ⟨taskId, call, some event.id, stream.origin, now⟩)
  | _ => some s

def step (s : State) : Action → Option State
  | .receive stream cursor now => do
      let taskId ← s.taskOf stream
      let event ← (logs.after taskId (s.cursor stream)).find? fun event => event.id == cursor
      if s.isOpen stream then
        let dispatch ← dispatchEvent D taskId stream event now s.dispatch
        return { s.read stream event with dispatch := dispatch, steps := s.steps ++ [taskId] }
      else none
  | .proceed a => do
      let taskId ← s.actor a
      let dispatch ← Dispatch.step D s.dispatch a
      return { s with dispatch := dispatch, steps := s.steps ++ [taskId] }

def retriesOf (event : BridgeSSEEvent) : Nat :=
  match event.data with
  | .toolUse call => D.retries call.name
  | _ => 0

variable {D logs}

theorem receive_some {s t : State} {stream : Stream} {cursor : Text} {now : Int}
    (h : step D logs s (.receive stream cursor now) = some t) :
    ∃ taskId event, s.taskOf stream = some taskId ∧
      event ∈ logs.after taskId (s.cursor stream) ∧ s.isOpen stream = true ∧
      dispatchEvent D taskId stream event now s.dispatch = some t.dispatch ∧
      t.lastRead = Function.update s.lastRead stream (some event.id) ∧
      t.steps = s.steps ++ [taskId] := by
  obtain ⟨taskId, htask, hevent⟩ := Option.bind_eq_some_iff.mp h
  obtain ⟨event, hfind, hguard⟩ := Option.bind_eq_some_iff.mp hevent
  obtain ⟨hopen, hbody⟩ := Option.ite_none_right_eq_some.mp hguard
  obtain ⟨dispatch, hdispatch, hret⟩ := Option.bind_eq_some_iff.mp hbody
  cases hret
  exact ⟨taskId, event, htask, List.mem_of_find?_eq_some hfind, hopen, hdispatch, rfl, rfl⟩

theorem proceed_some {s t : State} {a : Dispatch.Action}
    (h : step D logs s (.proceed a) = some t) :
    ∃ taskId, s.actor a = some taskId ∧ Dispatch.step D s.dispatch a = some t.dispatch ∧
      t.lastRead = s.lastRead ∧ t.steps = s.steps ++ [taskId] := by
  obtain ⟨taskId, hactor, hbind⟩ := Option.bind_eq_some_iff.mp h
  obtain ⟨dispatch, hdispatch, hret⟩ := Option.bind_eq_some_iff.mp hbind
  cases hret
  exact ⟨taskId, hactor, hdispatch, rfl, rfl⟩

/-- The delivery that hands an event of a stream on. -/
structure Hands (D : Dispatcher) (taskId : Text) (stream : Stream) (event : BridgeSSEEvent)
    (d : Delivery) : Prop where
  taskId : d.taskId = taskId
  lastEventId : d.lastEventId = some event.id
  origin : d.origin = stream.origin
  retries : D.retries d.toolUse.name = retriesOf D event

/-- What an event adds to the dispatch: nothing, the submission of a recorded result
or an execution. -/
inductive Adds (D : Dispatcher) (taskId : Text) (stream : Stream) (event : BridgeSSEEvent)
    (s t : Dispatch.State) : Prop where
  | nothing (hexecutions : t.executions = s.executions)
      (hsubmissions : t.submissions = s.submissions)
  | submission (sub : Submission) (hsub : Hands D taskId stream event sub.delivery)
      (hexecutions : t.executions = s.executions)
      (hsubmissions : t.submissions = s.submissions ++ [sub])
  | execution (e : Execution) (he : Hands D taskId stream event e.delivery)
      (hphase : e.phase = .queued) (hexecutions : t.executions = s.executions ++ [e])
      (hsubmissions : t.submissions = s.submissions)

theorem dispatchEvent_some {taskId : Text} {stream : Stream} {event : BridgeSSEEvent} {now : Int}
    {s t : Dispatch.State} (h : dispatchEvent D taskId stream event now s = some t) :
    t.ended = s.ended ∧ Adds D taskId stream event s t := by
  rw [dispatchEvent] at h
  split at h
  · next call hdata =>
      have hands : Hands D taskId stream event
          ⟨taskId, call, some event.id, stream.origin, now⟩ :=
        ⟨rfl, rfl, rfl, by rw [retriesOf, hdata]⟩
      obtain ⟨-, hstep⟩ := Option.ite_none_right_eq_some.mp h
      cases hstep
      have heffect := scheduleToolUse_effect (D := D)
        ⟨taskId, call, some event.id, stream.origin, now⟩ s
      generalize scheduleToolUse D ⟨taskId, call, some event.id, stream.origin, now⟩ s = t
        at heffect
      cases heffect with
      | ignored d h => exact ⟨rfl, .nothing rfl rfl⟩
      | resubmitted d n e result hhandles hentry hresult =>
          exact ⟨rfl, .submission _ hands rfl rfl⟩
      | duplicate d n e hhandles hentry hresult => exact ⟨rfl, .nothing rfl rfl⟩
      | scheduled d deadlineAt hhandles hdeadline hentry =>
          exact ⟨rfl, .execution _ hands rfl rfl rfl⟩
      | moved a n e phase ha hget hmoves => cases ha
      | recorded a n e outcome ha hget hopen => cases ha
  · cases h
    exact ⟨rfl, .nothing rfl rfl⟩

/-! ## The stages of an execution -/

/-- What an execution may still cost, `answer` being what its answer may. -/
def phaseCost (retries answer : Nat) : Phase → Nat
  | .recorded | .aborted => 0
  | .failed attempt => 3 * (retries + 1 - attempt) + 1 + answer
  | .running attempt => 3 * (retries + 1 - attempt) + 2 + answer
  | .ready attempt => 3 * (retries + 1 - attempt) + 3 + answer
  | .queued => 3 * retries + 4 + answer

/-- A stage moves its execution on, or ends it with a submission. -/
inductive Advances (D : Dispatcher) (n : Nat) (e : Execution) (s t : Dispatch.State) : Prop where
  | moved (f : Execution → Execution) (hf : (f e).delivery = e.delivery)
      (hphase : ∀ answer, phaseCost (D.retries e.delivery.toolUse.name) answer (f e).phase <
        phaseCost (D.retries e.delivery.toolUse.name) answer e.phase)
      (hexecutions : t.executions = s.executions.modify n f)
      (hsubmissions : t.submissions = s.submissions)
  | recorded (f : Execution → Execution) (hf : (f e).delivery = e.delivery)
      (hphase : (f e).phase = .recorded)
      (hcost : ∀ answer, answer < phaseCost (D.retries e.delivery.toolUse.name) answer e.phase)
      (sub : Submission) (hsub : sub.delivery = e.delivery)
      (hexecutions : t.executions = s.executions.modify n f)
      (hsubmissions : t.submissions = s.submissions ++ [sub])

theorem stage_advances {n : Nat} {e : Execution} {s t : Dispatch.State} {a : Dispatch.Action}
    (ha : a.execution = some n) (h : stage D n e s a = some t) :
    t.ended = s.ended ∧ Advances D n e s t := by
  cases a with
  | deliver d | endSubmission i failed => cases ha
  | acquire m =>
      obtain ⟨⟨hphase, -⟩, hmoved⟩ := Option.ite_none_right_eq_some.mp h
      cases hmoved
      refine ⟨rfl, .moved _ rfl (fun answer => ?_) rfl rfl⟩
      simp only [hphase, phaseCost]
      omega
  | reject m message =>
      obtain ⟨hphase, hrecord⟩ := Option.ite_none_right_eq_some.mp h
      cases hrecord
      refine ⟨rfl, .recorded _ rfl rfl (fun answer => ?_) _ rfl rfl rfl⟩
      simp only [hphase, phaseCost]
      omega
  | attempt m now =>
      simp only [stage] at h
      split at h
      · next attempt hphase =>
          split at h
          · cases h
            refine ⟨rfl, .moved _ rfl (fun answer => ?_) rfl rfl⟩
            simp only [hphase, phaseCost]
            omega
          · cases h
            refine ⟨rfl, .moved _ rfl (fun answer => ?_) rfl rfl⟩
            simp only [hphase, phaseCost]
            omega
      · cases h
  | finish m runEnd =>
      simp only [stage] at h
      split at h
      · next hphase =>
          cases h
          refine ⟨rfl, .recorded _ rfl rfl (fun answer => ?_) _ rfl rfl rfl⟩
          simp only [hphase, phaseCost]
          omega
      · next hphase =>
          cases h
          refine ⟨rfl, .moved _ rfl (fun answer => ?_) rfl rfl⟩
          simp only [hphase, phaseCost]
          omega
      · cases h
  | settle m elapsed message =>
      simp only [stage] at h
      split at h
      · next attempt hphase =>
          split at h
          · cases h
            refine ⟨rfl, .recorded _ rfl rfl (fun answer => ?_) _ rfl rfl rfl⟩
            simp only [hphase, phaseCost]
            omega
          · next hgoes =>
              cases h
              refine ⟨rfl, .moved _ rfl (fun answer => ?_) rfl rfl⟩
              simp only [hphase, phaseCost]
              omega
      · cases h
  | abort m =>
      obtain ⟨hguard, hmoved⟩ := Option.ite_none_left_eq_some.mp h
      cases hmoved
      refine ⟨rfl, .moved _ rfl (fun answer => ?_) rfl rfl⟩
      cases hphase : e.phase with
      | recorded => exact absurd (.inl hphase) hguard
      | aborted => exact absurd (.inr hphase) hguard
      | queued | ready attempt | running attempt | failed attempt =>
          simp only [phaseCost]
          omega

/-! ## Turns -/

/-- What an action comes to. -/
inductive Turn (D : Dispatcher) (logs : TaskLogs) (task : Text) (s t : State) : Prop where
  | received (stream : Stream) (event : BridgeSSEEvent) (htask : s.taskOf stream = some task)
      (hevent : event ∈ logs.after task (s.cursor stream)) (hopen : s.isOpen stream = true)
      (hadds : Adds D task stream event s.dispatch t.dispatch)
      (hended : t.dispatch.ended = s.dispatch.ended)
      (hread : t.lastRead = (s.read stream event).lastRead)
  | advanced (n : Nat) (e : Execution) (hget : s.dispatch.executions[n]? = some e)
      (htask : e.delivery.taskId = task) (hadvances : Advances D n e s.dispatch t.dispatch)
      (hended : t.dispatch.ended = s.dispatch.ended) (hread : t.lastRead = s.lastRead)
  | ended (i : Nat) (sub : Submission) (failed : Bool)
      (hget : s.dispatch.submissions[i]? = some sub) (htask : sub.delivery.taskId = task)
      (hopen : s.isOpen (.submission i) = true)
      (hdispatch : t.dispatch = { s.dispatch with ended := s.dispatch.ended ++ [(i, failed)] })
      (hread : t.lastRead = s.lastRead)

theorem step_turn {s t : State} {a : Action} (h : step D logs s a = some t) :
    ∃ task, t.steps = s.steps ++ [task] ∧ Turn D logs task s t := by
  cases a with
  | receive stream cursor now =>
      obtain ⟨task, event, htask, hevent, hopen, hdispatch, hread, hsteps⟩ := receive_some h
      obtain ⟨hended, hadds⟩ := dispatchEvent_some hdispatch
      exact ⟨task, hsteps, .received stream event htask hevent hopen hadds hended hread⟩
  | proceed a =>
      obtain ⟨task, hactor, hdispatch, hread, hsteps⟩ := proceed_some h
      refine ⟨task, hsteps, ?_⟩
      have hstage (hactor : (a.execution.bind fun n => s.dispatch.executions[n]?.map fun e =>
            e.delivery.taskId) = some task)
          (hdispatch : (a.execution.bind fun n => s.dispatch.executions[n]?.bind fun e =>
            stage D n e s.dispatch a) = some t.dispatch) : Turn D logs task s t := by
        obtain ⟨n, hn, hbind⟩ := Option.bind_eq_some_iff.mp hdispatch
        obtain ⟨e, hget, hstep⟩ := Option.bind_eq_some_iff.mp hbind
        obtain ⟨hended, hadvances⟩ := stage_advances hn hstep
        rw [hn, Option.bind_some, hget, Option.map_some, Option.some.injEq] at hactor
        exact .advanced n e hget hactor hadvances hended hread
      cases a with
      | deliver d => cases hactor
      | endSubmission i failed =>
          obtain ⟨sub, hget, hsub⟩ := Option.map_eq_some_iff.mp hactor
          obtain ⟨⟨-, hopen⟩, heq⟩ := Option.ite_none_right_eq_some.mp hdispatch
          exact .ended i sub failed hget hsub (by rw [State.isOpen, hopen]; rfl)
            (Option.some.inj heq).symm hread
      | acquire n | reject n message | attempt n now | finish n runEnd
      | settle n elapsed message | abort n => exact hstage hactor hdispatch

/-- Streams that are not open yet have given nothing and have not ended. -/
structure Opened (s : State) : Prop where
  lastRead : ∀ i, s.dispatch.submissions.length ≤ i → s.lastRead (.submission i) = none
  ended : ∀ i, s.dispatch.submissions.length ≤ i → s.isOpen (.submission i) = true

variable {taskId : Text}

theorem read_of_ne {s : State} {stream other : Stream} {event : BridgeSSEEvent}
    (h : other ≠ stream) : (s.read stream event).lastRead other = s.lastRead other :=
  Function.update_of_ne h _ _

theorem Opened.of_extends {s t : State} (hs : Opened s)
    (hle : s.dispatch.submissions.length ≤ t.dispatch.submissions.length)
    (hended : t.dispatch.ended = s.dispatch.ended) (hread : t.lastRead = s.lastRead) :
    Opened t := by
  refine ⟨fun i hi => ?_, fun i hi => ?_⟩
  · rw [hread]
    exact hs.lastRead i (Nat.le_trans hle hi)
  · rw [State.isOpen, hended]
    exact hs.ended i (Nat.le_trans hle hi)

theorem Opened.read {s : State} (hs : Opened s) {stream : Stream} {task : Text}
    (htask : s.taskOf stream = some task) (event : BridgeSSEEvent) :
    Opened (s.read stream event) := by
  refine ⟨fun i hi => ?_, hs.ended⟩
  refine (read_of_ne fun heq => ?_).trans (hs.lastRead i hi)
  subst heq
  obtain ⟨sub, hget, -⟩ := Option.map_eq_some_iff.mp htask
  exact absurd (List.getElem?_eq_some_iff.mp hget).1 (Nat.not_lt.mpr hi)

theorem Adds.submissions {task : Text} {stream : Stream} {event : BridgeSSEEvent}
    {s t : Dispatch.State} (h : Adds D task stream event s t) :
    s.submissions <+: t.submissions := by
  cases h with
  | nothing hexecutions hsubmissions | execution e he hphase hexecutions hsubmissions =>
      rw [hsubmissions]
  | submission sub hsub hexecutions hsubmissions =>
      rw [hsubmissions]
      exact List.prefix_append _ _

theorem Advances.submissions {n : Nat} {e : Execution} {s t : Dispatch.State}
    (h : Advances D n e s t) : s.submissions <+: t.submissions := by
  cases h with
  | moved f hf hphase hexecutions hsubmissions => rw [hsubmissions]
  | recorded f hf hphase hcost sub hsub hexecutions hsubmissions =>
      rw [hsubmissions]
      exact List.prefix_append _ _

theorem Turn.opened {s t : State} {task : Text} (h : Turn D logs task s t) (hs : Opened s) :
    Opened t := by
  cases h with
  | received stream event htask hevent hopen hadds hended hread =>
      exact (hs.read htask event).of_extends hadds.submissions.length_le hended hread
  | advanced n e hget htask hadvances hended hread =>
      exact hs.of_extends hadvances.submissions.length_le hended hread
  | ended i sub failed hget htask hopen hdispatch hread =>
      refine ⟨fun j hj => ?_, fun j hj => ?_⟩
      · rw [hdispatch] at hj
        rw [hread]
        exact hs.lastRead j hj
      · rw [hdispatch] at hj
        have hlast := hs.ended j hj
        have hne : j ≠ i := by
          have hlt := (List.getElem?_eq_some_iff.mp hget).1
          have hj : s.dispatch.submissions.length ≤ j := hj
          omega
        simp only [State.isOpen, hdispatch] at hlast ⊢
        simpa [hne] using hlast

theorem opened_of_run {past : List Action} {s : State} (h : Run (step D logs) {} past s) :
    Opened s := by
  refine h.invariant (I := fun _ s => Opened s) ⟨fun _ _ => rfl, fun _ _ => rfl⟩ ?_
  intro past s a t hopened hstep
  obtain ⟨task, -, hturn⟩ := step_turn hstep
  exact hturn.opened hopened

/-! ## The transport -/

theorem after_of_mem {cursor : Option Text} {event : BridgeSSEEvent}
    (h : event ∈ logs.after taskId cursor) :
    ∃ read, logs.after taskId cursor = read ++ event :: logs.after taskId (some event.id) := by
  obtain ⟨read, rest, hsplit⟩ := List.append_of_mem h
  have hread : logs.after taskId cursor = (read ++ [event]) ++ rest := by
    rw [List.append_assoc]
    exact hsplit
  have hafter := Log.after_advance (logs.cursors taskId) hread
  rw [Log.advance_concat] at hafter
  exact ⟨read, by rw [hsplit, ← hafter]; rfl⟩

theorem find?_cursor {cursor : Option Text} {event : BridgeSSEEvent}
    (h : event ∈ logs.after taskId cursor) :
    (logs.after taskId cursor).find? (fun other => other.id == event.id) = some event := by
  have hsublist : List.Sublist (logs.after taskId cursor) (logs.events taskId) :=
    (Log.after_isSuffix cursor (logs.events taskId)).sublist
  have hcursors : ((logs.after taskId cursor).map BridgeSSEEvent.id).Nodup :=
    (logs.cursors taskId).sublist (hsublist.map _)
  cases hfind : (logs.after taskId cursor).find? (fun other => other.id == event.id) with
  | none => exact absurd (beq_self_eq_true event.id) (List.find?_eq_none.mp hfind event h)
  | some other =>
      have hid : other.id = event.id := by simpa using List.find?_some hfind
      rw [List.inj_on_of_nodup_map hcursors (List.mem_of_find?_eq_some hfind) h hid]

/-- An open stream can be given any event behind its cursor. -/
theorem receive_of_mem {s : State} {stream : Stream} {event : BridgeSSEEvent}
    (htask : s.taskOf stream = some taskId) (hopen : s.isOpen stream = true)
    (hevent : event ∈ logs.after taskId (s.cursor stream)) (now : Int) :
    ∃ t, step D logs s (.receive stream event.id now) = some t ∧
      t.lastRead stream = some event.id := by
  have hcarries (call : BridgeToolUseResponse) : s.dispatch.carries
      ⟨taskId, call, some event.id, stream.origin, now⟩ = true := by
    cases stream with
    | own own => rfl
    | submission i =>
        obtain ⟨sub, hget, -⟩ := Option.map_eq_some_iff.mp htask
        have hlt := (List.getElem?_eq_some_iff.mp hget).1
        exact Bool.and_eq_true_iff.mpr ⟨decide_eq_true hlt, hopen⟩
  have hdispatch :
      ∃ dispatch, dispatchEvent D taskId stream event now s.dispatch = some dispatch := by
    rw [dispatchEvent]
    split
    · next call _ => exact ⟨_, if_pos (hcarries call)⟩
    · exact ⟨_, rfl⟩
  obtain ⟨dispatch, hdispatch⟩ := hdispatch
  refine ⟨{ s.read stream event with dispatch := dispatch, steps := s.steps ++ [taskId] }, ?_,
    Function.update_self _ _ _⟩
  simp only [step, htask, Option.bind_eq_bind, Option.bind_some, find?_cursor hevent, hopen,
    if_true, hdispatch]
  rfl

/-- Whatever becomes of the attempts, each event the transport yields on a stream is one
that the stream can be given next. -/
theorem receive_of_streamRequest {H : Http.HttpDecoders} (log : Http.BridgeLog H)
    (hevents : logs.events taskId = log.sseEvents) (isConnected : Bool)
    {session : Nat → Http.Request → Http.Reply} {opening : Option Text}
    (hopening : log.Knows opening)
    (hsession : ∀ number r, log.Knows r.lastEventId →
      Http.Resumes H log r.lastEventId (session number r))
    (method : Http.Method) (path : Text) (jsonData : Option Http.Body)
    {front rest : List BridgeSSEEvent} {event : BridgeSSEEvent}
    (hyields : Http.eventsOf (Http.streamRequest H isConnected session method path jsonData
      opening).yields = front ++ event :: rest)
    {s : State} {stream : Stream} (htask : s.taskOf stream = some taskId)
    (hopen : s.isOpen stream = true)
    (hcursor : s.cursor stream = Log.advance BridgeSSEEvent.id opening front) (now : Int) :
    ∃ t, step D logs s (.receive stream event.id now) = some t ∧
      t.lastRead stream = some event.id := by
  obtain ⟨unsent, hunsent⟩ :=
    Http.streamRequest_resumes isConnected hopening hsession method path jsonData
  rw [hyields, List.append_assoc] at hunsent
  have hafter : logs.after taskId (s.cursor stream) = event :: rest ++ unsent := by
    rw [hcursor, TaskLogs.after, hevents]
    exact Log.after_advance log.cursors_nodup hunsent.symm
  refine receive_of_mem htask hopen ?_ now
  rw [hafter]
  exact List.mem_cons_self

end Steps

end DualeAI.Cascade
