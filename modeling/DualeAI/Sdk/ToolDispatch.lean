import DualeAI.Events.Bridge
import DualeAI.Foundation.Transition

/-!
The dispatch of tool uses: `_schedule_tool_use` and the tasks it starts.

An action is what the event loop runs between two suspensions: the delivery of a
`tool.use` event, one stage of an execution, or the end of a submission's
stream. A `ScheduledToolUse` is shared by the dedup table and the execution it
was made for, so the table names the execution. What is logged is only appended
to. Times are microseconds on the estimated server clock, and an action that
reads the clock carries what it read.
-/
namespace DualeAI.Dispatch
open Foundation

/-- `BridgeToolResultSuccess` and `BridgeToolResultError`. -/
inductive ToolOutcome where
  | success (output : Json)
  | error (message : Text)

structure BridgeToolResult where
  toolCallId : Text
  outcome : ToolOutcome

structure RegisteredTool where
  retries : Nat

/-- The registered tools, and the bound of `_tool_execution_semaphore`. -/
structure Dispatcher where
  tools : Text → Option RegisteredTool
  maxConcurrentTools : Nat

abbrev Key := Text × Text

/-- A `tool.use` event as it reaches `_schedule_tool_use`, with the time read there. -/
structure Delivery where
  taskId : Text
  toolUse : BridgeToolUseResponse
  lastEventId : Option Text
  /-- The submission whose stream carried it; none for the task's own stream. -/
  origin : Option Nat
  now : Int

def Delivery.key (d : Delivery) : Key := (d.taskId, d.toolUse.toolCallId)

structure ScheduledToolUse where
  expiresAt : Int
  result : Option BridgeToolResult

/-- Where an `_execute_tool_use` task stands; attempts count from 1. -/
inductive Phase where
  | queued
  | ready (attempt : Nat)
  | running (attempt : Nat)
  | failed (attempt : Nat)
  | recorded
  | aborted
deriving DecidableEq, Repr

/-- An `_execute_tool_use` task; only events with a deadline get one. -/
structure Execution where
  delivery : Delivery
  deadlineAt : Int
  scheduled : ScheduledToolUse
  phase : Phase
  hasDeadline : delivery.toolUse.deadlineAt = some deadlineAt

/-- A `_submit_single_tool_result` task: the event it answers, and the execution
whose result it carries. -/
structure Submission where
  delivery : Delivery
  producer : Nat
  result : BridgeToolResult

structure Start where
  execution : Nat
  attempt : Nat
  now : Int
deriving DecidableEq, Repr

structure State where
  executions : List Execution := []
  scheduledToolUses : List (Key × Nat) := []
  submissions : List Submission := []
  /-- Submissions whose stream has ended, and whether they failed. -/
  ended : List (Nat × Bool) := []
  /-- Deliveries ignored as duplicates of an execution. -/
  duplicates : List (Delivery × Nat) := []
  starts : List Start := []

inductive RunEnd where
  | returned (outcome : ToolOutcome)
  | raised

inductive Action where
  | deliver (d : Delivery)
  | acquire (n : Nat)
  | reject (n : Nat) (message : Text)
  | attempt (n : Nat) (now : Int)
  | finish (n : Nat) (runEnd : RunEnd)
  /-- The retry loop after a failed attempt; `elapsed` is `stop_after_delay`. -/
  | settle (n : Nat) (elapsed : Bool) (message : Text)
  /-- The task ends without a result, by an exception outside `Exception`. -/
  | abort (n : Nat)
  | endSubmission (i : Nat) (failed : Bool)

def dedupReplayMargin : Int := 300000000

def toolUseDedupExpiresAt (toolUse : BridgeToolUseResponse) (now : Int) : Int :=
  max (toolUse.deadlineAt.getD now) now + dedupReplayMargin

def Phase.holdsSemaphore : Phase → Bool
  | .ready _ | .running _ | .failed _ => true
  | .queued | .recorded | .aborted => false

namespace State

def setPhase (n : Nat) (phase : Phase) (s : State) : State :=
  { s with executions := s.executions.modify n fun e => { e with phase := phase } }

def record (n : Nat) (e : Execution) (outcome : ToolOutcome) (s : State) : State :=
  let result : BridgeToolResult := ⟨e.delivery.toolUse.toolCallId, outcome⟩
  { s with
    executions := s.executions.modify n fun e =>
      { e with phase := .recorded, scheduled := { e.scheduled with result := some result } }
    submissions := s.submissions ++ [⟨e.delivery, n, result⟩] }

def pruneScheduledToolUses (now : Int) (s : State) : State :=
  { s with
    scheduledToolUses := s.scheduledToolUses.filter fun entry =>
      (s.executions[entry.2]?).any fun e => now < e.scheduled.expiresAt }

/-- The execution an unpruned entry of the dedup table names. -/
def entry (key : Key) (s : State) : Option (Nat × Execution) := do
  let n ← s.scheduledToolUses.lookup key
  let e ← s.executions[n]?
  pure (n, e)

def carries (d : Delivery) (s : State) : Bool :=
  match d.origin with
  | none => true
  | some i => i < s.submissions.length && !(s.ended.map Prod.fst).contains i

end State

section Steps
variable (D : Dispatcher)

def Dispatcher.retries (name : Text) : Nat :=
  match D.tools name with
  | some tool => tool.retries
  | none => 0

def scheduleToolUse (d : Delivery) (s : State) : State :=
  match D.tools d.toolUse.name, hdeadline : d.toolUse.deadlineAt with
  | none, _ | some _, none => s
  | some _, some deadlineAt =>
      let s := s.pruneScheduledToolUses d.now
      match s.entry d.key with
      | some (n, e) =>
          match e.scheduled.result with
          | some result => { s with submissions := s.submissions ++ [⟨d, n, result⟩] }
          | none => { s with duplicates := s.duplicates ++ [(d, n)] }
      | none =>
          { s with
            executions := s.executions ++
              [⟨d, deadlineAt, ⟨toolUseDedupExpiresAt d.toolUse d.now, none⟩, .queued, hdeadline⟩]
            scheduledToolUses := s.scheduledToolUses ++ [(d.key, s.executions.length)] }

def stage (n : Nat) (e : Execution) (s : State) : Action → Option State
  | .acquire _ =>
      if e.phase = .queued ∧
          (s.executions.filter fun e => e.phase.holdsSemaphore).length < D.maxConcurrentTools then
        some (s.setPhase n (.ready 1))
      else none
  | .reject _ message =>
      if e.phase = .ready 1 then some (s.record n e (.error message)) else none
  | .attempt _ now =>
      match e.phase with
      | .ready attempt =>
          if e.deadlineAt - now ≤ 0 then some (s.setPhase n (.failed attempt))
          else
            some { s.setPhase n (.running attempt) with
              starts := s.starts ++ [⟨n, attempt, now⟩] }
      | _ => none
  | .finish _ runEnd =>
      match e.phase, runEnd with
      | .running _, .returned outcome => some (s.record n e outcome)
      | .running attempt, .raised => some (s.setPhase n (.failed attempt))
      | _, _ => none
  | .settle _ elapsed message =>
      match e.phase with
      | .failed attempt =>
          if D.retries e.delivery.toolUse.name + 1 ≤ attempt ∨ elapsed = true then
            some (s.record n e (.error message))
          else some (s.setPhase n (.ready (attempt + 1)))
      | _ => none
  | .abort _ =>
      if e.phase = .recorded ∨ e.phase = .aborted then none else some (s.setPhase n .aborted)
  | .deliver _ | .endSubmission _ _ => none

def Action.execution : Action → Option Nat
  | .acquire n | .reject n _ | .attempt n _ | .finish n _ | .settle n _ _ | .abort n => some n
  | .deliver _ | .endSubmission _ _ => none

def step (s : State) (a : Action) : Option State :=
  match a with
  | .deliver d => if s.carries d then some (scheduleToolUse D d s) else none
  | .endSubmission i failed =>
      if i < s.submissions.length ∧ (s.ended.map Prod.fst).contains i = false then
        some { s with ended := s.ended ++ [(i, failed)] }
      else none
  | _ => do
      let n ← a.execution
      let e ← s.executions[n]?
      stage D n e s a

end Steps
end DualeAI.Dispatch
