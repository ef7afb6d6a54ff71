import DualeAI.Events.Bridge
import DualeAI.Foundation.Coroutine
import DualeAI.Foundation.Indexed
import DualeAI.Foundation.Transition
import Mathlib.Data.Char
import Mathlib.Data.List.Lex
import Mathlib.Data.List.Sort

/-!
`LifecycleManager` between its awaits: any number of calls of `start` and
`aclose`, the start scheduled by the constructor, and the heartbeat loops.

A step is one stretch of a coroutine from one await to the next, or a call, or a
change of the registered tools. Awaits of the events client end in any way and
at any time, by cancellation too, so that `task.cancel()` has no step of its
own; only a task that another one awaits has to have ended. Clock readings and
jitter are given with each step. `log` records what was hashed, sent and
acknowledged, in order, and is read by no step.
-/
namespace DualeAI.Agent
open Foundation

structure RegisteredTool where
  name : Text
  wire : Json

structure ManifestSnapshot where
  tools : List RegisteredTool
  configHash : Text

structure AgentRegistrationMessage where
  processId : Text
  tools : List RegisteredTool
  configHash : Text
  manifestPublicationId : Text

structure AgentHeartbeatMessage where
  processId : Text
  configHash : Text
  heartbeatPublicationId : Text

structure AgentDeregistrationMessage where
  processId : Text
  deregistrationPublicationId : Text
  reason : String

inductive Event where
  | hashed (snapshot : ManifestSnapshot)
  | registration (message : AgentRegistrationMessage)
  | acknowledged (message : AgentRegistrationMessage)
  | heartbeat (message : AgentHeartbeatMessage)
  | deregistration (message : AgentDeregistrationMessage)

/-- What a manager is built with, and what it calls: the hash of the canonical
bytes of a manifest, and the process's successive UUIDs. -/
structure Host where
  agentId : Option Text
  manifestHash : List RegisteredTool → Text
  newUuid7 : Nat → Text

/-- A clock reading and the jittered refresh interval drawn with it. -/
structure Reading where
  now : Int
  interval : Int

/-- The fields of `LifecycleManager` that its messages are made from. -/
structure Publisher where
  manifest : List RegisteredTool := []
  lastRegisteredConfigHash : Option Text := none
  nextRegistrationRefreshAt : Option Int := none
  manifestPublicationId : Option Text := none
  manifestPublicationConfigHash : Option Text := none
  lifecycleRegistered : Bool := false
  /-- How many UUIDs were drawn. The first one is the process id. -/
  drawn : Nat := 1
  log : List Event := []

/-! ## Coroutines -/

inductive RegistrationPoint where
  | client (snapshot : ManifestSnapshot)
  | sending (snapshot : ManifestSnapshot) (message : AgentRegistrationMessage)

inductive HeartbeatPoint where
  | registration (point : RegistrationPoint)
  | client (snapshot : ManifestSnapshot)
  | sending

inductive DeregistrationPoint where
  | client (reason : String)
  | sending

inductive StartPoint where
  | registration (point : RegistrationPoint)
  | heartbeat (point : HeartbeatPoint)
  | deregistration (point : DeregistrationPoint) (failure : Exc)

structure Failures where
  consecutive : Nat := 0
  consecutiveAuth : Nat := 0

inductive LoopPoint where
  | sleeping (failures : Failures)
  | heartbeat (failures : Failures) (point : HeartbeatPoint)

abbrev Outcome := Except Exc Unit

def maxConsecutiveHeartbeatFailures : Nat := 3

def maxConsecutiveHeartbeatAuthFailures : Nat := 2

def isAuthError : Exc → Bool
  | .sdk e => e.kind == .authError
  | _ => false

/-- The handlers of the heartbeat loop. -/
def Failures.record (failures : Failures) (e : Exc) : Except Exc Failures :=
  if isAuthError e then
    if failures.consecutiveAuth + 1 ≥ maxConsecutiveHeartbeatAuthFailures then .error e
    else .ok ⟨0, failures.consecutiveAuth + 1⟩
  else if e.isException then
    if failures.consecutive + 1 ≥ maxConsecutiveHeartbeatFailures then .error e
    else .ok ⟨failures.consecutive + 1, 0⟩
  else .error e

section Coroutines
variable (H : Host)

def processId : Text := H.newUuid7 0

def manifestSnapshot (manifest : List RegisteredTool) : ManifestSnapshot :=
  let tools := manifest.insertionSort fun a b => a.name ≤ b.name
  ⟨tools, H.manifestHash tools⟩

namespace Publisher

def snapshot (P : Publisher) : Publisher × ManifestSnapshot :=
  let snapshot := manifestSnapshot H P.manifest
  ({ P with log := P.log ++ [.hashed snapshot] }, snapshot)

/-- The id and hash of the current publication stay while the hash does. -/
def registrationMessage (P : Publisher) (snapshot : ManifestSnapshot) :
    Publisher × AgentRegistrationMessage :=
  match P.manifestPublicationId, P.manifestPublicationConfigHash == some snapshot.configHash with
  | some id, true => (P, ⟨processId H, snapshot.tools, snapshot.configHash, id⟩)
  | _, _ =>
      let id := H.newUuid7 P.drawn
      ({ P with
          manifestPublicationId := some id
          manifestPublicationConfigHash := some snapshot.configHash
          drawn := P.drawn + 1 },
        ⟨processId H, snapshot.tools, snapshot.configHash, id⟩)

/-- `_send_registration` up to its await of the send. -/
def sendRegistration (P : Publisher) (snapshot : ManifestSnapshot) :
    Publisher × AgentRegistrationMessage :=
  let (P, message) := P.registrationMessage H snapshot
  ({ P with lifecycleRegistered := true, log := P.log ++ [.registration message] }, message)

def acknowledge (P : Publisher) (message : AgentRegistrationMessage) (reading : Reading) :
    Publisher :=
  { P with
    lastRegisteredConfigHash := some message.configHash
    nextRegistrationRefreshAt := some (reading.now + reading.interval)
    log := P.log ++ [.acknowledged message] }

def refreshDue (P : Publisher) (reading : Reading) : Bool :=
  match P.nextRegistrationRefreshAt with
  | none => true
  | some at_ => at_ ≤ reading.now

/-- `_send_heartbeat_once` up to its first await. -/
def sendHeartbeatOnce (P : Publisher) (snapshot : ManifestSnapshot) (reading : Reading) :
    HeartbeatPoint :=
  if P.lastRegisteredConfigHash ≠ some snapshot.configHash ∨ P.refreshDue reading then
    .registration (.client snapshot)
  else .client snapshot

def sendHeartbeat (P : Publisher) (snapshot : ManifestSnapshot) : Publisher :=
  { P with
    drawn := P.drawn + 1
    log := P.log ++ [.heartbeat ⟨processId H, snapshot.configHash, H.newUuid7 P.drawn⟩] }

def sendDeregistration (P : Publisher) (reason : String) : Publisher :=
  { P with
    drawn := P.drawn + 1
    log := P.log ++ [.deregistration ⟨processId H, H.newUuid7 P.drawn, reason⟩] }

def unregister (P : Publisher) : Publisher := { P with lifecycleRegistered := false }

/-- `_deregister_lifecycle` up to its first await, if it gets to one. -/
def deregister (P : Publisher) (reason : String) : Option DeregistrationPoint :=
  if P.lifecycleRegistered && H.agentId.isSome then some (.client reason) else none

end Publisher

def resumeRegistration (reading : Reading) (P : Publisher) (outcome : Outcome) :
    RegistrationPoint → Publisher × Progress Exc RegistrationPoint ManifestSnapshot
  | .client snapshot =>
      match outcome with
      | .ok _ =>
          let (P, message) := P.sendRegistration H snapshot
          (P, .suspended (.sending snapshot message))
      | .error e => (P, .raised e)
  | .sending snapshot message =>
      match outcome with
      | .ok _ => (P.acknowledge message reading, .returned snapshot)
      | .error e => (P, .raised e)

def resumeHeartbeat (reading : Reading) (P : Publisher) (outcome : Outcome) :
    HeartbeatPoint → Publisher × Progress Exc HeartbeatPoint Unit
  | .registration point =>
      let (P, progress) := resumeRegistration H reading P outcome point
      (P, progress.nest .registration (fun snapshot => .suspended (.client snapshot)) .raised)
  | .client snapshot =>
      match outcome with
      | .ok _ => (P.sendHeartbeat H snapshot, .suspended .sending)
      | .error e => (P, .raised e)
  | .sending =>
      match outcome with
      | .ok _ => (P, .returned ())
      | .error e => (P, .raised e)

/-- Whatever is an `Exception` is suppressed. -/
def resumeDeregistration (P : Publisher) (outcome : Outcome) :
    DeregistrationPoint → Publisher × Progress Exc DeregistrationPoint Unit
  | .client reason =>
      match outcome with
      | .ok _ => (P.sendDeregistration H reason, .suspended .sending)
      | .error e => if e.isException then (P.unregister, .returned ()) else (P, .raised e)
  | .sending =>
      match outcome with
      | .ok _ => (P.unregister, .returned ())
      | .error e => if e.isException then (P.unregister, .returned ()) else (P, .raised e)

/-- `_start_lifecycle` of an agent up to its first await. -/
def startLifecycle (P : Publisher) : Publisher × StartPoint :=
  let (P, snapshot) := P.snapshot H
  (P, .registration (.client snapshot))

/-- The handler around the first heartbeat. -/
def startupFailed (P : Publisher) (e : Exc) : Progress Exc StartPoint Unit :=
  if e.isException then
    match P.deregister H "startup_failed" with
    | some point => .suspended (.deregistration point e)
    | none => .raised e
  else .raised e

def resumeStart (reading : Reading) (P : Publisher) (outcome : Outcome) :
    StartPoint → Publisher × Progress Exc StartPoint Unit
  | .registration point =>
      let (P, progress) := resumeRegistration H reading P outcome point
      (P, progress.nest .registration
        (fun snapshot => .suspended (.heartbeat (P.sendHeartbeatOnce snapshot reading))) .raised)
  | .heartbeat point =>
      let (P, progress) := resumeHeartbeat H reading P outcome point
      (P, progress.nest .heartbeat .returned (startupFailed H P))
  | .deregistration point failure =>
      let (P, progress) := resumeDeregistration H P outcome point
      (P, progress.nest (.deregistration · failure) (fun _ => .raised failure) .raised)

def resumeLoop (reading : Reading) (P : Publisher) (outcome : Outcome) :
    LoopPoint → Publisher × Progress Exc LoopPoint Empty
  | .sleeping failures =>
      match outcome with
      | .ok _ =>
          let (P, snapshot) := P.snapshot H
          (P, .suspended (.heartbeat failures (P.sendHeartbeatOnce snapshot reading)))
      | .error e => (P, .raised e)
  | .heartbeat failures point =>
      let (P, progress) := resumeHeartbeat H reading P outcome point
      (P, progress.nest (.heartbeat failures) (fun _ => .suspended (.sleeping {})) fun e =>
        match failures.record e with
        | .ok failures => .suspended (.sleeping failures)
        | .error e => .raised e)

end Coroutines

/-! ## Tasks -/

/-- Where `aclose` is. It waits for the tasks it cancelled by their numbers. -/
inductive ClosePoint where
  | called
  | startupTask (task : Nat)
  | heartbeatTask (task : Nat)
  | deregistration (point : DeregistrationPoint)

inductive Task where
  | acquiring
  | starting (point : StartPoint)
  | beating (point : LoopPoint)
  | closing (point : ClosePoint)
  | ended (result : Outcome)

/-- A task keeps its number in `tasks`. `startupLock` is held by the task it names. -/
structure Manager where
  publisher : Publisher := {}
  startupTask : Option Nat := none
  heartbeatTask : Option Nat := none
  startupLock : Option Nat := none
  startupDone : Bool := false
  tasks : List Task := []

/-- A new manager; `auto_start` schedules its start on a running loop. -/
def created (autoStart : Bool) : Manager :=
  if autoStart then { startupTask := some 0, tasks := [.acquiring] } else {}

inductive Action where
  | registerTools (manifest : List RegisteredTool)
  | start
  | aclose
  | resume (task : Nat) (outcome : Outcome) (reading : Reading)

namespace Manager

def suspend (i : Nat) (task : Task) (s : Manager) : Manager :=
  { s with tasks := s.tasks.set i task }

def endTask (i : Nat) (result : Outcome) (s : Manager) : Manager := s.suspend i (.ended result)

def releaseLock (s : Manager) : Manager := { s with startupLock := none }

/-- The result of an ended task. -/
def taskResult (s : Manager) (i : Nat) : Option Outcome :=
  match s.tasks[i]? with
  | some (.ended result) => some result
  | _ => none

def needsHeartbeatTask (s : Manager) : Bool :=
  match s.heartbeatTask with
  | none => true
  | some i => (s.taskResult i).isSome

/-- `_start_lifecycle` after its awaits, and the rest of `start`. -/
def finishStart (i : Nat) (s : Manager) : Manager :=
  let s :=
    if s.needsHeartbeatTask then
      { s with
        heartbeatTask := some s.tasks.length
        tasks := s.tasks ++ [.beating (.sleeping {})] }
    else s
  releaseLock (endTask i (.ok ()) { s with startupDone := true })

section Steps
variable (H : Host)

/-- The body of `start` once it holds the lock, up to its next await. -/
def enterStart (i : Nat) (s : Manager) : Manager :=
  if s.startupDone then s.endTask i (.ok ())
  else
    match H.agentId with
    | some _ =>
        let (publisher, point) := startLifecycle H s.publisher
        { s with publisher := publisher, startupLock := some i }.suspend i (.starting point)
    | none =>
        if s.publisher.manifest.isEmpty then { s with startupDone := true }.endTask i (.ok ())
        else s.endTask i (.error (.other "RuntimeError"))

def finishClose (i : Nat) (s : Manager) : Manager :=
  { s with startupDone := false }.endTask i (.ok ())

/-- `aclose` once no heartbeat task is left. -/
def closeRegistration (i : Nat) (s : Manager) : Manager :=
  match s.publisher.deregister H "shutdown" with
  | some point => s.suspend i (.closing (.deregistration point))
  | none => s.finishClose i

/-- `aclose` once no start-up task is left. -/
def closeHeartbeat (i : Nat) (s : Manager) : Manager :=
  match s.heartbeatTask with
  | some task => s.suspend i (.closing (.heartbeatTask task))
  | none => s.closeRegistration H i

def close (i : Nat) (s : Manager) : Manager :=
  match s.startupTask with
  | some task => s.suspend i (.closing (.startupTask task))
  | none => s.closeHeartbeat H i

/-- How `_cancel_task` ends, whose await may itself be interrupted. -/
def cancelTask (result outcome : Outcome) : Outcome :=
  match outcome.bind fun _ => result with
  | .error .cancelled => .ok ()
  | ended => ended

def resumeClose (i : Nat) (s : Manager) (outcome : Outcome) : ClosePoint → Option Manager
  | .called => some (s.close H i)
  | .startupTask task =>
      (s.taskResult task).map fun result =>
        match cancelTask result outcome with
        | .ok _ => { s with startupTask := none }.closeHeartbeat H i
        | .error e => s.endTask i (.error e)
  | .heartbeatTask task =>
      (s.taskResult task).map fun result =>
        match cancelTask result outcome with
        | .ok _ => { s with heartbeatTask := none }.closeRegistration H i
        | .error e => s.endTask i (.error e)
  | .deregistration point =>
      let (publisher, progress) := resumeDeregistration H s.publisher outcome point
      let s := { s with publisher := publisher }
      match progress with
      | .suspended point => some (s.suspend i (.closing (.deregistration point)))
      | .returned _ => some (s.finishClose i)
      | .raised e => some (s.endTask i (.error e))

def resume (i : Nat) (outcome : Outcome) (reading : Reading) (s : Manager) : Task → Option Manager
  | .acquiring =>
      match outcome with
      | .ok _ => if s.startupLock.isSome then none else some (s.enterStart H i)
      | .error e => some (s.endTask i (.error e))
  | .starting point =>
      let (publisher, progress) := resumeStart H reading s.publisher outcome point
      let s := { s with publisher := publisher }
      match progress with
      | .suspended point => some (s.suspend i (.starting point))
      | .returned _ => some (s.finishStart i)
      | .raised e => some (s.endTask i (.error e)).releaseLock
  | .beating point =>
      let (publisher, progress) := resumeLoop H reading s.publisher outcome point
      let s := { s with publisher := publisher }
      match progress with
      | .suspended point => some (s.suspend i (.beating point))
      | .raised e => some (s.endTask i (.error e))
  | .closing point => s.resumeClose H i outcome point
  | .ended _ => none

end Steps
end Manager

def step (H : Host) (s : Manager) : Action → Option Manager
  | .registerTools manifest =>
      some { s with publisher := { s.publisher with manifest := manifest } }
  | .start => some { s with tasks := s.tasks ++ [.acquiring] }
  | .aclose => some { s with tasks := s.tasks ++ [.closing .called] }
  | .resume i outcome reading =>
      (s.tasks[i]?).bind fun task => s.resume H i outcome reading task

end DualeAI.Agent
