import DualeAI.Foundation.AsyncQueue
import DualeAI.Foundation.Text
import DualeAI.Foundation.Transition

/-!
A streaming response: `AgentResponse.stream` on the buffers that
`_build_streaming_buffers` makes.

A step is a stretch between two awaits of the response's task, of the consumer of
`stream()` or of a queue read. The content callbacks run within the task, so
nothing arrives once it is done. One consumer iterates at a time, and a further
`stream()` call may follow one that was cancelled. `arrived` and `received` log
what the task delivered and what the consumers got; no step reads them.
-/
namespace DualeAI.Response
open Foundation

structure BridgeContentDeltaResponse where
  timestamp : Int
  delta : Text

structure BridgeContentResetResponse where
  timestamp : Int
  generation : Nat

inductive StreamingContentEvent where
  | delta (delta : BridgeContentDeltaResponse)
  | reset (reset : BridgeContentResetResponse)

structure Buffers where
  deltaQueue : AsyncQueue StreamingContentEvent := {}
  deltas : List BridgeContentDeltaResponse := []

def onDelta (delta : BridgeContentDeltaResponse) (b : Buffers) : Buffers :=
  { deltas := b.deltas ++ [delta], deltaQueue := b.deltaQueue.putNowait (.delta delta) }

def onReset (reset : BridgeContentResetResponse) (b : Buffers) : Buffers :=
  { deltas := [], deltaQueue := b.deltaQueue.putNowait (.reset reset) }

def onEvent : StreamingContentEvent → Buffers → Buffers
  | .delta delta => onDelta delta
  | .reset reset => onReset reset

/-- Where the consumer of `stream()` is: at a `yield`, in `asyncio.wait` on a read
and the task, or awaiting the read that it cancelled. -/
inductive Consumer where
  | absent
  | yielded
  | waiting (getTask : Nat)
  | discarding (getTask : Nat)
  | returned

structure State where
  taskDone : Bool := false
  buffers : Buffers := {}
  consumer : Consumer := .absent
  arrived : List StreamingContentEvent := []
  received : List StreamingContentEvent := []

inductive Action where
  | arrive (event : StreamingContentEvent)
  | complete
  | openStream
  | advance
  | cancel
  | read (getTask : Nat)

abbrev State.queue (s : State) : AsyncQueue StreamingContentEvent := s.buffers.deltaQueue

def State.setQueue (queue : AsyncQueue StreamingContentEvent) (s : State) : State :=
  { s with buffers := { s.buffers with deltaQueue := queue } }

def State.yield (event : StreamingContentEvent) (s : State) : State :=
  { s with consumer := .yielded, received := s.received ++ [event] }

/-- The live loop, up to its next `yield`, wait or return. -/
def iterate (s : State) : State :=
  match s.queue.getNowait with
  | some (event, queue) => (s.setQueue queue).yield event
  | none =>
      if s.taskDone then { s with consumer := .returned }
      else
        { s.setQueue s.queue.createRead with
          consumer := .waiting s.queue.reads.length }

def advance (s : State) : Option State :=
  match s.consumer with
  | .yielded => some (iterate s)
  | .waiting getTask =>
      match s.queue.reads[getTask]? with
      | some (.took event) => some (s.yield event)
      | _ =>
          if s.taskDone then
            some { s.setQueue (s.queue.cancelRead getTask) with
              consumer := .discarding getTask }
          else none
  | .discarding getTask =>
      if (s.queue.reads[getTask]?).any Read.finished then some (iterate s) else none
  | .absent | .returned => none

/-- Cancels the consumer. While it awaits the read that it cancelled, it suppresses
the cancellation and goes on. -/
def cancel (s : State) : Option State :=
  match s.consumer with
  | .yielded | .waiting _ => some { s with consumer := .absent }
  | .discarding _ => some s
  | .absent | .returned => none

def step (s : State) : Action → Option State
  | .arrive event =>
      if s.taskDone then none
      else some { s with buffers := onEvent event s.buffers, arrived := s.arrived ++ [event] }
  | .complete => if s.taskDone then none else some { s with taskDone := true }
  | .openStream =>
      match s.consumer, s.taskDone with
      | .absent, false => some (iterate s)
      | _, _ => none
  | .advance => advance s
  | .cancel => cancel s
  | .read getTask => (s.queue.runRead getTask).map s.setQueue

/-- What `stream()` yields once the task is done. -/
def replay (s : State) : List StreamingContentEvent := s.buffers.deltas.map .delta

/-! ## Steps -/

/-- The read that the consumer has going. -/
def Consumer.getTask : Consumer → Option Nat
  | .waiting getTask | .discarding getTask => some getTask
  | .absent | .yielded | .returned => none

/-- What the read that the consumer waits for has taken. -/
def held (s : State) : List StreamingContentEvent :=
  match s.consumer with
  | .waiting getTask => s.queue.taken getTask
  | _ => []

/-- What a step may find and what it makes of it. -/
inductive Effect (s : State) : Action → State → Prop where
  | arrived (event : StreamingContentEvent) (hdone : s.taskDone = false) :
      Effect s (.arrive event)
        { s with buffers := onEvent event s.buffers, arrived := s.arrived ++ [event] }
  | completed (hdone : s.taskDone = false) : Effect s .complete { s with taskDone := true }
  | opened (hconsumer : s.consumer = .absent) (hdone : s.taskDone = false) :
      Effect s .openStream (iterate s)
  | resumed (hconsumer : s.consumer = .yielded) : Effect s .advance (iterate s)
  | delivered (getTask : Nat) (event : StreamingContentEvent)
      (hconsumer : s.consumer = .waiting getTask)
      (hget : s.queue.reads[getTask]? = some (.took event)) : Effect s .advance (s.yield event)
  | cancelledRead (getTask : Nat) (hconsumer : s.consumer = .waiting getTask)
      (hget : ∀ event, s.queue.reads[getTask]? ≠ some (.took event)) (hdone : s.taskDone = true) :
      Effect s .advance
        { s.setQueue (s.queue.cancelRead getTask) with consumer := .discarding getTask }
  | discarded (getTask : Nat) (read : Read StreamingContentEvent)
      (hconsumer : s.consumer = .discarding getTask) (hget : s.queue.reads[getTask]? = some read)
      (hread : read.finished = true) : Effect s .advance (iterate s)
  | cancelled (hconsumer : s.consumer = .yielded ∨ ∃ getTask, s.consumer = .waiting getTask) :
      Effect s .cancel { s with consumer := .absent }
  | suppressed (getTask : Nat) (hconsumer : s.consumer = .discarding getTask) :
      Effect s .cancel s
  | ran (getTask : Nat) (queue : AsyncQueue StreamingContentEvent)
      (hrun : s.queue.runRead getTask = some queue) : Effect s (.read getTask) (s.setQueue queue)

theorem advance_effect {s t : State} (h : advance s = some t) : Effect s .advance t := by
  rw [advance] at h
  split at h
  · next hconsumer => cases h; exact .resumed hconsumer
  · next getTask hconsumer =>
      split at h
      · next event hget => cases h; exact .delivered getTask event hconsumer hget
      · next hget =>
          split at h
          · next hdone => cases h; exact .cancelledRead getTask hconsumer hget hdone
          · cases h
  · next getTask hconsumer =>
      split at h
      · next hfinished =>
          cases h
          obtain ⟨read, hget, hread⟩ := (Option.any_eq_true _ _).mp hfinished
          exact .discarded getTask read hconsumer hget hread
      · cases h
  · cases h
  · cases h

theorem step_effect {s t : State} {a : Action} (h : step s a = some t) : Effect s a t := by
  cases a with
  | arrive event =>
      simp only [step, Option.ite_none_left_eq_some, Bool.not_eq_true, Option.some.injEq] at h
      obtain ⟨hdone, rfl⟩ := h
      exact .arrived event hdone
  | complete =>
      simp only [step, Option.ite_none_left_eq_some, Bool.not_eq_true, Option.some.injEq] at h
      obtain ⟨hdone, rfl⟩ := h
      exact .completed hdone
  | openStream =>
      simp only [step] at h
      split at h
      · next hconsumer hdone => cases h; exact .opened hconsumer hdone
      · cases h
  | advance => exact advance_effect h
  | cancel =>
      simp only [step, cancel] at h
      split at h
      · next hconsumer => cases h; exact .cancelled (.inl hconsumer)
      · next getTask hconsumer => cases h; exact .cancelled (.inr ⟨getTask, hconsumer⟩)
      · next getTask hconsumer => cases h; exact .suppressed getTask hconsumer
      · cases h
      · cases h
  | read getTask =>
      obtain ⟨queue, hrun, rfl⟩ := Option.map_eq_some_iff.mp h
      exact .ran getTask queue hrun

/-- The live loop takes the front, ends with the task, or waits on a new read. -/
theorem iterate_eq (s : State) :
    (∃ event rest, s.queue.items = event :: rest ∧
      iterate s = (s.setQueue { s.queue with items := rest }).yield event) ∨
    s.queue.items = [] ∧ s.taskDone = true ∧ iterate s = { s with consumer := .returned } ∨
    s.queue.items = [] ∧ s.taskDone = false ∧
      iterate s = { s.setQueue s.queue.createRead with
        consumer := .waiting s.queue.reads.length } := by
  cases hitems : s.queue.items with
  | cons event rest =>
      exact .inl ⟨event, rest, rfl, by simp [iterate, AsyncQueue.getNowait, hitems]⟩
  | nil =>
      cases hdone : s.taskDone with
      | true => exact .inr (.inl ⟨rfl, rfl, by simp [iterate, AsyncQueue.getNowait, hitems, hdone]⟩)
      | false =>
          exact .inr (.inr ⟨rfl, rfl, by simp [iterate, AsyncQueue.getNowait, hitems, hdone]⟩)

/-! ## Delivery -/

/-- No event is lost or out of order, and the consumer's read is the only one. -/
structure Sound (s : State) : Prop where
  wellFormed : s.queue.WellFormed
  sole : s.queue.Sole s.consumer.getTask
  waiting : ∀ getTask, s.consumer = .waiting getTask → s.queue.withdrawn getTask = some false
  discarding : ∀ getTask, s.consumer = .discarding getTask → s.queue.withdrawn getTask = some true
  conserved : s.received ++ held s ++ s.queue.items = s.arrived
  returned : s.consumer = .returned → s.taskDone = true ∧ s.queue.items = []

theorem Sound.all_received {s : State} (hs : Sound s) (hreturned : s.consumer = .returned) :
    s.received = s.arrived := by
  have hconserved := hs.conserved
  rw [(hs.returned hreturned).2, List.append_nil] at hconserved
  simpa only [held, hreturned, List.append_nil] using hconserved

theorem Sound.iterate {s : State} (hs : Sound s) (hsole : s.queue.Sole none)
    (hheld : held s = []) : Sound (iterate s) := by
  have hconserved : s.received ++ s.queue.items = s.arrived := by
    simpa [hheld] using hs.conserved
  rcases iterate_eq s with ⟨event, rest, hitems, heq⟩ | ⟨hitems, hdone, heq⟩ | ⟨hitems, hdone, heq⟩
  · rw [heq]
    refine ⟨⟨hs.wellFormed.mem_getters, hs.wellFormed.nodup⟩, hsole, nofun, nofun, ?_, nofun⟩
    rw [hitems] at hconserved
    simpa [State.yield, State.setQueue, held] using hconserved
  · rw [heq]
    exact ⟨hs.wellFormed, hsole, nofun, nofun, by simpa [held] using hconserved,
      fun _ => ⟨hdone, hitems⟩⟩
  · rw [heq]
    refine ⟨hs.wellFormed.createRead, hsole.createRead, ?_, nofun, ?_, nofun⟩
    · rintro _ ⟨⟩
      exact s.queue.createRead_withdrawn
    · have htaken := s.queue.createRead_taken
      simp only [held, State.setQueue, htaken, List.append_nil]
      exact hconserved

/-- Cancelling the consumer while it waits for a read. -/
def interruptsWait (s : State) (a : Action) : Bool :=
  match a, s.consumer with
  | .cancel, .waiting _ => true
  | _, _ => false

theorem interruptsWait_iff {s : State} {a : Action} :
    interruptsWait s a = true ↔ a = .cancel ∧ ∃ getTask, s.consumer = .waiting getTask := by
  simp only [interruptsWait]
  split
  · next getTask hconsumer => simp [hconsumer]
  · next h => simpa using fun ha getTask hconsumer => h getTask ha hconsumer

theorem onEvent_queue (event : StreamingContentEvent) (b : Buffers) :
    (onEvent event b).deltaQueue = b.deltaQueue.putNowait event := by
  cases event <;> rfl

theorem Sound.arrive {s : State} (hs : Sound s) (event : StreamingContentEvent)
    (hdone : s.taskDone = false) :
    Sound { s with buffers := onEvent event s.buffers, arrived := s.arrived ++ [event] } := by
  have hqueue := onEvent_queue event s.buffers
  refine ⟨?_, ?_, ?_, ?_, ?_, ?_⟩
  · rw [State.queue, hqueue]
    exact hs.wellFormed.putNowait event
  · rw [State.queue, hqueue]
    exact hs.sole.putNowait event
  · intro getTask hconsumer
    rw [State.queue, hqueue, AsyncQueue.putNowait_withdrawn]
    exact hs.waiting getTask hconsumer
  · intro getTask hconsumer
    rw [State.queue, hqueue, AsyncQueue.putNowait_withdrawn]
    exact hs.discarding getTask hconsumer
  · have hheld : held { s with
        buffers := onEvent event s.buffers, arrived := s.arrived ++ [event] } = held s := by
      simp only [held, State.queue, hqueue, AsyncQueue.putNowait_taken]
    rw [hheld, State.queue, hqueue, AsyncQueue.putNowait_items, ← List.append_assoc, hs.conserved]
  · intro hconsumer
    have hcontra := (hs.returned hconsumer).1
    rw [hdone] at hcontra
    cases hcontra

/-- The read that runs is the consumer's. -/
theorem Sound.reader {s : State} (hs : Sound s) {getTask : Nat}
    {queue : AsyncQueue StreamingContentEvent} (hrun : s.queue.runRead getTask = some queue) :
    s.consumer = .waiting getTask ∨ s.consumer = .discarding getTask := by
  have hcurrent := AsyncQueue.runRead_current hrun hs.sole
  cases hconsumer : s.consumer with
  | absent | yielded | returned =>
      rw [hconsumer] at hcurrent
      cases hcurrent
  | waiting i =>
      rw [hconsumer] at hcurrent
      cases hcurrent
      exact .inl rfl
  | discarding i =>
      rw [hconsumer] at hcurrent
      cases hcurrent
      exact .inr rfl

theorem Sound.ran {s : State} (hs : Sound s) {getTask : Nat}
    {queue : AsyncQueue StreamingContentEvent} (hrun : s.queue.runRead getTask = some queue) :
    Sound (s.setQueue queue) := by
  have hwithdrawn := AsyncQueue.runRead_withdrawn hrun
  obtain ⟨hbefore, htaken⟩ := AsyncQueue.runRead_taken hrun
  have hconserved := hs.conserved
  cases hs.reader hrun with
  | inl hconsumer =>
      refine ⟨hs.wellFormed.runRead hrun, hs.sole.runRead hrun, ?_, ?_, ?_, ?_⟩
      · intro j hj
        cases hconsumer.symm.trans hj
        exact hwithdrawn.trans (hs.waiting getTask hconsumer)
      · exact fun j hj => nomatch hconsumer.symm.trans hj
      · simp only [held, hconsumer, hbefore, List.append_nil, ← htaken] at hconserved
        simpa only [held, State.setQueue, hconsumer, List.append_assoc] using hconserved
      · exact fun hj => nomatch hconsumer.symm.trans hj
  | inr hconsumer =>
      have hstill := hwithdrawn.trans (hs.discarding getTask hconsumer)
      rw [AsyncQueue.taken_of_withdrawn hstill, List.nil_append] at htaken
      refine ⟨hs.wellFormed.runRead hrun, hs.sole.runRead hrun, ?_, ?_, ?_, ?_⟩
      · exact fun j hj => nomatch hconsumer.symm.trans hj
      · intro j hj
        cases hconsumer.symm.trans hj
        exact hstill
      · simp only [held, hconsumer, ← htaken] at hconserved
        simpa only [held, State.setQueue, hconsumer] using hconserved
      · exact fun hj => nomatch hconsumer.symm.trans hj

/-- Step: nothing is lost as long as no wait is interrupted. -/
theorem Effect.sound {s t : State} {a : Action} (h : Effect s a t) (hs : Sound s)
    (ha : interruptsWait s a = false) : Sound t := by
  have hsole := hs.sole
  have hconserved := hs.conserved
  cases h with
  | arrived event hdone => exact hs.arrive event hdone
  | completed hdone =>
      exact ⟨hs.wellFormed, hsole, hs.waiting, hs.discarding, hconserved,
        fun hconsumer => ⟨rfl, (hs.returned hconsumer).2⟩⟩
  | opened hconsumer hdone | resumed hconsumer =>
      rw [hconsumer] at hsole
      exact hs.iterate hsole (by simp [held, hconsumer])
  | delivered getTask event hconsumer hget =>
      rw [hconsumer] at hsole
      refine ⟨hs.wellFormed, hsole.finish hget rfl, nofun, nofun, ?_, nofun⟩
      simp only [held, hconsumer, AsyncQueue.taken_eq hget, Read.taken] at hconserved
      simpa only [held, State.yield, List.append_nil] using hconserved
  | cancelledRead getTask hconsumer hget hdone =>
      rw [hconsumer] at hsole
      refine ⟨hs.wellFormed.cancelRead getTask, hsole.cancelRead, nofun, ?_, ?_, nofun⟩
      · rintro _ ⟨⟩
        exact AsyncQueue.cancelRead_withdrawn (hs.waiting getTask hconsumer) hget
      · simp only [held, hconsumer, AsyncQueue.taken_eq_nil hget] at hconserved
        change s.received ++ [] ++ (s.queue.cancelRead getTask).items = s.arrived
        rw [AsyncQueue.cancelRead_items]
        exact hconserved
  | discarded getTask read hconsumer hget hread =>
      rw [hconsumer] at hsole
      exact hs.iterate (hsole.finish hget hread) (by simp [held, hconsumer])
  | cancelled hconsumer =>
      rcases hconsumer with hconsumer | ⟨getTask, hconsumer⟩
      · rw [hconsumer] at hsole
        refine ⟨hs.wellFormed, hsole, nofun, nofun, ?_, nofun⟩
        simpa only [held, hconsumer] using hconserved
      · simp [interruptsWait, hconsumer] at ha
  | suppressed getTask hconsumer => exact hs
  | ran getTask queue hrun => exact hs.ran hrun

def uninterrupted (s : State) (a : Action) : Bool := !interruptsWait s a

theorem sound_of_run {past : List Action} {s : State}
    (h : Run (restrict uninterrupted step) {} past s) : Sound s := by
  refine h.invariant (I := fun _ s => Sound s) ?_ ?_
  · exact ⟨⟨by simp, List.nodup_nil⟩, by simp [AsyncQueue.Sole], nofun, nofun, rfl, nofun⟩
  · intro past s a t hs hstep
    obtain ⟨hallowed, hstep⟩ := restrict_eq_some.mp hstep
    exact (step_effect hstep).sound hs (by simpa [uninterrupted] using hallowed)

/-! ## The end of the stream -/

/-- A bound on what the consumer and its read do once the task is done. -/
def work (s : State) : Nat :=
  4 * s.queue.items.length +
    match s.consumer with
    | .absent | .returned => 0
    | .yielded => 1
    | .waiting getTask =>
        match s.queue.reads[getTask]? with
        | some (.took _) => 2
        | some .waiting => 4
        | _ => 5
    | .discarding getTask =>
        match s.queue.reads[getTask]? with
        | some .cancelled => 2
        | _ => 3

theorem iterate_work {s : State} (hdone : s.taskDone = true) :
    work (iterate s) ≤ 4 * s.queue.items.length := by
  rcases iterate_eq s with ⟨event, rest, hitems, heq⟩ | ⟨hitems, -, heq⟩ | ⟨-, hrunning, -⟩
  · rw [heq, hitems, List.length_cons]
    change 4 * rest.length + 1 ≤ 4 * (rest.length + 1)
    omega
  · rw [heq]
    exact Nat.le_refl _
  · rw [hdone] at hrunning
    cases hrunning

theorem work_ran {s : State} (hs : Sound s) {getTask : Nat}
    {queue : AsyncQueue StreamingContentEvent} (hrun : s.queue.runRead getTask = some queue) :
    work (s.setQueue queue) < work s := by
  obtain ⟨before, hget, hunfinished, hrunnable, -⟩ := AsyncQueue.runRead_eq_some hrun
  cases hs.reader hrun with
  | inl hconsumer =>
      have hbefore : work s = 4 * s.queue.items.length + 5 := by
        simp only [work, hconsumer, hget]
        cases before <;> first | rfl | exact absurd rfl hrunnable | cases hunfinished
      have hlt := (List.getElem?_eq_some_iff.mp hget).1
      have hqueue := AsyncQueue.runRead_live hrun (hs.waiting getTask hconsumer)
      rw [hbefore, hqueue]
      cases hitems : s.queue.items with
      | nil => simp [work, State.setQueue, hconsumer, AsyncQueue.tryGet, hitems, hlt]
      | cons event rest =>
          simp only [work, State.setQueue, hconsumer, AsyncQueue.tryGet, hitems,
            List.getElem?_set_self hlt, List.length_cons]
          omega
  | inr hconsumer =>
      have hwithdrawn := hs.discarding getTask hconsumer
      have hbefore : work s = 4 * s.queue.items.length + 3 := by
        simp only [work, hconsumer, hget]
        cases before <;> first | rfl | cases hunfinished
      have hitems : queue.items = s.queue.items := by
        have htaken := (AsyncQueue.runRead_taken hrun).2
        rwa [AsyncQueue.taken_of_withdrawn ((AsyncQueue.runRead_withdrawn hrun).trans hwithdrawn),
          List.nil_append] at htaken
      have hcancelled := AsyncQueue.runRead_cancelled hrun hwithdrawn
      rw [hbefore]
      simp only [work, State.setQueue, hconsumer, hcancelled]
      change 4 * queue.items.length + 2 < 4 * s.queue.items.length + 3
      rw [hitems]
      exact Nat.lt_succ_self _

theorem Effect.work_lt {s t : State} {a : Action} (h : Effect s a t) (hs : Sound s)
    (hdone : s.taskDone = true) (ha : a ≠ .cancel) : work t < work s := by
  cases h with
  | arrived event hrunning | completed hrunning | opened _ hrunning =>
      rw [hdone] at hrunning
      cases hrunning
  | resumed hconsumer =>
      have hbefore : work s = 4 * s.queue.items.length + 1 := by simp [work, hconsumer]
      have hafter := iterate_work hdone
      omega
  | delivered getTask event hconsumer hget =>
      simp only [work, hconsumer, hget]
      exact Nat.lt_succ_self _
  | cancelledRead getTask hconsumer hget hdone =>
      have hbefore : 4 * s.queue.items.length + 4 ≤ work s := by
        simp only [work, hconsumer]
        split
        · next event htook => exact absurd htook (hget event)
        · omega
        · omega
      have hafter : work { s.setQueue (s.queue.cancelRead getTask) with
          consumer := .discarding getTask } ≤ 4 * s.queue.items.length + 3 := by
        change 4 * (s.queue.cancelRead getTask).items.length + _ ≤ _
        rw [AsyncQueue.cancelRead_items]
        dsimp only
        split <;> omega
      omega
  | discarded getTask read hconsumer hget hread =>
      have hbefore : 4 * s.queue.items.length + 2 ≤ work s := by
        simp only [work, hconsumer]
        split <;> omega
      have hafter := iterate_work hdone
      omega
  | cancelled _ | suppressed _ _ => exact absurd rfl ha
  | ran getTask queue hrun => exact work_ran hs hrun

/-- The consumer gets on by itself once the task is done. -/
theorem Sound.gets_on {s : State} (hs : Sound s) (hdone : s.taskDone = true)
    (hpresent : s.consumer ≠ .absent) (hunreturned : s.consumer ≠ .returned) :
    ∃ a t, a ≠ .cancel ∧ step s a = some t := by
  cases hconsumer : s.consumer with
  | absent => exact absurd hconsumer hpresent
  | returned => exact absurd hconsumer hunreturned
  | yielded => exact ⟨.advance, _, nofun, by simp only [step, advance, hconsumer]; rfl⟩
  | waiting getTask =>
      refine ⟨.advance, ?_⟩
      simp only [step, advance, hconsumer, hdone]
      split
      · exact ⟨_, nofun, rfl⟩
      · exact ⟨_, nofun, rfl⟩
  | discarding getTask =>
      obtain ⟨read, hget, hread⟩ := Option.map_eq_some_iff.mp (hs.discarding getTask hconsumer)
      cases read with
      | cancelled =>
          refine ⟨.advance, Response.iterate s, nofun, ?_⟩
          simp [step, advance, hconsumer, hget, Read.finished]
      | cancelling wasWoken =>
          exact ⟨.read getTask, _, nofun, by simp only [step, AsyncQueue.runRead, hget]; rfl⟩
      | created | waiting | woken | took _ => cases hread

theorem iterate_present (s : State) : (iterate s).consumer ≠ .absent := by
  rcases iterate_eq s with ⟨event, rest, -, heq⟩ | ⟨-, -, heq⟩ | ⟨-, -, heq⟩
  · exact heq ▸ nofun
  · exact heq ▸ nofun
  · exact heq ▸ nofun

theorem iterate_taskDone (s : State) : (iterate s).taskDone = s.taskDone := by
  rcases iterate_eq s with ⟨event, rest, -, heq⟩ | ⟨-, -, heq⟩ | ⟨-, -, heq⟩
  · rw [heq]; rfl
  · rw [heq]
  · rw [heq]; rfl

theorem Effect.present {s t : State} {a : Action} (h : Effect s a t) (ha : a ≠ .cancel)
    (hs : s.consumer ≠ .absent) : t.consumer ≠ .absent := by
  cases h with
  | arrived | completed | ran => exact hs
  | opened | resumed | discarded => exact iterate_present s
  | delivered | cancelledRead => exact nofun
  | cancelled | suppressed => exact absurd rfl ha

theorem Effect.taskDone {s t : State} {a : Action} (h : Effect s a t)
    (hs : s.taskDone = true) : t.taskDone = true := by
  cases h with
  | completed => rfl
  | opened | resumed | discarded => exact (iterate_taskDone s).trans hs
  | arrived | delivered | cancelledRead | cancelled | suppressed | ran => exact hs

/-- However the consumer and its read are scheduled, the stream ends. -/
def Ends (s : State) : Prop :=
  ∀ more u, Run step s more u → .cancel ∉ more →
    more.length ≤ work s ∧ (u.consumer = .returned ∨ ∃ a v, a ≠ .cancel ∧ step u a = some v)

theorem Sound.ends {s : State} (hs : Sound s) (hdone : s.taskDone = true)
    (hpresent : s.consumer ≠ .absent) : Ends s := by
  intro more u hrun hmore
  have hkept : .cancel ∉ more → Sound u ∧ u.taskDone = true ∧ u.consumer ≠ .absent ∧
      more.length + work u ≤ work s := by
    refine hrun.invariant (I := fun more u => .cancel ∉ more → Sound u ∧ u.taskDone = true ∧
      u.consumer ≠ .absent ∧ more.length + work u ≤ work s) ?_ ?_
    · exact fun _ => ⟨hs, hdone, hpresent, (Nat.zero_add (work s)).le⟩
    · intro more u a v hu hstep hmore
      rw [List.mem_append, List.mem_singleton, not_or] at hmore
      obtain ⟨hsound, hover, hstays, hbound⟩ := hu hmore.1
      have ha : a ≠ .cancel := fun heq => hmore.2 heq.symm
      have heffect := step_effect hstep
      have huninterrupted : interruptsWait u a = false := by
        rw [Bool.eq_false_iff, Ne, interruptsWait_iff]
        exact fun h => ha h.1
      have hless := heffect.work_lt hsound hover ha
      refine ⟨heffect.sound hsound huninterrupted, heffect.taskDone hover,
        heffect.present ha hstays, ?_⟩
      rw [List.length_append, List.length_singleton]
      omega
  obtain ⟨hsound, hover, hstays, hbound⟩ := hkept hmore
  refine ⟨by omega, ?_⟩
  by_cases hreturned : u.consumer = .returned
  · exact .inl hreturned
  · exact .inr (hsound.gets_on hover hstays hreturned)

end DualeAI.Response
