import DualeAI.Sdk.ResponseStream

/-!
What the consumers of a streaming response get.

A read that an interrupted consumer leaves behind takes the next event, and nobody
looks at it any more. Nothing else loses or repeats an event, and what a consumer
got live is what a replay shows.
-/
namespace DualeAI.Response
open Foundation

/-! ## What an interruption loses -/

theorem drain {s : State} (hdone : s.taskDone = true) (hconsumer : s.consumer = .yielded) :
    ∃ more u, Run step s more u ∧ u.consumer = .returned ∧
      u.received = s.received ++ s.queue.items ∧ u.arrived = s.arrived := by
  have hstep : step s .advance = some (iterate s) := by simp [step, advance, hconsumer]
  generalize hitems : s.queue.items = items
  induction items generalizing s with
  | nil =>
      rcases iterate_eq s with ⟨_, _, hcons, -⟩ | ⟨-, -, heq⟩ | ⟨-, hrunning, -⟩
      · rw [hitems] at hcons
        cases hcons
      · rw [heq] at hstep
        exact ⟨_, _, .single hstep, rfl, (List.append_nil _).symm, rfl⟩
      · rw [hdone] at hrunning
        cases hrunning
  | cons event rest ih =>
      have heq : iterate s = (s.setQueue { s.queue with items := rest }).yield event := by
        simp [iterate, AsyncQueue.getNowait, hitems]
      rw [heq] at hstep
      obtain ⟨more, u, hrun, hreturned, hreceived, harrived⟩ :=
        ih (s := (s.setQueue { s.queue with items := rest }).yield event) hdone rfl rfl rfl
      refine ⟨_, u, (Run.single hstep).append hrun, hreturned, ?_, harrived⟩
      rw [hreceived]
      exact List.append_assoc _ _ _

/-- A consumer that takes over cannot make up for an event that was lost. -/
theorem stays_lost {s : State} (hdone : s.taskDone = false) (hconsumer : s.consumer = .absent)
    (hlost : s.received.length + s.queue.items.length < s.arrived.length)
    (event : StreamingContentEvent) :
    ∃ more u, Run step s more u ∧ u.consumer = .returned ∧
      u.received.length < u.arrived.length := by
  let s₁ : State := { s with buffers := onEvent event s.buffers, arrived := s.arrived ++ [event] }
  have harrive : step s (.arrive event) = some s₁ := by simp [step, hdone, s₁]
  have hitems : s₁.queue.items = s.queue.items ++ [event] := by
    simp [s₁, State.queue, onEvent_queue]
  have hopen : step s₁ .openStream = some (iterate s₁) := by simp [step, s₁, hconsumer, hdone]
  rcases iterate_eq s₁ with ⟨front, rest, hfront, heq⟩ | ⟨hnil, -⟩ | ⟨hnil, -⟩
  · let s₂ : State := { iterate s₁ with taskDone := true }
    have hcomplete : step (iterate s₁) .complete = some s₂ := by
      simp [step, s₂, iterate_taskDone, s₁, hdone]
    obtain ⟨more, u, hrun, hreturned, hreceived, harrived⟩ :=
      drain (s := s₂) rfl (by simp [s₂, heq, State.yield])
    refine ⟨_, u, (((Run.single harrive).snoc hopen).snoc hcomplete).append hrun, hreturned, ?_⟩
    have hlength : rest.length = s.queue.items.length := by
      have h := congrArg List.length (hfront.symm.trans hitems)
      simpa using h
    rw [hreceived, harrived]
    simp only [s₂, heq, State.yield, State.setQueue, s₁, List.length_append, List.length_singleton,
      hlength]
    omega
  · simp [hitems] at hnil
  · simp [hitems] at hnil

theorem Sound.holds_one {s : State} (hs : Sound s) {getTask : Nat} {event : StreamingContentEvent}
    (hconsumer : s.consumer = .waiting getTask) (htaken : s.queue.taken getTask = [event]) :
    s.received.length + s.queue.items.length < s.arrived.length := by
  have hconserved := congrArg List.length hs.conserved
  simp only [held, hconsumer, htaken, List.length_append, List.length_singleton] at hconserved
  omega

/-- However a wait is interrupted while the task runs, an event may be lost. -/
theorem interruption_loses {s t : State} (hs : Sound s) (hdone : s.taskDone = false)
    (hwait : interruptsWait s .cancel = true) (hstep : step s .cancel = some t)
    (event : StreamingContentEvent) :
    ∃ more u, Run step t more u ∧ u.consumer = .returned ∧ u.received ≠ u.arrived := by
  obtain ⟨-, getTask, hconsumer⟩ := interruptsWait_iff.mp hwait
  have ht : t = { s with consumer := .absent } := by
    simpa [step, cancel, hconsumer] using hstep.symm
  subst ht
  let s₁ : State := { s with buffers := onEvent event s.buffers, arrived := s.arrived ++ [event] }
  have harrive : step { s with consumer := .absent } (.arrive event) =
      some { s₁ with consumer := .absent } := by simp [step, hdone, s₁]
  have hqueue : s₁.queue = s.queue.putNowait event := onEvent_queue event s.buffers
  have hsole := hs.sole
  rw [hconsumer] at hsole
  have hs₁ : Sound s₁ := hs.arrive event hdone
  -- the read left behind takes an event before anyone else reads the queue
  obtain ⟨more, u, hrun, hdone', hconsumer', hlost⟩ : ∃ more u,
      Run step { s with consumer := .absent } more u ∧ u.taskDone = false ∧
        u.consumer = .absent ∧ u.received.length + u.queue.items.length < u.arrived.length := by
    rcases AsyncQueue.putNowait_reaches event hs.wellFormed hsole
      (hs.waiting getTask hconsumer) with ⟨front, htaken⟩ | ⟨queue, front, hrun, htaken⟩
    · rw [← hqueue] at htaken
      exact ⟨_, _, .single harrive, hdone, rfl, hs₁.holds_one hconsumer htaken⟩
    · rw [← hqueue] at hrun
      have hread : step { s₁ with consumer := .absent } (.read getTask) =
          some { s₁.setQueue queue with consumer := .absent } := by
        change (s₁.queue.runRead getTask).map _ = _
        rw [hrun]
        rfl
      exact ⟨_, _, (Run.single harrive).snoc hread, hdone, rfl,
        (hs₁.ran hrun).holds_one hconsumer htaken⟩
  obtain ⟨rest, v, hrest, hreturned, hshort⟩ := stays_lost hdone' hconsumer' hlost event
  refine ⟨_, v, hrun.append hrest, hreturned, fun heq => ?_⟩
  rw [heq] at hshort
  exact Nat.lt_irrefl _ hshort

/-! ## Live and replayed -/

/-- `clear on reset, append on delta`. -/
def retain (deltas : List BridgeContentDeltaResponse) :
    StreamingContentEvent → List BridgeContentDeltaResponse
  | .delta delta => deltas ++ [delta]
  | .reset _ => []

def render (text : Text) : StreamingContentEvent → Text
  | .delta delta => text ++ delta.delta
  | .reset _ => []

def deltaText : StreamingContentEvent → Text
  | .delta delta => delta.delta
  | .reset _ => []

theorem foldl_render (events : List StreamingContentEvent)
    (deltas : List BridgeContentDeltaResponse) :
    events.foldl render (deltas.flatMap BridgeContentDeltaResponse.delta) =
      (events.foldl retain deltas).flatMap BridgeContentDeltaResponse.delta := by
  induction events generalizing deltas with
  | nil => rfl
  | cons event events ih =>
      rw [List.foldl_cons, List.foldl_cons, ← ih]
      cases event with
      | delta delta => simp [render, retain]
      | reset reset => rfl

theorem onEvent_deltas (event : StreamingContentEvent) (b : Buffers) :
    (onEvent event b).deltas = retain b.deltas event := by
  cases event <;> rfl

theorem iterate_kept (s : State) :
    (iterate s).buffers.deltas = s.buffers.deltas ∧ (iterate s).arrived = s.arrived := by
  rcases iterate_eq s with ⟨_, _, -, heq⟩ | ⟨-, -, heq⟩ | ⟨-, -, heq⟩
  · rw [heq]; exact ⟨rfl, rfl⟩
  · rw [heq]; exact ⟨rfl, rfl⟩
  · rw [heq]; exact ⟨rfl, rfl⟩

/-- Step: `_deltas` is what the events so far leave. -/
theorem Effect.retained {s t : State} {a : Action} (h : Effect s a t)
    (hs : s.buffers.deltas = s.arrived.foldl retain []) :
    t.buffers.deltas = t.arrived.foldl retain [] := by
  cases h with
  | arrived event hdone =>
      rw [onEvent_deltas, hs, List.foldl_append]
      rfl
  | opened | resumed | discarded =>
      rw [(iterate_kept s).1, (iterate_kept s).2]
      exact hs
  | completed | delivered | cancelledRead | cancelled | suppressed | ran => exact hs

theorem retained_of_run {past : List Action} {s : State} (h : Run step {} past s) :
    s.buffers.deltas = s.arrived.foldl retain [] :=
  h.invariant (I := fun _ s => s.buffers.deltas = s.arrived.foldl retain []) rfl
    fun _ _ _ _ hs hstep => (step_effect hstep).retained hs

theorem replay_text {s : State} (hs : s.buffers.deltas = s.arrived.foldl retain []) :
    s.arrived.foldl render [] = (replay s).flatMap deltaText := by
  have hfold := foldl_render s.arrived []
  rw [← hs] at hfold
  rw [replay, List.flatMap_map]
  exact hfold

/-! ## Delivery -/

def hello : StreamingContentEvent := .delta ⟨0, "hello".toList⟩

/-- A consumer that times out while it waits, and one that takes over. -/
theorem stream_loses_event :
    ¬ ∀ past s, Run step {} past s → s.consumer = .returned → s.received = s.arrived := by
  intro h
  have hrun : Run step {} [.openStream, .read 0, .cancel, .arrive hello, .read 0, .openStream,
      .complete, .advance, .read 1, .advance] _ := .of_foldlM rfl
  cases h _ _ hrun rfl

/-- In every run without an interrupted wait: what arrived has been received in
order, is held by the present consumer's read or is queued; a stream that ends
has received all of it, and once the task is done it does end. An interruption
from there on can lose an event. -/
theorem stream_delivers {past : List Action} {s : State}
    (hrun : Run (restrict uninterrupted step) {} past s) :
    s.received ++ held s ++ s.queue.items = s.arrived ∧
    (s.consumer = .returned → s.received = s.arrived) ∧
    (s.taskDone = true → s.consumer ≠ .absent → Ends s) ∧
    ∀ t, s.taskDone = false → interruptsWait s .cancel = true → step s .cancel = some t →
      ∃ more u, Run step t more u ∧ u.consumer = .returned ∧ u.received ≠ u.arrived := by
  have hs := sound_of_run hrun
  refine ⟨hs.conserved, fun hreturned => hs.all_received hreturned, hs.ends, ?_⟩
  exact fun t hdone hwait hstep => interruption_loses hs hdone hwait hstep (.reset ⟨0, 1⟩)

/-- A consumer that is cancelled at an event, and one that takes over. -/
theorem stream_delivers_replaced :
    ∃ s, Run (restrict uninterrupted step) {} [.openStream, .read 0, .arrive hello, .read 0,
      .advance, .cancel, .openStream, .arrive (.reset ⟨1, 2⟩), .read 1, .complete, .advance,
      .advance] s ∧ s.received = [hello, .reset ⟨1, 2⟩] := by
  have hrun : Run (restrict uninterrupted step) {} [.openStream, .read 0, .arrive hello, .read 0,
      .advance, .cancel, .openStream, .arrive (.reset ⟨1, 2⟩), .read 1, .complete, .advance,
      .advance] _ := .of_foldlM rfl
  exact ⟨_, hrun, (stream_delivers hrun).2.1 rfl⟩

/-- In every run without a cancellation, of any sequence of events: the consumer gets
a prefix of what arrived; where its stream ends, it has got all of it, and folding
it gives the text of a replay; and once the task is done, its stream does end. -/
theorem live_equals_replay {past : List Action} {s : State} (hrun : Run step {} past s)
    (hcancel : .cancel ∉ past) :
    s.received <+: s.arrived ∧
    (s.consumer = .returned → s.received = s.arrived ∧
      s.received.foldl render [] = (replay s).flatMap deltaText) ∧
    (s.taskDone = true → s.consumer ≠ .absent → Ends s) := by
  have hs : Sound s := by
    refine sound_of_run (hrun.restricted fun a hmem s => ?_)
    rw [uninterrupted, Bool.not_eq_true', Bool.eq_false_iff, Ne, interruptsWait_iff]
    exact fun h => hcancel (h.1 ▸ hmem)
  refine ⟨⟨held s ++ s.queue.items, ?_⟩, fun hreturned => ?_, hs.ends⟩
  · rw [← List.append_assoc]
    exact hs.conserved
  · have hall := hs.all_received hreturned
    refine ⟨hall, ?_⟩
    rw [hall]
    exact replay_text (retained_of_run hrun)

theorem live_equals_replay_reset :
    ∃ s, Run step {} [.arrive hello, .openStream, .arrive (.reset ⟨1, 2⟩), .arrive hello, .advance,
      .complete, .advance, .advance] s ∧ s.received = [hello, .reset ⟨1, 2⟩, hello] ∧
        s.received.foldl render [] = (replay s).flatMap deltaText := by
  have hrun : Run step {} [.arrive hello, .openStream, .arrive (.reset ⟨1, 2⟩), .arrive hello,
      .advance, .complete, .advance, .advance] _ := .of_foldlM rfl
  exact ⟨_, hrun, (live_equals_replay hrun (by simp)).2.1 rfl⟩

end DualeAI.Response
