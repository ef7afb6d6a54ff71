import DualeAI.Events.StreamResume
import DualeAI.Sdk.StreamDelivery

/-!
A streaming task from the Bridge's log to the consumer of its response.

`run_task` fires its callbacks one after another within the response's task, the
content callbacks fill the buffers of `_build_streaming_buffers`, and `stream()`
reads them. What the transport resumes, what the client dispatches and what the
queue hands on compose: however the connection fails and however the task and the
consumer take turns, the consumer gets the log's content, in order and once.
-/
namespace DualeAI.TaskDelivery
open Foundation Http Client

/-- The callbacks that `_build_streaming_buffers` makes are all given. -/
def buffersCallbacks : Callbacks := ⟨true, true, true⟩

def contentOnly : Callbacks := ⟨true, true, false⟩

def toolUsesOnly : Callbacks := ⟨false, false, true⟩

structure State where
  /-- The callbacks that `run_task` has still to fire. -/
  pending : List Fired
  /-- `run_task` has returned or raised. -/
  ended : Bool := false
  response : Response.State := {}
  /-- The tool uses handed to `_schedule_tool_use`. -/
  scheduled : List Fired := []

inductive Action where
  /-- The next callback fires, for an event of this timestamp. -/
  | fire (timestamp : Int)
  | finish
  | cancelTask
  | openStream
  | advance
  | cancel
  | read (getTask : Nat)

def start (task : Gen Exc Fired BridgeEventData) : State := { pending := task.yields }

def State.respond (s : State) (a : Response.Action) : Option State :=
  (Response.step s.response a).map fun response => { s with response := response }

def fire (timestamp : Int) (s : State) : Option State :=
  match s.pending with
  | [] => none
  | .delta text :: rest =>
      State.respond { s with pending := rest } (.arrive (.delta ⟨timestamp, text⟩))
  | .reset generation :: rest =>
      State.respond { s with pending := rest } (.arrive (.reset ⟨timestamp, generation⟩))
  | .toolUse call eventId :: rest =>
      if s.response.taskDone then none
      else some { s with pending := rest, scheduled := s.scheduled ++ [.toolUse call eventId] }

def step (s : State) : Action → Option State
  | .fire timestamp => fire timestamp s
  | .finish =>
      match s.pending with
      | [] => State.respond { s with ended := true } .complete
      | _ :: _ => none
  | .cancelTask => s.respond .complete
  | .openStream => s.respond .openStream
  | .advance => s.respond .advance
  | .cancel => s.respond .cancel
  | .read getTask => s.respond (.read getTask)

/-- The consumer is not cancelled while it waits for a read. -/
def uninterrupted (s : State) : Action → Bool
  | .cancel => Response.uninterrupted s.response .cancel
  | _ => true

/-- The callback that handed on an event. -/
def shown : Response.StreamingContentEvent → Fired
  | .delta delta => .delta delta.delta
  | .reset reset => .reset reset.generation

/-! ## Steps -/

inductive Effect (s : State) : Action → State → Prop where
  | content (timestamp : Int) (event : Response.StreamingContentEvent) (rest : List Fired)
      (hpending : s.pending = shown event :: rest) (response : Response.State)
      (hresponse : Response.step s.response (.arrive event) = some response) :
      Effect s (.fire timestamp) { s with pending := rest, response := response }
  | toolUse (timestamp : Int) (call : BridgeToolUseResponse) (eventId : Text) (rest : List Fired)
      (hpending : s.pending = .toolUse call eventId :: rest) :
      Effect s (.fire timestamp)
        { s with pending := rest, scheduled := s.scheduled ++ [.toolUse call eventId] }
  | ended (hpending : s.pending = []) (response : Response.State)
      (hresponse : Response.step s.response .complete = some response) :
      Effect s .finish { s with ended := true, response := response }
  | responded {a : Action} (b : Response.Action) (response : Response.State)
      (hb : ∀ event, b ≠ .arrive event) (ha : b = .cancel → a = .cancel)
      (hresponse : Response.step s.response b = some response) :
      Effect s a { s with response := response }

theorem respond_eq_some {s t : State} {a : Response.Action} (h : s.respond a = some t) :
    ∃ response, Response.step s.response a = some response ∧
      t = { s with response := response } := by
  obtain ⟨response, hresponse, rfl⟩ := Option.map_eq_some_iff.mp h
  exact ⟨response, hresponse, rfl⟩

theorem fire_effect {s t : State} {timestamp : Int} (h : fire timestamp s = some t) :
    Effect s (.fire timestamp) t := by
  rw [fire] at h
  split at h
  · cases h
  · next text rest hpending =>
      obtain ⟨response, hresponse, rfl⟩ := respond_eq_some h
      exact .content timestamp (.delta ⟨timestamp, text⟩) rest hpending response hresponse
  · next generation rest hpending =>
      obtain ⟨response, hresponse, rfl⟩ := respond_eq_some h
      exact .content timestamp (.reset ⟨timestamp, generation⟩) rest hpending response hresponse
  · next call eventId rest hpending =>
      split at h
      · cases h
      · cases h
        exact .toolUse timestamp call eventId rest hpending

theorem step_effect {s t : State} {a : Action} (h : step s a = some t) : Effect s a t := by
  cases a with
  | fire timestamp => exact fire_effect h
  | finish =>
      simp only [step] at h
      split at h
      · next hpending =>
          obtain ⟨response, hresponse, rfl⟩ := respond_eq_some h
          exact .ended hpending response hresponse
      · cases h
  | cancelTask =>
      obtain ⟨response, hresponse, rfl⟩ := respond_eq_some h
      exact .responded .complete response nofun nofun hresponse
  | openStream =>
      obtain ⟨response, hresponse, rfl⟩ := respond_eq_some h
      exact .responded .openStream response nofun nofun hresponse
  | advance =>
      obtain ⟨response, hresponse, rfl⟩ := respond_eq_some h
      exact .responded .advance response nofun nofun hresponse
  | cancel =>
      obtain ⟨response, hresponse, rfl⟩ := respond_eq_some h
      exact .responded .cancel response nofun (fun _ => rfl) hresponse
  | read getTask =>
      obtain ⟨response, hresponse, rfl⟩ := respond_eq_some h
      exact .responded (.read getTask) response nofun nofun hresponse

/-! ## The response within the task -/

theorem uninterrupted_of_ne {response : Response.State} {b : Response.Action}
    (hb : b ≠ .cancel) : Response.uninterrupted response b = true := by
  rw [Response.uninterrupted, Bool.not_eq_true', Bool.eq_false_iff, Ne,
    Response.interruptsWait_iff]
  exact fun h => hb h.1

/-- Step: what a step makes of the response is a step of the response, or none. -/
theorem Effect.response {s t : State} {a : Action} (h : Effect s a t)
    (ha : uninterrupted s a = true) :
    t.response = s.response ∨
      ∃ b, restrict Response.uninterrupted Response.step s.response b = some t.response := by
  cases h with
  | content timestamp event rest hpending response hresponse =>
      exact .inr ⟨.arrive event, restrict_eq_some.mpr ⟨uninterrupted_of_ne nofun, hresponse⟩⟩
  | toolUse => exact .inl rfl
  | ended hpending response hresponse =>
      exact .inr ⟨.complete, restrict_eq_some.mpr ⟨uninterrupted_of_ne nofun, hresponse⟩⟩
  | responded b response hb hcancel hresponse =>
      refine .inr ⟨b, restrict_eq_some.mpr ⟨?_, hresponse⟩⟩
      by_cases heq : b = .cancel
      · have hact := hcancel heq
        subst heq hact
        exact ha
      · exact uninterrupted_of_ne heq

theorem response_run {task : Gen Exc Fired BridgeEventData} {past : List Action} {s : State}
    (hrun : Run (restrict uninterrupted step) (start task) past s) :
    ∃ trace, Run (restrict Response.uninterrupted Response.step) {} trace s.response := by
  refine hrun.invariant (I := fun _ s =>
    ∃ trace, Run (restrict Response.uninterrupted Response.step) {} trace s.response)
    ⟨[], .nil⟩ ?_
  intro past t a u ht hstep
  obtain ⟨trace, htrace⟩ := ht
  obtain ⟨hallowed, hstep⟩ := restrict_eq_some.mp hstep
  cases (step_effect hstep).response hallowed with
  | inl hsame =>
      rw [hsame]
      exact ⟨trace, htrace⟩
  | inr hmoves =>
      obtain ⟨b, hb⟩ := hmoves
      exact ⟨_, .snoc htrace hb⟩

/-! ## What the task hands on -/

/-- The callbacks fired so far and those still to fire are those of the task, the
content in the response and the tool uses apart. -/
structure HandsOn (task : Gen Exc Fired BridgeEventData) (s : State) : Prop where
  content : s.response.arrived.map shown ++ s.pending.filter contentOnly.given =
    task.yields.filter contentOnly.given
  toolUses : s.scheduled ++ s.pending.filter toolUsesOnly.given =
    task.yields.filter toolUsesOnly.given
  ended : s.ended = true → s.pending = []

theorem shown_given (event : Response.StreamingContentEvent) :
    contentOnly.given (shown event) = true ∧ toolUsesOnly.given (shown event) = false := by
  cases event with
  | delta _ => exact ⟨rfl, rfl⟩
  | reset _ => exact ⟨rfl, rfl⟩

theorem arrive_arrived {s t : Response.State} {event : Response.StreamingContentEvent}
    (h : Response.step s (.arrive event) = some t) : t.arrived = s.arrived ++ [event] := by
  cases Response.step_effect h with
  | arrived => rfl

theorem respond_arrived {s t : Response.State} {a : Response.Action}
    (h : Response.step s a = some t) (ha : ∀ event, a ≠ .arrive event) :
    t.arrived = s.arrived := by
  cases Response.step_effect h with
  | arrived event => exact absurd rfl (ha event)
  | opened | resumed | discarded => exact (Response.iterate_kept s).2
  | completed | delivered | cancelledRead | cancelled | suppressed | ran => rfl

theorem Effect.handsOn {task : Gen Exc Fired BridgeEventData} {s t : State} {a : Action}
    (h : Effect s a t) (hs : HandsOn task s) : HandsOn task t := by
  have hcontent := hs.content
  have htoolUses := hs.toolUses
  cases h with
  | content timestamp event rest hpending response hresponse =>
      obtain ⟨hgiven, hother⟩ := shown_given event
      rw [hpending, List.filter_cons_of_pos hgiven] at hcontent
      rw [hpending, List.filter_cons_of_neg (by simp [hother])] at htoolUses
      refine ⟨?_, htoolUses, fun hended => ?_⟩
      · rw [arrive_arrived hresponse, List.map_append, List.append_assoc]
        exact hcontent
      · rw [hs.ended hended] at hpending
        cases hpending
  | toolUse timestamp call eventId rest hpending =>
      rw [hpending, List.filter_cons_of_neg (by simp [Callbacks.given, contentOnly])] at hcontent
      rw [hpending, List.filter_cons_of_pos (by simp [Callbacks.given, toolUsesOnly])] at htoolUses
      refine ⟨hcontent, ?_, fun hended => ?_⟩
      · rw [List.append_assoc]
        exact htoolUses
      · rw [hs.ended hended] at hpending
        cases hpending
  | ended hpending response hresponse =>
      refine ⟨?_, htoolUses, fun _ => hpending⟩
      rw [respond_arrived hresponse (by simp)]
      exact hcontent
  | responded b response hb _ hresponse =>
      refine ⟨?_, htoolUses, hs.ended⟩
      rw [respond_arrived hresponse hb]
      exact hcontent

theorem handsOn_of_run {task : Gen Exc Fired BridgeEventData} {past : List Action} {s : State}
    (hrun : Run (restrict uninterrupted step) (start task) past s) : HandsOn task s := by
  refine hrun.invariant (I := fun _ s => HandsOn task s)
    ⟨rfl, rfl, fun hended => absurd hended Bool.false_ne_true⟩ ?_
  intro past t a u ht hstep
  exact (step_effect (restrict_eq_some.mp hstep).2).handsOn ht

/-! ## What `run_task` fires -/

theorem beforeTerminal_isPrefix {events log : List BridgeSSEEvent} (h : events <+: log) :
    beforeTerminal events <+: beforeTerminal log := by
  obtain ⟨rest, rfl⟩ := h
  rw [beforeTerminal, beforeTerminal, List.takeWhile_append]
  split
  · next hall =>
      have heq := (List.takeWhile_prefix _).eq_of_length hall
      rw [heq]
      exact List.prefix_append _ _
  · exact List.prefix_refl _

theorem beforeTerminal_of_terminal {events log : List BridgeSSEEvent} (h : events <+: log)
    {event : BridgeSSEEvent}
    (hfind : events.find? (fun event => event.data.isTerminal) = some event) :
    beforeTerminal events = beforeTerminal log := by
  obtain ⟨rest, rfl⟩ := h
  rw [beforeTerminal, beforeTerminal, List.takeWhile_append, if_neg]
  intro hall
  have heq := (List.takeWhile_prefix _).eq_of_length hall
  have hmem := List.mem_of_find?_eq_some hfind
  rw [← heq] at hmem
  have hopen := List.mem_takeWhile_imp hmem
  rw [List.find?_some hfind] at hopen
  cases hopen

theorem firedBy_isPrefix (callbacks : Callbacks) {events log : List BridgeSSEEvent}
    (h : events <+: log) : firedBy callbacks events <+: firedBy callbacks log :=
  (h.filterMap Fired.ofEvent).filter callbacks.given

/-- The loop over a beginning of the log fires a beginning of what the log holds before
its first terminal event, and all of it where it returns. -/
structure Delivers (log : List BridgeSSEEvent) (callbacks : Callbacks)
    (task : Gen Exc Fired BridgeEventData) : Prop where
  fires : task.yields <+: firedBy callbacks (beforeTerminal log)
  returns : ∀ terminal, task.result = .ok terminal →
    task.yields = firedBy callbacks (beforeTerminal log) ∧
      ∃ event, log.find? (fun event => event.data.isTerminal) = some event ∧
        terminal = event.data

theorem consumeTerminalStream_delivers {log : List BridgeSSEEvent} (callbacks : Callbacks)
    (taskId : Text) (operation : String) {stream : Gen Exc BridgeSSEEvent Unit}
    (h : stream.yields <+: log) :
    Delivers log callbacks (consumeTerminalStream callbacks taskId operation stream) := by
  have hyields := consumeTerminalStream_yields callbacks taskId operation stream
  refine ⟨?_, fun terminal hresult => ?_⟩
  · rw [hyields]
    exact firedBy_isPrefix callbacks (beforeTerminal_isPrefix h)
  · cases hfind : stream.yields.find? fun event => event.data.isTerminal with
    | none =>
        have hopen : ∀ event ∈ stream.yields, event.data.isTerminal = false := by
          simpa [List.find?_eq_none] using hfind
        rw [consumeTerminalStream_open callbacks taskId operation hopen] at hresult
        cases hresult
    | some event =>
        rw [consumeTerminalStream_terminal callbacks taskId operation hfind] at hresult
        cases hresult
        rw [hyields, beforeTerminal_of_terminal h hfind]
        exact ⟨rfl, event, h.find?_eq_some hfind, rfl⟩

variable {D : HttpDecoders}

theorem runTask_delivers {log : BridgeLog D} {session : Nat → Request → Reply}
    (hsession : ∀ number r, log.Knows r.lastEventId →
      Resumes D log r.lastEventId (session number r))
    (client : CloudEventsClient) (callbacks : Callbacks) (taskId : Text)
    (request : BridgeTaskRequest) :
    Delivers log.sseEvents callbacks
      (runTask D client session callbacks taskId request) := by
  rw [runTask, ensureConnected]
  split
  · apply consumeTerminalStream_delivers
    exact streamRequest_resumes client.transportConnected (by simp [BridgeLog.Knows]) hsession
      .post (taskPath taskId) (some request.json)
  · refine ⟨List.nil_prefix, fun terminal hresult => ?_⟩
    cases hresult

/-! ## From the log to the consumer -/

/-- The text after a callback: a delta appends to it, a reset clears it. -/
def renderFired (text : Text) : Fired → Text
  | .delta delta => text ++ delta
  | .reset _ => []
  | .toolUse _ _ => text

theorem foldl_renderFired (events : List Response.StreamingContentEvent) (text : Text) :
    (events.map shown).foldl renderFired text = events.foldl Response.render text := by
  induction events generalizing text with
  | nil => rfl
  | cons event events ih =>
      rw [List.map_cons, List.foldl_cons, List.foldl_cons, ih]
      cases event with
      | delta _ => rfl
      | reset _ => rfl

def logContent (log : BridgeLog D) : List Fired :=
  firedBy contentOnly (beforeTerminal log.sseEvents)

def logToolUses (log : BridgeLog D) : List Fired :=
  firedBy toolUsesOnly (beforeTerminal log.sseEvents)

theorem filter_firedBy (callbacks : Callbacks) (events : List BridgeSSEEvent) :
    (firedBy buffersCallbacks events).filter callbacks.given = firedBy callbacks events := by
  rw [firedBy, firedBy, List.filter_filter]
  apply List.filter_congr
  intro fired _
  cases fired <;> simp [Callbacks.given, buffersCallbacks]

/-- In every run where the consumer is not cancelled while it waits, over a Bridge that
answers from its log and a connection that fails in any way: what the consumer got is a
beginning of the log's content before its first terminal event, and the tool uses are
scheduled in the log's order, each once. Where `run_task` returned, it returned the log's
first terminal event, every tool use before it is scheduled, a stream that ended has got
exactly the content before it, and a replay shows the text that content makes. -/
theorem task_delivered {log : BridgeLog D} {session : Nat → Request → Reply}
    (hsession : ∀ number r, log.Knows r.lastEventId →
      Resumes D log r.lastEventId (session number r))
    (client : CloudEventsClient) (taskId : Text) (request : BridgeTaskRequest)
    {past : List Action} {s : State}
    (hrun : Run (restrict uninterrupted step)
      (start (runTask D client session buffersCallbacks taskId request)) past s) :
    s.response.received.map shown <+: logContent log ∧
    s.scheduled <+: logToolUses log ∧
    (s.response.taskDone = true → s.response.consumer ≠ .absent → Response.Ends s.response) ∧
    ∀ terminal, (runTask D client session buffersCallbacks taskId request).result = .ok terminal →
      s.ended = true →
        (∃ event, log.sseEvents.find? (fun event => event.data.isTerminal) = some event ∧
          terminal = event.data) ∧
        s.scheduled = logToolUses log ∧
        (s.response.consumer = .returned → s.response.received.map shown = logContent log) ∧
        (Response.replay s.response).flatMap Response.deltaText =
          (logContent log).foldl renderFired [] := by
  have hdelivers := runTask_delivers hsession client buffersCallbacks taskId request
  have hhands := handsOn_of_run hrun
  obtain ⟨trace, htrace⟩ := response_run hrun
  have hsound := Response.sound_of_run htrace
  have hreceived : s.response.received <+: s.response.arrived := by
    refine ⟨Response.held s.response ++ s.response.queue.items, ?_⟩
    rw [← List.append_assoc]
    exact hsound.conserved
  have hretained := Response.retained_of_run htrace.unrestricted
  have hcontent := hhands.content
  have htoolUses := hhands.toolUses
  refine ⟨?_, ?_, hsound.ends, fun terminal hresult hended => ?_⟩
  · have harrived : s.response.arrived.map shown <+: logContent log := by
      rw [logContent, ← filter_firedBy]
      refine .trans ⟨s.pending.filter contentOnly.given, hcontent⟩ ?_
      exact hdelivers.fires.filter contentOnly.given
    exact (hreceived.map shown).trans harrived
  · rw [logToolUses, ← filter_firedBy]
    refine .trans ⟨s.pending.filter toolUsesOnly.given, htoolUses⟩ ?_
    exact hdelivers.fires.filter toolUsesOnly.given
  · obtain ⟨hyields, hterminal⟩ := hdelivers.returns terminal hresult
    rw [hhands.ended hended, List.filter_nil, List.append_nil, hyields, filter_firedBy]
      at hcontent htoolUses
    refine ⟨hterminal, htoolUses, fun hreturned => ?_, ?_⟩
    · rw [hsound.all_received hreturned]
      exact hcontent
    · rw [logContent, ← hcontent, foldl_renderFired]
      exact (Response.replay_text hretained).symm

/-- The task over `stopSession`, which is cut off behind its first event and resumed. -/
def stopTask : Gen Exc Fired BridgeEventData :=
  runTask stopDecoders ⟨true, true, true⟩ stopSession buffersCallbacks "t".toList
    ⟨"create".toList, []⟩

def State.streamEnded (s : State) : Bool :=
  match s.response.consumer with
  | .returned => true
  | _ => false

theorem State.returned_of_streamEnded {s : State} (h : s.streamEnded = true) :
    s.response.consumer = .returned := by
  rw [State.streamEnded] at h
  split at h
  · next hreturned => exact hreturned
  · cases h

theorem task_delivered_resumed :
    ∃ past s, Run (restrict uninterrupted step) (start stopTask) past s ∧ s.ended = true ∧
      s.response.received.map shown = logContent stopLog := by
  have hreturns : stopTask.result.isOk = true := by decide +kernel
  obtain ⟨terminal, hresult⟩ : ∃ terminal, stopTask.result = .ok terminal := by
    cases hresult : stopTask.result with
    | ok terminal => exact ⟨terminal, rfl⟩
    | error e =>
        rw [hresult] at hreturns
        cases hreturns
  have hend : (([.openStream, .read 0, .fire 7, .read 0, .advance, .finish, .advance] :
      List Action).foldlM (restrict uninterrupted step) (start stopTask)).any
        (fun s => s.ended && s.streamEnded) = true := by decide +kernel
  obtain ⟨s, hfold, hs⟩ := (Option.any_eq_true _ _).mp hend
  obtain ⟨hended, hstream⟩ := (Bool.and_eq_true _ _).mp hs
  have hrun := Run.of_foldlM hfold
  have hsession (number : Nat) (r : Request) (_ : stopLog.Knows r.lastEventId) :
      Resumes stopDecoders stopLog r.lastEventId (stopSession number r) :=
    stopSession_resumes number r
  obtain ⟨-, -, -, hreturn⟩ := task_delivered hsession ⟨true, true, true⟩ "t".toList
    ⟨"create".toList, []⟩ hrun
  obtain ⟨-, -, hall, -⟩ := hreturn terminal hresult hended
  exact ⟨_, s, hrun, hended, hall (State.returned_of_streamEnded hstream)⟩

end DualeAI.TaskDelivery
