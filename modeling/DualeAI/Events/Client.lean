import DualeAI.Events.HttpTransport

/-!
`CloudEventsClient.run_task` and `submit_tool_results`.

Both consume one streaming request up to its first terminal event and translate
the transport's errors to the SDK's. The callbacks are recorded as they fire;
they are the SDK's own and raise nothing.
-/
namespace DualeAI.Client
open Foundation Http

structure Callbacks where
  delta : Bool
  reset : Bool
  toolUse : Bool

inductive Fired where
  | delta (text : Text)
  | reset (generation : Nat)
  | toolUse (call : BridgeToolUseResponse) (eventId : Text)

/-- `_dispatch_stream_event`: the callback fired, if one is, and the terminal event. -/
def dispatchStreamEvent (callbacks : Callbacks) (event : BridgeSSEEvent) :
    List Fired × Option BridgeEventData :=
  match event.data with
  | .contentDelta text => (if callbacks.delta then [.delta text] else [], none)
  | .contentReset generation => (if callbacks.reset then [.reset generation] else [], none)
  | .toolUse call => (if callbacks.toolUse then [.toolUse call event.id] else [], none)
  | .taskCompleted result => ([], some (.taskCompleted result))
  | .taskError data => ([], some (.taskError data))
  | .taskStopped reason => ([], some (.taskStopped reason))

def dispatchStream (callbacks : Callbacks) :
    List BridgeSSEEvent → List Fired × Option BridgeEventData
  | [] => ([], none)
  | event :: events =>
      match dispatchStreamEvent callbacks event with
      | (fired, some terminal) => (fired, some terminal)
      | (fired, none) =>
          let rest := dispatchStream callbacks events
          (fired ++ rest.1, rest.2)

/-- `_raise_translated`, with the problem details lifted. -/
def translated (text : String) (error : HTTPTransportError) : DualeAIError where
  kind :=
    match error.kind with
    | .auth => .authError
    | .response => .businessError
    | .connection | .stream => .connectionError
  cause := .transport text error
  problemDetails := error.problemDetails

/-- What `_consume_terminal_stream` raises where a stream ends without a terminal event. -/
def streamEndError (taskId : Text) (operation : String) : Except Exc Unit → Exc
  | .ok () => .sdk ⟨.connectionError, .endedWithoutTerminal operation taskId, none⟩
  | .error (.transport error) => .sdk (translated (operation ++ " failed") error)
  | .error e => e

def consumeTerminalStream (callbacks : Callbacks) (taskId : Text) (operation : String)
    (stream : Gen Exc BridgeSSEEvent Unit) : Gen Exc Fired BridgeEventData :=
  match dispatchStream callbacks stream.yields with
  | (fired, some terminal) => ⟨fired, .ok terminal⟩
  | (fired, none) => ⟨fired, .error (streamEndError taskId operation stream.result)⟩

structure CloudEventsClient where
  connected : Bool
  hasTransport : Bool
  /-- `is_connected` of the transport. -/
  transportConnected : Bool

structure BridgeTaskRequest where
  type : Text
  fields : Body

def BridgeTaskRequest.json (request : BridgeTaskRequest) : Body :=
  ("type".toList, .str request.type) :: request.fields

def taskPath (taskId : Text) : Text := "/v1/tasks/".toList ++ taskId

def continueType : Text := "continue".toList

section Operations
variable (D : HttpDecoders) (client : CloudEventsClient) (session : Nat → Request → Reply)
variable (callbacks : Callbacks) (taskId : Text)

def taskStream (body : Body) (lastEventId : Option Text) : Gen Exc BridgeSSEEvent Unit :=
  received (streamRequest D client.transportConnected session .post (taskPath taskId) (some body)
    lastEventId)

def ensureConnected (body : Gen Exc Fired BridgeEventData) : Gen Exc Fired BridgeEventData :=
  if client.connected && client.hasTransport then body
  else Gen.raise (.sdk ⟨.connectionError, .notConnected, none⟩)

def runTask (request : BridgeTaskRequest) : Gen Exc Fired BridgeEventData :=
  let operation := if request.type = continueType then "Task continuation" else "Task run"
  ensureConnected client (consumeTerminalStream callbacks taskId operation
    (taskStream D client session taskId request.json none))

def submitToolResults (request : Body) (lastEventId : Option Text) :
    Gen Exc Fired BridgeEventData :=
  ensureConnected client (consumeTerminalStream callbacks taskId "Tool results submission"
    (taskStream D client session taskId request lastEventId))

end Operations

/-! ## What the loop over a stream does -/

def Fired.ofEvent (event : BridgeSSEEvent) : Option Fired :=
  match event.data with
  | .contentDelta text => some (.delta text)
  | .contentReset generation => some (.reset generation)
  | .toolUse call => some (.toolUse call event.id)
  | .taskCompleted _ | .taskError _ | .taskStopped _ => none

def Callbacks.given (callbacks : Callbacks) : Fired → Bool
  | .delta _ => callbacks.delta
  | .reset _ => callbacks.reset
  | .toolUse _ _ => callbacks.toolUse

def firedBy (callbacks : Callbacks) (events : List BridgeSSEEvent) : List Fired :=
  (events.filterMap Fired.ofEvent).filter callbacks.given

def beforeTerminal (events : List BridgeSSEEvent) : List BridgeSSEEvent :=
  events.takeWhile fun event => !event.data.isTerminal

theorem dispatchStreamEvent_terminal (callbacks : Callbacks) {event : BridgeSSEEvent}
    (h : event.data.isTerminal = true) :
    dispatchStreamEvent callbacks event = ([], some event.data) := by
  obtain ⟨id, data⟩ := event
  cases data <;> first | rfl | cases h

theorem dispatchStreamEvent_open (callbacks : Callbacks) {event : BridgeSSEEvent}
    (h : event.data.isTerminal = false) :
    dispatchStreamEvent callbacks event = (firedBy callbacks [event], none) := by
  obtain ⟨id, data⟩ := event
  cases data with
  | contentDelta text =>
      cases hgiven : callbacks.delta <;>
        simp [dispatchStreamEvent, firedBy, Fired.ofEvent, Callbacks.given, hgiven]
  | contentReset generation =>
      cases hgiven : callbacks.reset <;>
        simp [dispatchStreamEvent, firedBy, Fired.ofEvent, Callbacks.given, hgiven]
  | toolUse call =>
      cases hgiven : callbacks.toolUse <;>
        simp [dispatchStreamEvent, firedBy, Fired.ofEvent, Callbacks.given, hgiven]
  | taskCompleted _ | taskError _ | taskStopped _ => cases h

theorem firedBy_cons (callbacks : Callbacks) (event : BridgeSSEEvent)
    (events : List BridgeSSEEvent) :
    firedBy callbacks (event :: events) =
      firedBy callbacks [event] ++ firedBy callbacks events := by
  rw [firedBy, ← List.singleton_append, List.filterMap_append, List.filter_append]
  rfl

/-- The loop fires the callbacks of the events before the first terminal one,
and stops at that one. -/
theorem dispatchStream_eq (callbacks : Callbacks) (events : List BridgeSSEEvent) :
    dispatchStream callbacks events =
      (firedBy callbacks (beforeTerminal events),
        (events.find? fun event => event.data.isTerminal).map BridgeSSEEvent.data) := by
  induction events with
  | nil => rfl
  | cons event events ih =>
      rw [dispatchStream]
      cases h : event.data.isTerminal with
      | true => simp [dispatchStreamEvent_terminal callbacks h, beforeTerminal, firedBy, h]
      | false =>
          have hbefore : beforeTerminal (event :: events) = event :: beforeTerminal events := by
            simp [beforeTerminal, h]
          rw [dispatchStreamEvent_open callbacks h, hbefore,
            firedBy_cons callbacks event (beforeTerminal events),
            List.find?_cons_of_neg (by simp [h]), ih]

theorem consumeTerminalStream_yields (callbacks : Callbacks) (taskId : Text) (operation : String)
    (stream : Gen Exc BridgeSSEEvent Unit) :
    (consumeTerminalStream callbacks taskId operation stream).yields =
      firedBy callbacks (beforeTerminal stream.yields) := by
  rw [consumeTerminalStream, dispatchStream_eq]
  cases (stream.yields.find? fun event => event.data.isTerminal) <;> rfl

theorem consumeTerminalStream_terminal (callbacks : Callbacks) (taskId : Text)
    (operation : String) {stream : Gen Exc BridgeSSEEvent Unit} {event : BridgeSSEEvent}
    (h : stream.yields.find? (fun event => event.data.isTerminal) = some event) :
    (consumeTerminalStream callbacks taskId operation stream).result = .ok event.data := by
  rw [consumeTerminalStream, dispatchStream_eq, h]
  rfl

theorem consumeTerminalStream_open (callbacks : Callbacks) (taskId : Text)
    (operation : String) {stream : Gen Exc BridgeSSEEvent Unit}
    (h : ∀ event ∈ stream.yields, event.data.isTerminal = false) :
    (consumeTerminalStream callbacks taskId operation stream).result =
      .error (streamEndError taskId operation stream.result) := by
  have hfind : stream.yields.find? (fun event => event.data.isTerminal) = none := by
    simpa [List.find?_eq_none] using h
  rw [consumeTerminalStream, dispatchStream_eq, hfind]
  rfl

end DualeAI.Client
