import DualeAI.Events.SseParser
import DualeAI.Foundation.Log
import DualeAI.Foundation.Retry

/-!
The streaming request of `HTTPTransport`, `_stream_request`.

One run is recorded as the log of what it does: requests sent, response statuses
read, events yielded and exceptions caught on the way. What the connection does
is a parameter, chosen freely for every attempt and request. The retry loop is
`Retry.retrying`; its waits and the headers that no other function reads are
left out.
-/
namespace DualeAI.Http
open Foundation Sse

inductive Method where
  | get
  | post
deriving DecidableEq, Repr

abbrev Body := List (Text × Json)

structure Request where
  method : Method
  path : Text
  lastEventId : Option Text
  json : Option Body

structure Response where
  status : Nat
  reason : Text
  body : Except Exc Bytes
  /-- The decrypted event stream of `iter_sse`. -/
  stream : Content

inductive Reply where
  | raises (e : Exc)
  | answers (response : Response)

structure HttpDecoders extends Decoders where
  loadsBody : Bytes → Except DecodeFailure Json
  validateProblem : Json → Except DecodeFailure ProblemDetails

def maxRetries : Nat := 10

def resolveRetryMethod (method : Method) (jsonData : Option Body) (streamEstablished : Bool) :
    Method × Option Body :=
  if streamEstablished && method == .post then (.get, none) else (method, jsonData)

variable (D : HttpDecoders)

def readProblemDetails (body : Except Exc Bytes) : Except Exc (Option ProblemDetails) :=
  match body with
  | .error e => if e.isException then .ok none else .error e
  | .ok raw =>
      match D.loadsBody raw with
      | .error .rejected => .ok none
      | .error (.raised className) => .error (.other className)
      | .ok (.obj fields) =>
          match D.validateProblem (.obj fields) with
          | .error .rejected => .ok none
          | .error (.raised className) => .error (.other className)
          | .ok problem => .ok (some problem)
      | .ok _ => .ok none

def statusErrorKind (status : Nat) : HTTPTransportErrorKind :=
  if status = 401 ∨ status = 403 then .auth
  else if status < 500 then .response
  else .connection

def raiseForHttpStatus (response : Response) : Except Exc Unit :=
  if response.status < 400 then .ok ()
  else
    match readProblemDetails D response.body with
    | .error e => .error e
    | .ok problem =>
        .error (.transport ⟨statusErrorKind response.status,
          .httpStatus response.status response.reason, problem⟩)

def isRetryableStreamError : Exc → Bool
  | .client .clientConnectionError => true
  | .client .serverTimeoutError => true
  | .client .clientPayloadError => true
  | .client .serverDisconnectedError => true
  | .sse e => e.isChecksumError
  | _ => false

/-- The `except` clauses of an attempt: a parse error other than a checksum
mismatch becomes a stream error, everything else is raised again. -/
def exceptClauses : Exc → Exc
  | .sse e => if e.isChecksumError then .sse e else .transport ⟨.stream, .sseParseError e, none⟩
  | e => e

structure StreamState where
  currentLastEventId : Option Text
  streamEstablished : Bool

inductive StreamAction where
  | sent (request : Request)
  | answered (status : Nat)
  | yielded (event : BridgeSSEEvent)
  /-- An exception reaches the `except` clauses. -/
  | failed (e : Exc)

def streamAttempt (session : Nat → Request → Reply) (method : Method) (path : Text)
    (jsonData : Option Body) (number : Nat) (s : StreamState) :
    AttemptRun StreamState Exc StreamAction Unit :=
  let (effectiveMethod, effectiveBody) := resolveRetryMethod method jsonData s.streamEstablished
  let request : Request := ⟨effectiveMethod, path, s.currentLastEventId, effectiveBody⟩
  match session number request with
  | .raises e => ⟨[.sent request, .failed e], s, .error (exceptClauses e)⟩
  | .answers response =>
      match raiseForHttpStatus D response with
      | .error e =>
          ⟨[.sent request, .answered response.status, .failed e], s, .error (exceptClauses e)⟩
      | .ok () =>
          let events := parseSseStream D.toDecoders response.stream
          let s' : StreamState :=
            ⟨Log.advance BridgeSSEEvent.id s.currentLastEventId events.yields, true⟩
          let log := .sent request :: .answered response.status :: events.yields.map .yielded
          match events.result with
          | .ok () => ⟨log, s', .ok ()⟩
          | .error e => ⟨log ++ [.failed e], s', .error (exceptClauses e)⟩

/-- `_stream_request`, with everything it does in order. -/
def streamRequest (isConnected : Bool) (session : Nat → Request → Reply) (method : Method)
    (path : Text) (jsonData : Option Body) (lastEventId : Option Text) :
    Gen Exc StreamAction Unit :=
  if isConnected then
    let run := Retry.retrying isRetryableStreamError
      (streamAttempt D session method path jsonData) maxRetries ⟨lastEventId, false⟩
    ⟨run.yields, run.result⟩
  else Gen.raise (.transport ⟨.connection, .notConnected, none⟩)

/-! ## Readings of a log -/

namespace StreamAction

def request? : StreamAction → Option Request
  | sent request => some request
  | _ => none

def event? : StreamAction → Option BridgeSSEEvent
  | yielded event => some event
  | _ => none

/-- A response the transport takes as proof of publication. -/
def isAcceptance : StreamAction → Bool
  | answered status => status < 400
  | _ => false

end StreamAction

def requestsOf (log : List StreamAction) : List Request := log.filterMap StreamAction.request?

def eventsOf (log : List StreamAction) : List BridgeSSEEvent := log.filterMap StreamAction.event?

def accepted (log : List StreamAction) : Bool := log.any StreamAction.isAcceptance

/-- What the consumer of the generator sees of a run. -/
def received (run : Gen Exc StreamAction Unit) : Gen Exc BridgeSSEEvent Unit :=
  ⟨eventsOf run.yields, run.result⟩

@[simp] theorem requestsOf_append (xs ys : List StreamAction) :
    requestsOf (xs ++ ys) = requestsOf xs ++ requestsOf ys := List.filterMap_append

@[simp] theorem eventsOf_append (xs ys : List StreamAction) :
    eventsOf (xs ++ ys) = eventsOf xs ++ eventsOf ys := List.filterMap_append

@[simp] theorem accepted_append (xs ys : List StreamAction) :
    accepted (xs ++ ys) = (accepted xs || accepted ys) := List.any_append

@[simp] theorem requestsOf_sent (r : Request) (log : List StreamAction) :
    requestsOf (.sent r :: log) = r :: requestsOf log := rfl

@[simp] theorem eventsOf_sent (r : Request) (log : List StreamAction) :
    eventsOf (.sent r :: log) = eventsOf log := rfl

@[simp] theorem accepted_sent (r : Request) (log : List StreamAction) :
    accepted (.sent r :: log) = accepted log := rfl

@[simp] theorem eventsOf_yielded (events : List BridgeSSEEvent) :
    eventsOf (events.map .yielded) = events := by
  simp [eventsOf, List.filterMap_map, StreamAction.event?, Function.comp_def]

theorem requestsOf_eq_nil {log : List StreamAction} (h : ∀ r, StreamAction.sent r ∉ log) :
    requestsOf log = [] := by
  rw [requestsOf, List.filterMap_eq_nil_iff]
  intro a ha
  cases a with
  | answered _ | yielded _ | failed _ => rfl
  | sent r => exact absurd ha (h r)

/-! ## What a reply makes of an attempt -/

namespace Reply

def accepts : Reply → Bool
  | raises _ => false
  | answers response => response.status < 400

def events : Reply → List BridgeSSEEvent
  | raises _ => []
  | answers response =>
      if response.status < 400 then (parseSseStream D.toDecoders response.stream).yields else []

/-- How the attempt ends before its `except` clauses. -/
def outcome : Reply → Except Exc Unit
  | raises e => .error e
  | answers response =>
      if response.status < 400 then (parseSseStream D.toDecoders response.stream).result
      else raiseForHttpStatus D response

def status? : Reply → Option Nat
  | raises _ => none
  | answers response => some response.status

end Reply

def attemptRequest (method : Method) (path : Text) (jsonData : Option Body) (s : StreamState) :
    Request where
  method := (resolveRetryMethod method jsonData s.streamEstablished).1
  path := path
  lastEventId := s.currentLastEventId
  json := (resolveRetryMethod method jsonData s.streamEstablished).2

def failureOf : Except Exc Unit → List StreamAction
  | .ok () => []
  | .error e => [.failed e]

def closing : Except Exc Unit → Except Exc Unit
  | .ok () => .ok ()
  | .error e => .error (exceptClauses e)

/-- What an attempt does once its request is sent. -/
def replyLog (reply : Reply) : List StreamAction :=
  reply.status?.toList.map .answered ++ ((reply.events D).map .yielded ++
    failureOf (reply.outcome D))

theorem eventsOf_replyLog (reply : Reply) : eventsOf (replyLog D reply) = reply.events D := by
  have hstatus : eventsOf (reply.status?.toList.map .answered) = [] := by
    cases reply.status? <;> rfl
  have hfailure : eventsOf (failureOf (reply.outcome D)) = [] := by
    cases reply.outcome D <;> rfl
  simp [replyLog, hstatus, hfailure]

theorem replyLog_not_sent (reply : Reply) (r : Request) : .sent r ∉ replyLog D reply := by
  cases h : reply.outcome D <;> simp [replyLog, h, failureOf]

theorem requestsOf_replyLog (reply : Reply) : requestsOf (replyLog D reply) = [] :=
  requestsOf_eq_nil (replyLog_not_sent D reply)

theorem accepted_replyLog (reply : Reply) : accepted (replyLog D reply) = reply.accepts := by
  have hplayed : accepted ((reply.events D).map .yielded) = false := by
    simp [accepted, StreamAction.isAcceptance]
  have hfailure : accepted (failureOf (reply.outcome D)) = false := by
    cases reply.outcome D <;> rfl
  rw [replyLog, accepted_append, accepted_append, hplayed, hfailure]
  cases reply <;> simp [accepted, Reply.status?, Reply.accepts, StreamAction.isAcceptance]

theorem readProblemDetails_error {body : Except Exc Bytes} {e : Exc}
    (h : readProblemDetails D body = .error e) :
    e.isException = false ∨ ∃ className, e = .other className := by
  simp only [readProblemDetails] at h
  split at h
  · split at h
    · cases h
    · next hexc => cases h; exact .inl (Bool.eq_false_iff.mpr hexc)
  · split at h
    · cases h
    · cases h; exact .inr ⟨_, rfl⟩
    · split at h
      · cases h
      · cases h; exact .inr ⟨_, rfl⟩
      · cases h
    · cases h

/-- An error status raises a transport error, unless its body makes a decoder
raise or the task is interrupted while the body is read. -/
theorem raiseForHttpStatus_cases {response : Response} (h : ¬ response.status < 400) :
    ∃ e, raiseForHttpStatus D response = .error e ∧
      (e.isException = false ∨ (∃ className, e = .other className) ∨ ∃ t, e = .transport t) := by
  rw [raiseForHttpStatus, if_neg h]
  split
  · next e he => exact ⟨e, rfl, (readProblemDetails_error D he).imp_right .inl⟩
  · exact ⟨_, rfl, .inr (.inr ⟨_, rfl⟩)⟩

/-- Step: an attempt sends its one request and plays back the reply to it. -/
theorem streamAttempt_eq (session : Nat → Request → Reply) (method : Method) (path : Text)
    (jsonData : Option Body) (number : Nat) (s : StreamState) (reply : Reply)
    (h : session number (attemptRequest method path jsonData s) = reply) :
    streamAttempt D session method path jsonData number s =
      { yields := .sent (attemptRequest method path jsonData s) :: replyLog D reply
        state := ⟨Log.advance BridgeSSEEvent.id s.currentLastEventId (reply.events D),
          s.streamEstablished || reply.accepts⟩
        result := closing (reply.outcome D) } := by
  have hsent : session number ⟨(resolveRetryMethod method jsonData s.streamEstablished).1, path,
      s.currentLastEventId, (resolveRetryMethod method jsonData s.streamEstablished).2⟩ = reply := h
  simp only [streamAttempt, hsent, replyLog]
  cases reply with
  | raises e =>
      simp [Reply.status?, Reply.events, Reply.outcome, Reply.accepts, failureOf, closing,
        attemptRequest]
  | answers response =>
      by_cases hok : response.status < 400
      · have hraise : raiseForHttpStatus D response = .ok () := if_pos hok
        simp only [hraise, Reply.status?, Reply.events, Reply.outcome, Reply.accepts, hok, ite_true]
        cases (parseSseStream D.toDecoders response.stream).result <;>
          simp [failureOf, closing, attemptRequest]
      · obtain ⟨e, hraise, -⟩ := raiseForHttpStatus_cases D hok
        simp [hraise, Reply.status?, Reply.events, Reply.outcome, Reply.accepts, hok, failureOf,
          closing, attemptRequest]

def frozenHttpDecoders : HttpDecoders where
  toDecoders := frozenDecoders
  loadsBody _ := .error .rejected
  validateProblem _ := .error .rejected

end DualeAI.Http
