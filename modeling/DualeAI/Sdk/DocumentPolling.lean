import DualeAI.Events.Connecting
import DualeAI.Events.LibraryPaths
import DualeAI.Foundation.Polling

/-!
Waiting for a document: `wait_for_document` over the requests that read it.

Times are seconds since the call. A reading is what the transport's connection and the
session make of one request; the client may be disconnected while the loop sleeps.
-/
namespace DualeAI.Library
open Foundation Http

/-! ## One request -/

/-- What the text of a transport error of a Library request reports. -/
inductive TransportCause where
  | reported (cause : HTTPTransportCause)
  | requestFailed (method : LibraryMethod) (path : Text)
  | schemaError (text : String)
deriving DecidableEq

structure TransportError where
  kind : HTTPTransportErrorKind
  cause : TransportCause
  problemDetails : Option ProblemDetails
deriving DecidableEq

/-- What a Library operation raises. -/
inductive Raised where
  | transport (e : TransportError)
  /-- `_raise_translated`, with the problem details lifted. -/
  | sdk (kind : DualeAIErrorKind) (text : String) (e : TransportError)
  | configurationError
  | valueError
  | timeoutError
  | other (e : Exc)
deriving DecidableEq

/-- An error of the transport, as the transport raised it. -/
def Raised.isTransport : Raised → Bool
  | .transport _ | .other (.transport _) => true
  | _ => false

/-- `aiohttp.ClientError`, `asyncio.TimeoutError` and `TimeoutError`. -/
def isRequestFailure : Exc → Bool
  | .client _ => true
  | .other className => className == "TimeoutError"
  | _ => false

section Requests
variable (D : HttpDecoders) {α : Type} (validate : Bytes → Except Sse.DecodeFailure α)

/-- The block around the session's request. -/
def exchange (reply : Reply) : Except Exc Bytes :=
  match reply with
  | .raises e => .error e
  | .answers response =>
      match raiseForHttpStatus D response with
      | .error e => .error e
      | .ok () => response.body

def requestLibraryModel (target : LibraryMethod × Text) (schemaError : String) (reply : Reply) :
    Except Raised α :=
  match exchange D reply with
  | .error (.transport e) => .error (.transport ⟨e.kind, .reported e.cause, e.problemDetails⟩)
  | .error e =>
      if isRequestFailure e then
        .error (.transport ⟨.connection, .requestFailed target.1 target.2, none⟩)
      else .error (.other e)
  | .ok body =>
      match validate body with
      | .ok model => .ok model
      | .error .rejected => .error (.transport ⟨.connection, .schemaError schemaError, none⟩)
      | .error (.raised className) => .error (.other (.other className))

inductive DocumentStatus where
  | queued
  | processing
  | ready
  | failed
deriving DecidableEq, Repr

def DocumentStatus.isTerminal : DocumentStatus → Bool
  | .ready | .failed => true
  | .queued | .processing => false

structure PublicIndexedDocument where
  documentId : Uuid
  libraryId : Uuid
  status : DocumentStatus

structure LibraryDocumentGetRequest where
  libraryId : Uuid
  documentId : Uuid

end Requests

/-- One turn of the loop: the client it finds, and how long the turn takes. -/
structure Turn where
  hasTransport : Bool
  /-- `is_connected` of the transport. -/
  connected : Bool
  reply : Reply
  duration : Rat
  duration_nonneg : 0 ≤ duration

/-- The calls that a wait depends on. -/
structure World where
  tenantId : Option Text
  decoders : HttpDecoders
  validate : Bytes → Except Sse.DecodeFailure PublicIndexedDocument
  /-- How the `try` block of `connect` ends in `_ensure_events_client`, and when. -/
  connecting : Except Exc Unit
  ensuredAt : Rat
  ensuredAt_nonneg : 0 ≤ ensuredAt
  turns : Nat → Turn
  /-- Whether what is due just at the deadline still happens. -/
  tie : Bool

/-- How `_ensure_events_client` ends: what `connect` does not translate goes on. -/
def World.ensured (w : World) : Except Exc Unit :=
  w.connecting.mapError Connecting.CloudEventsClient.connectError

def documentPollInterval : Rat := 5

theorem documentPollInterval_pos : 0 < documentPollInterval := by decide

section Waiting
variable (w : World) (request : LibraryDocumentGetRequest)

/-- `get_library_document` of the transport. -/
def getLibraryDocument (turn : Turn) : Except Raised PublicIndexedDocument :=
  if turn.connected then
    match w.tenantId with
    | none | some [] => .error .configurationError
    | some tenantId =>
        requestLibraryModel w.decoders w.validate
          ((LibraryOperation.getLibraryDocument request.libraryId request.documentId).target
            tenantId)
          "Library document get response did not match schema" turn.reply
  else .error (.transport ⟨.connection, .reported .notConnected, none⟩)

def raiseTranslated (text : String) (e : TransportError) : Raised :=
  .sdk
    (match e.kind with
    | .auth => .authError
    | .response => .businessError
    | .connection | .stream => .connectionError)
    text e

/-- The `try` block of the loop. -/
def pollOnce (turn : Turn) : Except Raised PublicIndexedDocument :=
  if turn.hasTransport then
    match getLibraryDocument w request turn with
    | .error (.transport e) => .error (raiseTranslated "Library document poll failed" e)
    | result => result
  else .error (.other (.other "RuntimeError"))

def reading (turn : Turn) : Polling.Reading Rat Raised PublicIndexedDocument where
  duration := turn.duration
  outcome :=
    match pollOnce w request turn with
    | .error e => some (.error e)
    | .ok document => if document.status.isTerminal then some (.ok document) else none

def readings (n : Nat) : Polling.Reading Rat Raised PublicIndexedDocument :=
  reading w request (w.turns n)

/-- `_poll_document_until_terminal` up to a deadline and for `fuel` turns of its loop: when
its requests start, and how it ends if it does. -/
def pollUpTo (fuel : Nat) (deadline : Polling.Deadline Rat) :
    List Rat × Option (Except Raised PublicIndexedDocument) :=
  match w.ensured with
  | .error e => ([], if deadline.due w.ensuredAt then some (.error (.other e)) else none)
  | .ok () =>
      Polling.readsFrom deadline documentPollInterval (readings w request) fuel 0 w.ensuredAt

/-- The loop up to a deadline, with more turns than it leaves time for. -/
def pollDocumentUntilTerminal (deadline : Polling.Deadline Rat) :
    List Rat × Option (Except Raised PublicIndexedDocument) :=
  pollUpTo w request (Polling.readings deadline documentPollInterval) deadline

/-- The handler of `asyncio.TimeoutError`, which is `TimeoutError`. -/
def timedOut : Raised → Raised
  | .other (.other className) =>
      if className = "TimeoutError" then .timeoutError else .other (.other className)
  | e => e

def waitForDocument (timeout : Rat) : List Rat × Except Raised PublicIndexedDocument :=
  if timeout ≤ 0 then ([], .error .valueError)
  else
    match pollDocumentUntilTerminal w request ⟨timeout, w.tie⟩ with
    | (starts, none) => (starts, .error .timeoutError)
    | (starts, some (.error e)) => (starts, .error (timedOut e))
    | (starts, some (.ok document)) => (starts, .ok document)

/-! ## The first answer -/

/-- Turn `n` is the first that does not find the document still under way. -/
def FirstAnswer (n : Nat) (result : Except Raised PublicIndexedDocument) : Prop :=
  (∀ k < n, ∃ document, pollOnce w request (w.turns k) = .ok document ∧
    document.status.isTerminal = false) ∧
  pollOnce w request (w.turns n) = result ∧
  ∀ document, result = .ok document → document.status.isTerminal = true

/-- When turn `n` has its answer. -/
def answeredAt (n : Nat) : Rat :=
  Polling.endOf documentPollInterval (readings w request) w.ensuredAt n

/-- It comes before the deadline. -/
def InTime (timeout time : Rat) : Prop :=
  Polling.Deadline.due ⟨timeout, w.tie⟩ time = true

end Waiting

variable {w : World} {request : LibraryDocumentGetRequest}

theorem outcome_eq_none_iff {turn : Turn} :
    (reading w request turn).outcome = none ↔
      ∃ document, pollOnce w request turn = .ok document ∧
        document.status.isTerminal = false := by
  rw [reading]
  cases pollOnce w request turn with
  | error e => simp
  | ok document => cases hstatus : document.status.isTerminal <;> simp [hstatus]

theorem outcome_eq_some_iff {turn : Turn} {result : Except Raised PublicIndexedDocument} :
    (reading w request turn).outcome = some result ↔
      pollOnce w request turn = result ∧
        ∀ document, result = .ok document → document.status.isTerminal = true := by
  rw [reading]
  cases pollOnce w request turn with
  | error e =>
      constructor
      · intro h
        cases h
        exact ⟨rfl, nofun⟩
      · rintro ⟨rfl, -⟩
        rfl
  | ok document =>
      cases hstatus : document.status.isTerminal with
      | true =>
          constructor
          · intro h
            simp only [hstatus, if_true, Option.some.injEq] at h
            subst h
            refine ⟨rfl, fun other hother => ?_⟩
            cases hother
            exact hstatus
          · rintro ⟨rfl, -⟩
            simp [hstatus]
      | false =>
          refine iff_of_false (by simp [hstatus]) ?_
          rintro ⟨rfl, hterminal⟩
          have htrue := hterminal document rfl
          rw [hstatus] at htrue
          cases htrue

theorem decides_iff {n : Nat} {result : Except Raised PublicIndexedDocument} :
    Polling.Decides (readings w request) n result ↔ FirstAnswer w request n result :=
  and_congr (forall₂_congr fun _ _ => outcome_eq_none_iff) outcome_eq_some_iff

theorem poll_ends_iff (hensured : w.ensured = .ok ()) {timeout : Rat}
    {result : Except Raised PublicIndexedDocument} :
    (pollDocumentUntilTerminal w request ⟨timeout, w.tie⟩).2 = some result ↔
      ∃ n, FirstAnswer w request n result ∧ InTime w timeout (answeredAt w request n) := by
  rw [pollDocumentUntilTerminal, pollUpTo, hensured]
  refine (Polling.poll_eq_some_iff documentPollInterval_pos w.ensuredAt_nonneg
    fun n => (w.turns n).duration_nonneg).trans ?_
  exact exists_congr fun n => and_congr_left' decides_iff

theorem pollUpTo_of_le {fuel : Nat} {deadline : Polling.Deadline Rat}
    (h : Polling.readings deadline documentPollInterval ≤ fuel) :
    pollUpTo w request fuel deadline = pollDocumentUntilTerminal w request deadline := by
  rw [pollDocumentUntilTerminal, pollUpTo, pollUpTo]
  cases w.ensured with
  | error e => rfl
  | ok u =>
      exact Polling.readsFrom_eq_poll documentPollInterval_pos w.ensuredAt_nonneg
        (fun n => (w.turns n).duration_nonneg) h

theorem requestLibraryModel_ne_transport {α : Type} {D : HttpDecoders}
    {validate : Bytes → Except Sse.DecodeFailure α} {target : LibraryMethod × Text}
    {schemaError : String} {reply : Reply} {e : HTTPTransportError} :
    requestLibraryModel D validate target schemaError reply ≠ .error (.other (.transport e)) := by
  rw [requestLibraryModel]
  split
  · nofun
  · next other hnot hexchange =>
      split
      · nofun
      · intro h
        cases h
        exact hnot e rfl
  · split <;> nofun

theorem getLibraryDocument_ne_transport {turn : Turn} {e : HTTPTransportError} :
    getLibraryDocument w request turn ≠ .error (.other (.transport e)) := by
  rw [getLibraryDocument]
  split
  · split
    · nofun
    · nofun
    · exact requestLibraryModel_ne_transport
  · nofun

/-- An error that leaves the loop is no transport error. -/
theorem pollOnce_translated {turn : Turn} {e : Raised}
    (h : pollOnce w request turn = .error e) : e.isTransport = false := by
  rw [pollOnce] at h
  split at h
  · split at h
    · cases h
      rfl
    · next hresult =>
        cases e with
        | transport cause => exact absurd h (hresult cause)
        | other raised =>
            cases raised with
            | transport cause => exact absurd h getLibraryDocument_ne_transport
            | _ => rfl
        | _ => rfl
  · cases h
    rfl

theorem ensured_translated {e : Exc} (h : w.ensured = .error e) :
    Raised.isTransport (.other e) = false := by
  rw [World.ensured] at h
  cases hconnecting : w.connecting with
  | ok u =>
      rw [hconnecting] at h
      cases h
  | error raised =>
      rw [hconnecting] at h
      cases h
      cases raised with
      | transport cause =>
          simp only [Connecting.CloudEventsClient.connectError]
          split <;> rfl
      | _ => rfl

theorem poll_starts (deadline : Polling.Deadline Rat) :
    (pollDocumentUntilTerminal w request deadline).1.Pairwise
        (fun time later => time + documentPollInterval ≤ later) ∧
      (pollDocumentUntilTerminal w request deadline).1.length ≤
        Polling.readings deadline documentPollInterval ∧
      ∀ time ∈ (pollDocumentUntilTerminal w request deadline).1, deadline.due time = true := by
  have hduration : ∀ n, 0 ≤ (readings w request n).duration := fun n => (w.turns n).duration_nonneg
  rw [pollDocumentUntilTerminal, pollUpTo]
  split
  · exact ⟨.nil, Nat.zero_le _, by simp⟩
  · obtain ⟨hspaced, hlength⟩ := Polling.readsFrom_spaced documentPollInterval_pos hduration
    exact ⟨hspaced, hlength, fun time hmem =>
      (Polling.le_of_mem_readsFrom documentPollInterval_pos hduration hmem).2⟩

/-! ## The wait -/

theorem isTransport_timedOut (e : Raised) : (timedOut e).isTransport = e.isTransport := by
  rw [timedOut.eq_def]
  split
  · split <;> rfl
  · rfl

section Wait
variable {timeout : Rat} (h : 0 < timeout)
include h

theorem wait_starts :
    (waitForDocument w request timeout).1 =
      (pollDocumentUntilTerminal w request ⟨timeout, w.tie⟩).1 := by
  rw [waitForDocument, if_neg (not_le.mpr h)]
  split <;> next heq => rw [heq]

theorem wait_ok_iff {document : PublicIndexedDocument} :
    (waitForDocument w request timeout).2 = .ok document ↔
      (pollDocumentUntilTerminal w request ⟨timeout, w.tie⟩).2 = some (.ok document) := by
  rw [waitForDocument, if_neg (not_le.mpr h)]
  split <;> next heq => simp [heq]

/-- Any error but the timeout is one that the loop ended with. -/
theorem wait_error_iff {e : Raised} (he : e ≠ .timeoutError) :
    (waitForDocument w request timeout).2 = .error e ↔
      ∃ raised, (pollDocumentUntilTerminal w request ⟨timeout, w.tie⟩).2 = some (.error raised) ∧
        timedOut raised = e := by
  rw [waitForDocument, if_neg (not_le.mpr h)]
  split <;> next heq => simp [heq, he.symm]

/-- What else is raised comes from `_ensure_events_client`, or from the first answer. -/
theorem wait_raises_iff {e : Raised} (he : e ≠ .timeoutError) :
    (waitForDocument w request timeout).2 = .error e ↔
      (∃ raised, w.ensured = .error raised ∧ InTime w timeout w.ensuredAt ∧
        timedOut (.other raised) = e) ∨
      w.ensured = .ok () ∧ ∃ n raised, FirstAnswer w request n (.error raised) ∧
        InTime w timeout (answeredAt w request n) ∧ timedOut raised = e := by
  rw [wait_error_iff h he]
  cases hensured : w.ensured with
  | error raised =>
      simp only [pollDocumentUntilTerminal, pollUpTo, hensured, Option.ite_none_right_eq_some,
        Option.some.injEq, Except.error.injEq, reduceCtorEq, false_and, or_false]
      constructor
      · rintro ⟨_, ⟨hdue, rfl⟩, heq⟩
        exact ⟨raised, rfl, hdue, heq⟩
      · rintro ⟨_, rfl, hdue, heq⟩
        exact ⟨_, ⟨hdue, rfl⟩, heq⟩
  | ok u =>
      have hends (raised : Raised) :
          (pollDocumentUntilTerminal w request ⟨timeout, w.tie⟩).2 = some (.error raised) ↔ _ :=
        poll_ends_iff hensured
      simp only [hends, reduceCtorEq, false_and, exists_false, false_or, true_and]
      constructor
      · rintro ⟨raised, ⟨n, hfirst, hdue⟩, heq⟩
        exact ⟨n, raised, hfirst, hdue, heq⟩
      · rintro ⟨n, raised, hfirst, hdue, heq⟩
        exact ⟨raised, ⟨n, hfirst, hdue⟩, heq⟩

theorem wait_translated {e : Raised} (he : (waitForDocument w request timeout).2 = .error e) :
    e.isTransport = false := by
  by_cases htimeout : e = .timeoutError
  · rw [htimeout]
    rfl
  · cases (wait_raises_iff h htimeout).mp he with
    | inl hensured =>
        obtain ⟨raised, hensured, -, rfl⟩ := hensured
        rw [isTransport_timedOut]
        exact ensured_translated hensured
    | inr hloop =>
        obtain ⟨-, n, raised, hfirst, -, rfl⟩ := hloop
        rw [isTransport_timedOut]
        exact pollOnce_translated hfirst.2.1

end Wait

/-- A wait returns the first document that is no longer under way, or raises what the first
failure before it is translated to, if that comes before the deadline; otherwise it times out.
No two requests start within one interval of each other, and none after the deadline. -/
theorem document_awaited (w : World) (request : LibraryDocumentGetRequest) {timeout : Rat}
    (h : 0 < timeout) :
    (∀ document, (waitForDocument w request timeout).2 = .ok document ↔
      w.ensured = .ok () ∧ ∃ n, FirstAnswer w request n (.ok document) ∧
        InTime w timeout (answeredAt w request n)) ∧
    (∀ e, e ≠ .timeoutError → ((waitForDocument w request timeout).2 = .error e ↔
      (∃ raised, w.ensured = .error raised ∧ InTime w timeout w.ensuredAt ∧
        timedOut (.other raised) = e) ∨
      w.ensured = .ok () ∧ ∃ n raised, FirstAnswer w request n (.error raised) ∧
        InTime w timeout (answeredAt w request n) ∧ timedOut raised = e)) ∧
    (∀ e, (waitForDocument w request timeout).2 = .error e → e.isTransport = false) ∧
    (waitForDocument w request timeout).1.Pairwise
      (fun time later => time + documentPollInterval ≤ later) ∧
    (waitForDocument w request timeout).1.length ≤ ⌊timeout / documentPollInterval⌋₊ + 1 ∧
    (∀ time ∈ (waitForDocument w request timeout).1, InTime w timeout time) ∧
    ∀ fuel, ⌊timeout / documentPollInterval⌋₊ + 1 ≤ fuel →
      pollUpTo w request fuel ⟨timeout, w.tie⟩ =
        pollDocumentUntilTerminal w request ⟨timeout, w.tie⟩ := by
  have hstarts := @poll_starts w request ⟨timeout, w.tie⟩
  refine ⟨fun document => ?_, fun e => wait_raises_iff h, fun e => wait_translated h, ?_⟩
  · rw [wait_ok_iff h]
    cases hensured : w.ensured with
    | error e => simp [pollDocumentUntilTerminal, pollUpTo, hensured]
    | ok u => exact (poll_ends_iff hensured).trans ⟨fun hn => ⟨rfl, hn⟩, And.right⟩
  · rw [wait_starts h]
    exact ⟨hstarts.1, hstarts.2.1, hstarts.2.2, fun fuel hfuel => pollUpTo_of_le hfuel⟩

/-! ## A wait that finds its document -/

def sampleUuid : Uuid := ⟨"376dbee0-d70a-52e4-a801-d9dd72a5a083".toList, by decide⟩

def sampleDocument (status : DocumentStatus) : PublicIndexedDocument :=
  ⟨sampleUuid, sampleUuid, status⟩

theorem zero_le_second : (0 : Rat) ≤ 1 := by decide

/-- The document is queued, then it is ready; each answer takes a second. -/
def sampleWorld : World where
  tenantId := some "tenant".toList
  decoders := frozenHttpDecoders
  validate body := .ok (sampleDocument (if body = [] then .queued else .ready))
  connecting := .ok ()
  ensuredAt := 0
  ensuredAt_nonneg := le_rfl
  turns n :=
    ⟨true, true, .answers ⟨200, [], .ok (if n = 0 then [] else [1]), ⟨[], none⟩⟩, 1,
      zero_le_second⟩
  tie := false

theorem document_awaited_ready :
    (0 : Rat) < 8 ∧
      (waitForDocument sampleWorld ⟨sampleUuid, sampleUuid⟩ 8).2 = .ok (sampleDocument .ready) := by
  have hpos : (0 : Rat) < 8 := by decide
  refine ⟨hpos, ((document_awaited sampleWorld ⟨sampleUuid, sampleUuid⟩ hpos).1 _).mpr
    ⟨rfl, 1, ⟨fun k hk => ?_, by rfl, ?_⟩, ?_⟩⟩
  · obtain rfl : k = 0 := by omega
    exact ⟨sampleDocument .queued, by rfl, rfl⟩
  · rintro document hdocument
    cases hdocument
    rfl
  · rw [InTime]
    decide +kernel

end DualeAI.Library
