import DualeAI.Foundation.Text
import Mathlib.Data.Rat.Defs

/-!
The Bridge's wire events and the exceptions of the event path.

Only what the modelled functions read is kept of each wire model. An exception
carries the data its text is rendered from instead of the rendered text; the
receive time of an event is left out, since nothing on this path reads it.
-/
namespace DualeAI
open Foundation

/-! ## Wire models -/

inductive Json where
  | null
  | bool (b : Bool)
  | int (n : Int)
  | float (q : Rat)
  | str (s : Text)
  | arr (items : List Json)
  | obj (fields : List (Text × Json))

/-- `data.get("type") if isinstance(data, dict) else None`. -/
def Json.typeField : Json → Option Json
  | .obj fields => fields.lookup "type".toList
  | _ => none

def Json.carriesType (data : Json) (eventType : Text) : Bool :=
  match data.typeField with
  | some (.str t) => t == eventType
  | _ => false

structure ProblemDetails where
  errorCode : Text
  retryable : Option Bool
deriving DecidableEq, Repr

structure BridgeToolUseResponse where
  toolCallId : Text
  name : Text
  input : List (Text × Json)
  /-- Microseconds on the server's clock. -/
  deadlineAt : Option Int

inductive BridgeEventData where
  | contentDelta (delta : Text)
  | contentReset (generation : Nat)
  | toolUse (call : BridgeToolUseResponse)
  | taskCompleted (result : Json)
  | taskError (data : ProblemDetails)
  | taskStopped (reason : Text)

structure BridgeSSEEvent where
  id : Text
  data : BridgeEventData

def BridgeEventData.isTerminal : BridgeEventData → Bool
  | .taskCompleted _ | .taskError _ | .taskStopped _ => true
  | _ => false

def wireEventTypes : List Text :=
  ["content.delta", "content.reset", "tool.use", "task.completed", "task.error",
    "task.stopped"].map String.toList

def isPositiveDecimal : Text → Bool
  | [] => false
  | c :: t => ('1' ≤ c && c ≤ '9') && t.all fun d => '0' ≤ d && d ≤ '9'

/-- The id pattern `^[1-9][0-9]*:[1-9][0-9]*$`. -/
def isCursor (id : Text) : Bool :=
  id.contains ':' && isPositiveDecimal (partition ':' id).1 &&
    isPositiveDecimal (partition ':' id).2

theorem ascii_of_isPositiveDecimal {t : Text} (h : isPositiveDecimal t = true) :
    t ≠ [] ∧ ∀ c ∈ t, '0' ≤ c ∧ c ≤ '9' := by
  cases t with
  | nil => cases h
  | cons c t =>
      simp only [isPositiveDecimal, Bool.and_eq_true, decide_eq_true_eq, List.all_eq_true] at h
      obtain ⟨⟨hlo, hhi⟩, ht⟩ := h
      refine ⟨List.cons_ne_nil c t, ?_⟩
      intro d hd
      rcases List.mem_cons.mp hd with rfl | hd
      · exact ⟨Char.le_trans (by decide) hlo, hhi⟩
      · exact ht d hd

theorem isCursor_chars {id : Text} (h : isCursor id = true) :
    ∀ c ∈ id, c = ':' ∨ ('0' ≤ c ∧ c ≤ '9') := by
  simp only [isCursor, Bool.and_eq_true, List.contains_iff_mem] at h
  obtain ⟨⟨hcolon, hseq⟩, hindex⟩ := h
  intro c hc
  rw [← append_partition hcolon, List.mem_append, List.mem_cons] at hc
  rcases hc with hc | rfl | hc
  · exact .inr ((ascii_of_isPositiveDecimal hseq).2 c hc)
  · exact .inl rfl
  · exact .inr ((ascii_of_isPositiveDecimal hindex).2 c hc)

/-! ## Exceptions -/

/-- The classes under `aiohttp.ClientError` that the retry filter tells apart. -/
inductive ClientErrorKind where
  | clientConnectionError
  | serverTimeoutError
  | serverDisconnectedError
  | clientPayloadError
  | otherClientError
deriving DecidableEq, Repr

/-- `SSEParseError` by the check that raised it, and its subclass
`SSEChecksumError`. -/
inductive SSEParseError where
  | lineTooLong
  | dataTooLong
  | missingChecksum
  | invalidChecksum (line : Text)
  | invalidJson (line : Text)
  | typeMismatch (eventType : Text) (line : Text)
  | invalidEvent (line : Text)
  | checksum (eventId expected actual eventType : Text)
deriving DecidableEq, Repr

def SSEParseError.isChecksumError : SSEParseError → Bool
  | .checksum .. => true
  | _ => false

inductive HTTPTransportErrorKind where
  | connection
  | response
  | auth
  | stream
deriving DecidableEq, Repr

/-- What the text of a transport error reports. -/
inductive HTTPTransportCause where
  | notConnected
  | httpStatus (status : Nat) (reason : Text)
  | sseParseError (e : SSEParseError)
deriving DecidableEq, Repr

structure HTTPTransportError where
  kind : HTTPTransportErrorKind
  cause : HTTPTransportCause
  problemDetails : Option ProblemDetails
deriving DecidableEq, Repr

inductive DualeAIErrorKind where
  | authError
  | businessError
  | connectionError
deriving DecidableEq, Repr

inductive DualeAIErrorCause where
  | notConnected
  | connectFailed
  | transport (operation : String) (e : HTTPTransportError)
  | endedWithoutTerminal (operation : String) (taskId : Text)
deriving DecidableEq, Repr

structure DualeAIError where
  kind : DualeAIErrorKind
  cause : DualeAIErrorCause
  problemDetails : Option ProblemDetails
deriving DecidableEq, Repr

/-- A raised exception. `other` stands for every subclass of `Exception` without
a case of its own, `fatal` for a `BaseException` that is neither one of these nor
a cancellation. -/
inductive Exc where
  | client (kind : ClientErrorKind)
  | sse (e : SSEParseError)
  | unicodeDecodeError
  | transport (e : HTTPTransportError)
  | sdk (e : DualeAIError)
  | cancelled
  | other (className : String)
  | fatal (className : String)
deriving DecidableEq, Repr

def Exc.isException : Exc → Bool
  | .cancelled | .fatal _ => false
  | _ => true

end DualeAI
