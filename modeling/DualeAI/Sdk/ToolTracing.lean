import DualeAI.Foundation.TwoRuns
import DualeAI.Sdk.ToolResult
import DualeAI.Sdk.ToolRetry

/-!
A tool call with its spans: `trace_operation` inside the retry loop of `_execute_tool_use`.

Exceptions have their class and their text here. OpenTelemetry is a parameter, with
what it documents of a span that is told to record no exception. `K` is the type of the
keyword arguments of a callable, `X` that of what an exception carries besides its text.
-/
namespace DualeAI.ToolTracing
open Agent (estimatedServerTime)
open Foundation
open ToolCall (Backoff ToolContext deadlineBudget stopAfterDelay)
open ToolResult

/-! ## Exceptions -/

/-- `type(exc)`. -/
structure ExceptionType where
  moduleName : PyStr
  qualname : PyStr
  name : PyStr
  isException : Bool
  isValueOrTypeError : Bool

structure Raised (X : Type) where
  type : ExceptionType
  /-- What `str` makes of it; none where that raises. -/
  str : Option PyStr
  /-- None where the SDK or the standard library raised it. -/
  rest : Option X

section Exceptions
variable {X : Type}

def Raised.description (exc : Raised X) : PyException :=
  ⟨exc.type.moduleName, exc.type.qualname, exc.type.isValueOrTypeError, exc.str⟩

/-- An instance of an `Exception` class that stands at the top of its module. -/
def raised (exc : PyException) : Raised X :=
  ⟨⟨exc.moduleName, exc.qualname, exc.qualname, true, exc.isValueOrTypeError⟩, exc.str, none⟩

def timeoutError (message : Text) : PyException :=
  ⟨ofText "builtins".toList, ofText "TimeoutError".toList, false, some (ofText message)⟩

end Exceptions

/-! ## Spans -/

inductive AttributeValue where
  | str (s : Text)
  | int (n : Int)
  | float (x : Float)
  | bool (b : Bool)

inductive SpanKind where
  | internal
  | server
  | client
  | producer
  | consumer

/-- A tracer of OpenTelemetry; `S` is the type of its spans. -/
structure Tracer (X S : Type) where
  startSpan : (name : Text) → SpanKind → (startedAt : Rat) → S
  isRecording : S → Bool
  setAttributes : List (Text × AttributeValue) → S → S
  /-- `Status(StatusCode.ERROR, description)`. -/
  setErrorStatus : (description : PyStr) → S → S
  /-- The end of a span on the way out of its block, by an exception or without one. -/
  exit : (recordException setStatusOnException : Bool) → Option (Raised X) → (endedAt : Rat) →
    S → S
  exit_unrecorded : ∀ exc endedAt span,
    exit false false (some exc) endedAt span = exit false false none endedAt span

structure SDKObservability where
  enabled : Bool
  tenantId : Option Text

def otelAttributes (attributes : List (Text × Option AttributeValue)) :
    List (Text × AttributeValue) :=
  attributes.filterMap fun entry => entry.2.map fun value => (entry.1, value)

section Tracing
variable {X S β : Type} (T : Tracer X S) (o : SDKObservability)

/-- The block runs from `now` and says when it ends, and how; the spans are the exported ones. -/
def traceOperation (operation : Text) (wrapsCustomerCode : Bool)
    (attributes : List (Text × Option AttributeValue)) (block : Rat → Rat × Except (Raised X) β)
    (now : Rat) : AttemptRun Rat (Raised X) S β :=
  let (endedAt, result) := block now
  if !o.enabled then ⟨[], endedAt, result⟩
  else
    let span := T.startSpan ("dualeai.sdk.".toList ++ operation) .client now
    let span :=
      if T.isRecording span then
        T.setAttributes (otelAttributes
          (("dualeai.tenant_id".toList, o.tenantId.map .str) ::
            ("dualeai.operation".toList, some (.str operation)) :: attributes)) span
      else span
    match result with
    | .ok value =>
        ⟨[T.exit (!wrapsCustomerCode) (!wrapsCustomerCode) none endedAt span], endedAt, .ok value⟩
    | .error exc =>
        let span :=
          if exc.type.isException && wrapsCustomerCode && T.isRecording span then
            T.setErrorStatus exc.type.name span
          else span
        ⟨[T.exit (!wrapsCustomerCode) (!wrapsCustomerCode) (some exc) endedAt span], endedAt,
          .error exc⟩

end Tracing

/-! ## Tools -/

structure BridgeToolUseResponse where
  toolCallId : Text
  name : Text
  deadlineAt : Option Rat

/-- The call as `ToolResult` has it, its deadline in whole seconds. -/
def BridgeToolUseResponse.untimed (toolUse : BridgeToolUseResponse) :
    ToolResult.BridgeToolUseResponse :=
  ⟨toolUse.toolCallId, toolUse.name, toolUse.deadlineAt.map Rat.floor⟩

/-- One run of a callable. -/
structure CallableRun (X β : Type) where
  duration : Rat
  result : Except (Raised X) β
  /-- Whether it still ends by itself where that is just at its timeout. -/
  endsFirst : Bool
  /-- What it comes to once its timeout cancels it, and how much later; none where it lets
  the cancellation through. -/
  cancelled : Option (Rat × Except (Raised X) β)

structure RegisteredToolCallable (X K Obj : Type) where
  name : Text
  timeoutSeconds : Rat
  retries : Nat
  toolKwargs : BridgeToolUseResponse → Except (Raised X) K
  function : K → ToolContext → (startedAt : Rat) → CallableRun X Obj
  errorTransform : Option (Raised X → Transformed)

/-- What becomes of a value the callable returned. -/
structure Conversion (X Obj J : Type) where
  toolSuccessOutput : Obj → Except (Raised X) (Output J)
  /-- What `BridgeToolResultSuccess` raises for an output it refuses. -/
  checkOutput : Output J → Option (Raised X)

structure DualeAISDK (X K Obj S : Type) where
  tools : Dict Text (RegisteredToolCallable X K Obj)
  observability : SDKObservability
  tracer : Tracer X S
  clockOffset : Rat

/-- `asyncio.wait_for`: when the call ends, and how. -/
def waitFor {X β : Type} (call : CallableRun X β) (timeout now : Rat) :
    Rat × Except (Raised X) β :=
  if call.duration < timeout ∨ call.duration = timeout ∧ call.endsFirst then
    (now + call.duration, call.result)
  else
    match call.cancelled with
    | none => (now + timeout, .error (raised (timeoutError [])))
    | some (later, result) => (now + timeout + later, result)

structure Execution (S J : Type) where
  spans : List S
  effects : List (Effect J)
  endedAt : Rat

section Execution
variable {X K Obj S J : Type} (s : DualeAISDK X K Obj S) (taskId : Text)
  (toolUse : BridgeToolUseResponse) (backoff : Nat → Backoff)

/-- The body of the retry loop. -/
def attemptTool (tool : RegisteredToolCallable X K Obj) (kwargs : K) (deadlineAt : Rat)
    (number : Nat) (now : Rat) : AttemptRun Rat (Raised X) S Obj :=
  let remaining := deadlineAt - estimatedServerTime s.clockOffset now
  if remaining ≤ 0 then
    ⟨[], now, .error (raised (timeoutError
      ("Tool call ".toList ++ toolUse.toolCallId ++ " deadline already expired".toList)))⟩
  else
    let context : ToolContext := ⟨toolUse.toolCallId, taskId, number, deadlineAt⟩
    traceOperation s.tracer s.observability ("execute_tool ".toList ++ tool.name) true
      [("gen_ai.operation.name".toList, some (.str "execute_tool".toList)),
        ("gen_ai.tool.name".toList, some (.str tool.name)),
        ("gen_ai.tool.call.id".toList, some (.str toolUse.toolCallId)),
        ("gen_ai.tool.call.attempt".toList, some (.int context.attempt))]
      (fun now => waitFor (tool.function kwargs context now)
        (min tool.timeoutSeconds remaining) now)
      now

def invokeRegisteredToolWithRetry (tool : RegisteredToolCallable X K Obj) (kwargs : K)
    (deadlineAt startedAt : Rat) : AttemptRun Rat (Raised X) S Obj :=
  TimedRetry.retrying (fun exc => exc.type.isException)
    (stopAfterDelay (deadlineBudget s.clockOffset deadlineAt startedAt) startedAt)
    (fun number => (backoff number).wait) (attemptTool s taskId toolUse tool kwargs deadlineAt)
    (tool.retries + 1) startedAt

def renderToolError (toolName : Text) (exc : Raised X) : Option PyStr :=
  match (s.tools.lookup toolName).bind RegisteredToolCallable.errorTransform with
  | none => formatRegisteredToolError exc.description
  | some transform =>
      some ((applyToolError exc.description (some fun _ => transform exc)).getD
        (genericMessage toolName))

variable (C : Conversion X Obj J) (W : Wire J)

def runRegisteredTool (startedAt : Rat) : AttemptRun Rat (Raised X) S (Output J) :=
  match s.tools.lookup toolUse.name with
  | none => ⟨[], startedAt, .error (raised
      (valueError ("Unknown registered tool: ".toList ++ toolUse.name)))⟩
  | some tool =>
      match tool.toolKwargs toolUse with
      | .error exc => ⟨[], startedAt, .error exc⟩
      | .ok kwargs =>
          match toolUse.deadlineAt with
          | none => ⟨[], startedAt, .error (raised (noDeadline toolUse.untimed))⟩
          | some deadlineAt =>
              let run := invokeRegisteredToolWithRetry s taskId toolUse backoff tool kwargs
                deadlineAt startedAt
              ⟨run.yields, run.state, run.result.bind C.toolSuccessOutput⟩

/-- The `except` clause; none where an exception leaves it or passes it by. -/
def errorResult (exc : Raised X) : Option (BridgeToolResult J) :=
  if exc.type.isException then do
    let message ← renderToolError s toolUse.name exc
    if W.acceptsMessage message then return .error toolUse.toolCallId message else none
  else none

def toolResult (result : Except (Raised X) (Output J)) : Option (BridgeToolResult J) :=
  match result with
  | .error exc => errorResult s toolUse W exc
  | .ok output =>
      match C.checkOutput output with
      | none => some (.success toolUse.toolCallId output)
      | some exc => errorResult s toolUse W exc

/-- `scheduled` where the call has a `ScheduledToolUse`. -/
def executeToolUse (scheduled : Bool) (startedAt : Rat) : Execution S J :=
  let run := runRegisteredTool s taskId toolUse backoff C startedAt
  let effects :=
    match toolResult s toolUse C W run.result with
    | none => []
    | some result =>
        if scheduled then [.recorded result, .submitted result] else [.submitted result]
  ⟨run.yields, effects, run.state⟩

end Execution
/-! ## The call without its spans -/

section Untraced
variable {X K Obj S : Type} (toExc : Raised X → Exc)

/-- The exception classes of the call without spans. -/
structure Classifies : Prop where
  isException : ∀ exc, (toExc exc).isException = exc.type.isException
  timeoutError : ∀ message, toExc (raised (timeoutError message)) = ToolCall.timeoutError

/-- The tool, called with these arguments, apart from texts and late cancellations. -/
structure Untraced (tool : RegisteredToolCallable X K Obj) (kwargs : K)
    (plain : ToolCall.RegisteredToolCallable Obj) : Prop where
  timeoutSeconds : tool.timeoutSeconds = plain.timeoutSeconds
  retries : tool.retries = plain.retries
  duration : ∀ context startedAt, (tool.function kwargs context startedAt).duration =
    (plain.function context startedAt).duration
  endsFirst : ∀ context startedAt, (tool.function kwargs context startedAt).endsFirst =
    (plain.function context startedAt).endsFirst
  cancelled : ∀ context startedAt, (tool.function kwargs context startedAt).cancelled = none
  result : ∀ context startedAt, ResultsRelated (fun exc e => toExc exc = e) Eq
    (tool.function kwargs context startedAt).result (plain.function context startedAt).result

variable {toExc} {s : DualeAISDK X K Obj S} {taskId : Text} {toolUse : BridgeToolUseResponse}
  {backoff : Nat → Backoff} {tool : RegisteredToolCallable X K Obj} {kwargs : K}
  {plain : ToolCall.RegisteredToolCallable Obj}

theorem traceOperation_erased {β : Type} (T : Tracer X S) (o : SDKObservability)
    (operation : Text) (wrapsCustomerCode : Bool)
    (attributes : List (Text × Option AttributeValue)) (block : Rat → Rat × Except (Raised X) β)
    (now : Rat) :
    let run := traceOperation T o operation wrapsCustomerCode attributes block now
    (o.enabled = true → run.yields.length = 1) ∧ run.state = (block now).1 ∧
      run.result = (block now).2 := by
  rw [traceOperation]
  obtain ⟨endedAt, result⟩ := block now
  cases o.enabled with
  | false => exact ⟨fun henabled => absurd henabled Bool.false_ne_true, rfl, rfl⟩
  | true => cases result <;> exact ⟨fun _ => rfl, rfl, rfl⟩

theorem waitFor_erased (hexc : Classifies toExc) (h : Untraced toExc tool kwargs plain)
    (context : ToolContext) (timeout now : Rat) :
    (waitFor (tool.function kwargs context now) timeout now).1 =
        (ToolCall.waitFor (plain.function context now) timeout now).1 ∧
      ResultsRelated (fun exc e => toExc exc = e) Eq
        (waitFor (tool.function kwargs context now) timeout now).2
        (ToolCall.waitFor (plain.function context now) timeout now).2 := by
  rw [waitFor, ToolCall.waitFor, h.duration, h.endsFirst, h.cancelled]
  split
  · exact ⟨rfl, h.result context now⟩
  · exact ⟨rfl, ResultsRelated.error (hexc.timeoutError [])⟩

theorem attemptTool_erased (hexc : Classifies toExc) (h : Untraced toExc tool kwargs plain)
    (deadlineAt : Rat) (number : Nat) (now : Rat) :
    TimedRetry.Related
      (fun spans starts => s.observability.enabled = true → spans.length = starts.length)
      (fun exc e => toExc exc = e) Eq
      (attemptTool s taskId toolUse tool kwargs deadlineAt number now)
      (ToolCall.attemptTool plain s.clockOffset taskId toolUse.toolCallId deadlineAt number
        now) := by
  rw [attemptTool, ToolCall.attemptTool]
  split
  · exact ⟨fun _ => rfl, rfl, ResultsRelated.error (hexc.timeoutError _)⟩
  · have hwait := waitFor_erased hexc h ⟨toolUse.toolCallId, taskId, number, deadlineAt⟩
      (min plain.timeoutSeconds (deadlineAt - estimatedServerTime s.clockOffset now)) now
    obtain ⟨hspans, hstate, hresult⟩ := traceOperation_erased s.tracer s.observability
      ("execute_tool ".toList ++ tool.name) true
      [("gen_ai.operation.name".toList, some (.str "execute_tool".toList)),
        ("gen_ai.tool.name".toList, some (.str tool.name)),
        ("gen_ai.tool.call.id".toList, some (.str toolUse.toolCallId)),
        ("gen_ai.tool.call.attempt".toList, some (.int number))]
      (fun now' => waitFor (tool.function kwargs ⟨toolUse.toolCallId, taskId, number, deadlineAt⟩
        now') (min plain.timeoutSeconds
          (deadlineAt - estimatedServerTime s.clockOffset now)) now') now
    rw [h.timeoutSeconds]
    refine ⟨hspans, hstate.trans hwait.1, ?_⟩
    rw [hresult]
    exact hwait.2

/-- The loop is the one of `ToolCall`, with a span for every start of the callable. -/
theorem invokeRegisteredToolWithRetry_erased (hexc : Classifies toExc)
    (h : Untraced toExc tool kwargs plain) (deadlineAt startedAt : Rat) :
    TimedRetry.Related
      (fun spans starts => s.observability.enabled = true → spans.length = starts.length)
      (fun exc e => toExc exc = e) Eq
      (invokeRegisteredToolWithRetry s taskId toolUse backoff tool kwargs deadlineAt startedAt)
      (ToolCall.invokeRegisteredToolWithRetry plain s.clockOffset backoff taskId
        toolUse.toolCallId deadlineAt startedAt) := by
  rw [invokeRegisteredToolWithRetry, ToolCall.invokeRegisteredToolWithRetry, h.retries]
  apply TimedRetry.attemptsFrom_related
  · intro xs xs' ys ys' hxs hys henabled
    rw [List.length_append, List.length_append, hxs henabled, hys henabled]
  · intro exc e he
    rw [← he, hexc.isException]
  · exact attemptTool_erased hexc h deadlineAt

end Untraced

/-! ## The result without classes and times -/

section Plain
variable {X Obj S J : Type} [JsonObject J]

def Describes (exc : Raised X) (description : PyException) : Prop :=
  exc.description = description ∧ exc.type.isException = true

/-- The tool of `ToolResult`, whose invocation is what the retry loop comes to. -/
structure PlainTool (s : DualeAISDK X Obj Obj S) (taskId : Text) (toolUse : BridgeToolUseResponse)
    (backoff : Nat → Backoff) (startedAt : Rat) (tool : RegisteredToolCallable X Obj Obj)
    (plain : ToolResult.RegisteredToolCallable Obj) : Prop where
  toolKwargs : ResultsRelated Describes Eq (tool.toolKwargs toolUse)
    (plain.toolKwargs toolUse.untimed)
  invoke : ∀ kwargs deadlineAt, toolUse.deadlineAt = some deadlineAt →
    ResultsRelated Describes Eq (invokeRegisteredToolWithRetry s taskId toolUse backoff tool kwargs
      deadlineAt startedAt).result (plain.invoke kwargs)
  errorTransform : tool.errorTransform =
    plain.errorTransform.map fun transform exc => transform exc.description

structure PlainConversion (C : Conversion X Obj J) (P : Python Obj J) (W : Wire J) : Prop where
  toolSuccessOutput : ∀ value, ResultsRelated Describes Eq (C.toolSuccessOutput value)
    (ToolResult.toolSuccessOutput P value)
  checkOutput : ∀ output, Option.Rel Describes (C.checkOutput output) (W.checkOutput output)

variable {s : DualeAISDK X Obj Obj S} {taskId : Text} {toolUse : BridgeToolUseResponse}
  {backoff : Nat → Backoff} {startedAt : Rat} {tool : RegisteredToolCallable X Obj Obj}
  {plainSdk : ToolResult.DualeAISDK Obj} {plain : ToolResult.RegisteredToolCallable Obj}
  {C : Conversion X Obj J} {P : Python Obj J} {W : Wire J}

theorem runRegisteredTool_plain (htool : s.tools.lookup toolUse.name = some tool)
    (hplain : plainSdk.tools.lookup toolUse.name = some plain)
    (h : PlainTool s taskId toolUse backoff startedAt tool plain) (hC : PlainConversion C P W) :
    ResultsRelated Describes Eq (runRegisteredTool s taskId toolUse backoff C startedAt).result
      (ToolResult.runRegisteredTool plainSdk P toolUse.untimed) := by
  have hlookup : plainSdk.tools.lookup toolUse.untimed.name = some plain := hplain
  rw [runRegisteredTool, ToolResult.runRegisteredTool, htool, hlookup]
  simp only
  cases h.toolKwargs.eq_cases with
  | inr herror =>
      obtain ⟨exc, description, hexc, hdescription, hdescribes⟩ := herror
      rw [hexc, hdescription]
      exact ResultsRelated.error hdescribes
  | inl hok =>
      obtain ⟨kwargs, hkwargs, hkwargs'⟩ := hok
      rw [hkwargs, hkwargs']
      cases hdeadline : toolUse.deadlineAt with
      | none =>
          have hnone : toolUse.untimed.deadlineAt.isNone = true := by
            rw [BridgeToolUseResponse.untimed, hdeadline]
            rfl
          simp only [bind, Except.bind, hnone, if_true]
          exact ResultsRelated.error ⟨rfl, rfl⟩
      | some deadlineAt =>
          have hsome : toolUse.untimed.deadlineAt.isNone = false := by
            rw [BridgeToolUseResponse.untimed, hdeadline]
            rfl
          simp only [bind, Except.bind, hsome, Bool.false_eq_true, if_false]
          apply ResultsRelated.bind (h.invoke kwargs deadlineAt hdeadline)
          intro value value' heq
          rw [heq]
          exact hC.toolSuccessOutput value'

omit [JsonObject J] in
theorem errorResult_plain (htool : s.tools.lookup toolUse.name = some tool)
    (hplain : plainSdk.tools.lookup toolUse.name = some plain)
    (h : PlainTool s taskId toolUse backoff startedAt tool plain) {exc : Raised X}
    {description : PyException} (hexc : Describes exc description) :
    errorResult s toolUse W exc =
      (ToolResult.renderToolError plainSdk toolUse.untimed.name description).bind fun message =>
        if W.acceptsMessage message then some (.error toolUse.untimed.toolCallId message)
        else none := by
  have hlookup : plainSdk.tools.lookup toolUse.untimed.name = some plain := hplain
  have hrender : renderToolError s toolUse.name exc =
      ToolResult.renderToolError plainSdk toolUse.untimed.name description := by
    rw [renderToolError, ToolResult.renderToolError, htool, hlookup, Option.bind_some,
      Option.bind_some, h.errorTransform, ← hexc.1]
    cases plain.errorTransform <;> rfl
  rw [errorResult, hexc.2, if_pos rfl, hrender]
  rfl

/-- What is recorded and submitted is what `ToolResult` says. -/
theorem executeToolUse_effects (htool : s.tools.lookup toolUse.name = some tool)
    (hplain : plainSdk.tools.lookup toolUse.name = some plain)
    (h : PlainTool s taskId toolUse backoff startedAt tool plain) (hC : PlainConversion C P W)
    (scheduled : Bool) :
    (executeToolUse s taskId toolUse backoff C W scheduled startedAt).effects =
      ToolResult.executeToolUse plainSdk P W toolUse.untimed scheduled := by
  have hresult : toolResult s toolUse C W
      (runRegisteredTool s taskId toolUse backoff C startedAt).result =
        ToolResult.toolResult plainSdk P W toolUse.untimed := by
    have hrun := runRegisteredTool_plain htool hplain h hC
    rw [ToolResult.toolResult, ToolResult.attempt]
    cases hrun.eq_cases with
    | inr herror =>
        obtain ⟨exc, description, hexc, hdescription, hdescribes⟩ := herror
        rw [hexc, hdescription]
        exact errorResult_plain htool hplain h hdescribes
    | inl hok =>
        obtain ⟨output, houtput, houtput'⟩ := hok
        have hcheck := hC.checkOutput output
        rw [houtput, houtput', toolResult]
        simp only [bind, Except.bind]
        generalize C.checkOutput output = refused at hcheck
        generalize W.checkOutput output = refused' at hcheck
        cases hcheck with
        | none => rfl
        | some hdescribes => exact errorResult_plain htool hplain h hdescribes
  rw [ToolResult.executeToolUse, ← hresult]
  rfl

end Plain
end DualeAI.ToolTracing
