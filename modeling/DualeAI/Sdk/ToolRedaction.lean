import DualeAI.Sdk.ToolTracing

/-!
What a tool's `error_transform` keeps from the wire and from the spans.

Two calls are compared whose exceptions may differ in everything but their class and
what the transform makes of them.
-/
namespace DualeAI.ToolTracing
open Foundation
open ToolCall (Backoff ToolContext)
open ToolResult

section Alike
variable {X K Obj S J β : Type} (transform : Raised X → Transformed)

/-- Exceptions of one class on which the transform behaves alike. -/
structure Alike (exc exc' : Raised X) : Prop where
  type : exc.type = exc'.type
  transformed : transform exc = transform exc'

abbrev AlikeResults : Except (Raised X) β → Except (Raised X) β → Prop :=
  ResultsRelated (Alike transform) Eq

structure AlikeRuns (call call' : CallableRun X β) : Prop where
  duration : call.duration = call'.duration
  endsFirst : call.endsFirst = call'.endsFirst
  result : AlikeResults transform call.result call'.result
  cancelled : Option.Rel (fun late late' => late.1 = late'.1 ∧
    AlikeResults transform late.2 late'.2) call.cancelled call'.cancelled

structure AlikeTools (tool tool' : RegisteredToolCallable X K Obj) : Prop where
  name : tool.name = tool'.name
  timeoutSeconds : tool.timeoutSeconds = tool'.timeoutSeconds
  retries : tool.retries = tool'.retries
  errorTransform : tool.errorTransform = some transform
  errorTransform' : tool'.errorTransform = some transform
  toolKwargs : ∀ toolUse,
    AlikeResults transform (tool.toolKwargs toolUse) (tool'.toolKwargs toolUse)
  function : ∀ kwargs context startedAt,
    AlikeRuns transform (tool.function kwargs context startedAt)
      (tool'.function kwargs context startedAt)

structure AlikeConversions (C C' : Conversion X Obj J) : Prop where
  toolSuccessOutput : ∀ value,
    AlikeResults transform (C.toolSuccessOutput value) (C'.toolSuccessOutput value)
  checkOutput : ∀ output, Option.Rel (Alike transform) (C.checkOutput output)
    (C'.checkOutput output)

variable {transform}

theorem Alike.refl (exc : Raised X) : Alike transform exc exc := ⟨rfl, rfl⟩

/-! ## Spans -/

theorem traceOperation_related (T : Tracer X S) (o : SDKObservability) (operation : Text)
    (attributes : List (Text × Option AttributeValue))
    {block block' : Rat → Rat × Except (Raised X) β} {now : Rat}
    (hend : (block now).1 = (block' now).1)
    (hresult : AlikeResults transform (block now).2 (block' now).2) :
    TimedRetry.Related Eq (Alike transform) Eq
      (traceOperation T o operation true attributes block now)
      (traceOperation T o operation true attributes block' now) := by
  rw [traceOperation, traceOperation]
  generalize block now = ended at hend hresult
  generalize block' now = ended' at hend hresult
  obtain ⟨endedAt, result⟩ := ended
  obtain ⟨endedAt', result'⟩ := ended'
  obtain rfl : endedAt = endedAt' := hend
  cases o.enabled with
  | false => exact ⟨rfl, rfl, hresult⟩
  | true =>
      cases hresult with
      | ok heq =>
          rw [heq]
          exact ⟨rfl, rfl, ResultsRelated.ok rfl⟩
      | error halike =>
          refine ⟨?_, rfl, ResultsRelated.error halike⟩
          -- The span has the class of the exception; the rest of it is not recorded.
          simp only [Bool.not_true, T.exit_unrecorded, halike.type]
          rfl

theorem waitFor_alike {call call' : CallableRun X β} (h : AlikeRuns transform call call')
    (timeout now : Rat) : (waitFor call timeout now).1 = (waitFor call' timeout now).1 ∧
      AlikeResults transform (waitFor call timeout now).2 (waitFor call' timeout now).2 := by
  rw [waitFor, waitFor, h.duration, h.endsFirst]
  split
  · exact ⟨rfl, h.result⟩
  · have hcancelled := h.cancelled
    generalize call.cancelled = late at hcancelled
    generalize call'.cancelled = late' at hcancelled
    cases hcancelled with
    | none => exact ⟨rfl, ResultsRelated.error (Alike.refl _)⟩
    | some hlate =>
        exact ⟨congrArg (now + timeout + ·) hlate.1, hlate.2⟩

/-! ## Attempts -/

variable {s : DualeAISDK X K Obj S} {taskId : Text} {toolUse : BridgeToolUseResponse}
  {backoff : Nat → Backoff} {tool tool' : RegisteredToolCallable X K Obj}
  {tools' : Dict Text (RegisteredToolCallable X K Obj)}

theorem attemptTool_related (h : AlikeTools transform tool tool') (kwargs : K)
    (deadlineAt : Rat) (number : Nat) (now : Rat) :
    TimedRetry.Related Eq (Alike transform) Eq
      (attemptTool s taskId toolUse tool kwargs deadlineAt number now)
      (attemptTool { s with tools := tools' } taskId toolUse tool' kwargs deadlineAt number
        now) := by
  rw [attemptTool, attemptTool]
  split
  · exact ⟨rfl, rfl, ResultsRelated.error (Alike.refl _)⟩
  · rw [h.name, h.timeoutSeconds]
    have hwait := waitFor_alike (h.function kwargs ⟨toolUse.toolCallId, taskId, number, deadlineAt⟩
      now) (min tool'.timeoutSeconds (deadlineAt - Agent.estimatedServerTime s.clockOffset now)) now
    exact traceOperation_related s.tracer s.observability _ _ hwait.1 hwait.2

theorem invokeRegisteredToolWithRetry_related (h : AlikeTools transform tool tool') (kwargs : K)
    (deadlineAt startedAt : Rat) :
    TimedRetry.Related Eq (Alike transform) Eq
      (invokeRegisteredToolWithRetry s taskId toolUse backoff tool kwargs deadlineAt startedAt)
      (invokeRegisteredToolWithRetry { s with tools := tools' } taskId toolUse backoff tool' kwargs
        deadlineAt startedAt) := by
  rw [invokeRegisteredToolWithRetry, invokeRegisteredToolWithRetry, h.retries]
  apply TimedRetry.attemptsFrom_related
  · intro xs xs' ys ys' hxs hys
    rw [hxs, hys]
  · intro exc exc' halike
    rw [halike.type]
  · exact attemptTool_related h kwargs deadlineAt

/-! ## The result -/

variable {C C' : Conversion X Obj J} {W : Wire J}

theorem runRegisteredTool_related (htool : s.tools.lookup toolUse.name = some tool)
    (htool' : tools'.lookup toolUse.name = some tool') (h : AlikeTools transform tool tool')
    (hC : AlikeConversions transform C C') (startedAt : Rat) :
    TimedRetry.Related Eq (Alike transform) Eq
      (runRegisteredTool s taskId toolUse backoff C startedAt)
      (runRegisteredTool { s with tools := tools' } taskId toolUse backoff C' startedAt) := by
  rw [runRegisteredTool, runRegisteredTool, htool, htool']
  simp only
  cases (h.toolKwargs toolUse).eq_cases with
  | inr herror =>
      obtain ⟨exc, exc', hexc, hexc', halike⟩ := herror
      rw [hexc, hexc']
      exact ⟨rfl, rfl, ResultsRelated.error halike⟩
  | inl hok =>
      obtain ⟨kwargs, hkwargs, hkwargs'⟩ := hok
      rw [hkwargs, hkwargs']
      simp only
      cases toolUse.deadlineAt with
      | none => exact ⟨rfl, rfl, ResultsRelated.error (Alike.refl _)⟩
      | some deadlineAt =>
          have hrun : TimedRetry.Related Eq (Alike transform) Eq
              (invokeRegisteredToolWithRetry s taskId toolUse backoff tool kwargs deadlineAt
                startedAt)
              (invokeRegisteredToolWithRetry { s with tools := tools' } taskId toolUse backoff tool'
                kwargs deadlineAt startedAt) :=
            invokeRegisteredToolWithRetry_related h kwargs deadlineAt startedAt
          refine ⟨hrun.yields, hrun.state, hrun.result.bind ?_⟩
          intro value value' heq
          rw [heq]
          exact hC.toolSuccessOutput value'

theorem renderToolError_of_transform (htool : s.tools.lookup toolUse.name = some tool)
    (htransform : tool.errorTransform = some transform) (exc : Raised X) :
    renderToolError s toolUse.name exc =
      match transform exc with
      | .raised | .returned none => some (genericMessage toolUse.name)
      | .returned (some rendered) => some (truncateToWireMax rendered) := by
  rw [renderToolError, htool, Option.bind_some, htransform]
  simp only [applyToolError]
  cases transform exc with
  | raised => rfl
  | returned rendered => cases rendered <;> rfl

theorem errorResult_alike (htool : s.tools.lookup toolUse.name = some tool)
    (htool' : tools'.lookup toolUse.name = some tool') (h : AlikeTools transform tool tool')
    {exc exc' : Raised X} (halike : Alike transform exc exc') :
    errorResult s toolUse W exc = errorResult { s with tools := tools' } toolUse W exc' := by
  rw [errorResult, errorResult, renderToolError_of_transform htool h.errorTransform,
    renderToolError_of_transform htool' h.errorTransform', halike.type, halike.transformed]

theorem toolResult_alike (htool : s.tools.lookup toolUse.name = some tool)
    (htool' : tools'.lookup toolUse.name = some tool') (h : AlikeTools transform tool tool')
    (hC : AlikeConversions transform C C') {result result' : Except (Raised X) (Output J)}
    (hresult : AlikeResults transform result result') :
    toolResult s toolUse C W result =
      toolResult { s with tools := tools' } toolUse C' W result' := by
  cases hresult.eq_cases with
  | inr herror =>
      obtain ⟨exc, exc', hexc, hexc', halike⟩ := herror
      rw [hexc, hexc']
      exact errorResult_alike htool htool' h halike
  | inl hok =>
      obtain ⟨output, houtput, houtput'⟩ := hok
      rw [houtput, houtput', toolResult, toolResult]
      have hcheck := hC.checkOutput output
      generalize C.checkOutput output = refused at hcheck
      generalize C'.checkOutput output = refused' at hcheck
      cases hcheck with
      | none => rfl
      | some halike => exact errorResult_alike htool htool' h halike

/-! ## The message -/

variable (transform) in
/-- A message that is the tool's name and no more, or what the transform returned. -/
def Redacted (toolName : Text) (message : PyStr) : Prop :=
  message = genericMessage toolName ∨
    ∃ exc rendered, transform exc = .returned (some rendered) ∧
      message = truncateToWireMax rendered

theorem redacted_of_render (htool : s.tools.lookup toolUse.name = some tool)
    (htransform : tool.errorTransform = some transform) {exc : Raised X} {message : PyStr}
    (h : renderToolError s toolUse.name exc = some message) :
    Redacted transform toolUse.name message := by
  rw [renderToolError_of_transform htool htransform] at h
  cases hrendered : transform exc with
  | raised =>
      rw [hrendered] at h
      cases h
      exact Or.inl rfl
  | returned rendered =>
      rw [hrendered] at h
      cases rendered with
      | none =>
          cases h
          exact Or.inl rfl
      | some rendered =>
          cases h
          exact Or.inr ⟨exc, rendered, hrendered, rfl⟩

theorem errorResult_some {exc : Raised X} {result : BridgeToolResult J}
    (h : errorResult s toolUse W exc = some result) :
    ∃ message, renderToolError s toolUse.name exc = some message ∧
      result = .error toolUse.toolCallId message := by
  rw [errorResult] at h
  split at h
  · obtain ⟨message, hmessage, hresult⟩ := Option.bind_eq_some_iff.mp h
    split at hresult
    · cases hresult
      exact ⟨message, hmessage, rfl⟩
    · cases hresult
  · cases h

theorem redacted_of_result (htool : s.tools.lookup toolUse.name = some tool)
    (htransform : tool.errorTransform = some transform) {result : Except (Raised X) (Output J)}
    {toolCallId : Text} {message : PyStr}
    (h : toolResult s toolUse C W result = some (.error toolCallId message)) :
    Redacted transform toolUse.name message := by
  have herror : ∀ exc, errorResult s toolUse W exc = some (.error toolCallId message) →
      Redacted transform toolUse.name message := by
    intro exc hexc
    obtain ⟨other, hrender, hother⟩ := errorResult_some hexc
    cases hother
    exact redacted_of_render htool htransform hrender
  cases result with
  | error exc => exact herror exc h
  | ok output =>
      rw [toolResult] at h
      split at h
      · cases h
      · next exc _ => exact herror exc h

theorem result_of_submitted {scheduled : Bool} {startedAt : Rat} {result : BridgeToolResult J}
    (h : Effect.submitted result ∈
      (executeToolUse s taskId toolUse backoff C W scheduled startedAt).effects) :
    toolResult s toolUse C W (runRegisteredTool s taskId toolUse backoff C startedAt).result =
      some result := by
  simp only [executeToolUse] at h
  split at h
  · cases h
  · next result' hresult =>
      rw [hresult]
      split at h
      · cases h with
        | tail _ h => cases List.mem_singleton.mp h; rfl
      · cases List.mem_singleton.mp h
        rfl

end Alike

/-- Two calls of a tool with an error transform that differ in nothing but the texts and
contents of exceptions, which the transform treats alike, export the same spans and submit
the same result at the same time; and the message of an error is a redacted one. -/
theorem executeToolUse_redacts {X K Obj S J : Type} (s : DualeAISDK X K Obj S)
    (tools' : Dict Text (RegisteredToolCallable X K Obj)) (taskId : Text)
    (toolUse : BridgeToolUseResponse) (backoff : Nat → Backoff) (C C' : Conversion X Obj J)
    (W : Wire J) (scheduled : Bool) (startedAt : Rat) (transform : Raised X → Transformed)
    (tool tool' : RegisteredToolCallable X K Obj)
    (htool : s.tools.lookup toolUse.name = some tool)
    (htool' : tools'.lookup toolUse.name = some tool')
    (h : AlikeTools transform tool tool') (hC : AlikeConversions transform C C') :
    executeToolUse s taskId toolUse backoff C W scheduled startedAt =
        executeToolUse { s with tools := tools' } taskId toolUse backoff C' W scheduled
          startedAt ∧
      ∀ toolCallId message, Effect.submitted (.error toolCallId message) ∈
        (executeToolUse s taskId toolUse backoff C W scheduled startedAt).effects →
          Redacted transform toolUse.name message := by
  constructor
  · have hrun : TimedRetry.Related Eq (Alike transform) Eq
        (runRegisteredTool s taskId toolUse backoff C startedAt)
        (runRegisteredTool { s with tools := tools' } taskId toolUse backoff C' startedAt) :=
      runRegisteredTool_related htool htool' h hC startedAt
    rw [executeToolUse, executeToolUse, hrun.yields, hrun.state,
      toolResult_alike htool htool' h hC hrun.result]
  · intro toolCallId message hmem
    exact redacted_of_result htool h.errorTransform (result_of_submitted hmem)

/-! ## A tool whose exceptions hold a secret -/

structure RecordedSpan where
  name : Text
  startedAt : Rat
  attributes : List (Text × AttributeValue)
  /-- The texts of the exceptions recorded. -/
  exceptions : List (Option PyStr)
  status : Option PyStr
  endedAt : Option Rat

/-- It records what it is not told to leave out. -/
def recordingTracer : Tracer Unit RecordedSpan where
  startSpan name _ startedAt := ⟨name, startedAt, [], [], none, none⟩
  isRecording _ := true
  setAttributes attributes span := { span with attributes := span.attributes ++ attributes }
  setErrorStatus description span := { span with status := some description }
  exit recordException setStatusOnException exc endedAt span :=
    { span with
      exceptions := span.exceptions ++ (if recordException then (exc.map Raised.str).toList else [])
      status := if setStatusOnException then (exc.bind Raised.str).or span.status else span.status
      endedAt := some endedAt }
  exit_unrecorded _ _ _ := rfl

def runtimeError (text : Text) : Raised Unit :=
  ⟨⟨ofText "builtins".toList, ofText "RuntimeError".toList, ofText "RuntimeError".toList, true,
    false⟩, some (ofText text), some ()⟩

def hideText (_ : Raised Unit) : Transformed := .returned (some (ofText "hidden".toList))

/-- It raises at every start, and again when it is cancelled. -/
def leakyTool (text : Text) : RegisteredToolCallable Unit Unit PyStr where
  name := ['f']
  timeoutSeconds := 5
  retries := 2
  toolKwargs _ := .ok ()
  function _ _ _ := ⟨1, .error (runtimeError text), true, some (1, .error (runtimeError text))⟩
  errorTransform := some hideText

theorem leakyTool_alike (text text' : Text) :
    AlikeTools hideText (leakyTool text) (leakyTool text') where
  name := rfl
  timeoutSeconds := rfl
  retries := rfl
  errorTransform := rfl
  errorTransform' := rfl
  toolKwargs _ := ResultsRelated.ok rfl
  function _ _ _ := by
    have halike : AlikeResults hideText (β := PyStr) (.error (runtimeError text))
        (.error (runtimeError text')) := ResultsRelated.error ⟨rfl, rfl⟩
    exact ⟨rfl, rfl, halike, Option.Rel.some ⟨rfl, halike⟩⟩

def plainConversion : Conversion Unit PyStr Unit where
  toolSuccessOutput value := .ok (.str value)
  checkOutput _ := none

theorem plainConversion_alike : AlikeConversions hideText plainConversion plainConversion where
  toolSuccessOutput _ := ResultsRelated.ok rfl
  checkOutput _ := Option.Rel.none

def leakySdk (text : Text) : DualeAISDK Unit Unit PyStr RecordedSpan where
  tools := [(['f'], leakyTool text)]
  observability := ⟨true, none⟩
  tracer := recordingTracer
  clockOffset := 0

theorem executeToolUse_redacts_leaky :
    executeToolUse (leakySdk "s3cr3t".toList) [] ⟨['c'], ['f'], some 20⟩ ToolCall.secondBackoff
        plainConversion unicodeWire true 5 =
      executeToolUse (leakySdk "0ther".toList) [] ⟨['c'], ['f'], some 20⟩ ToolCall.secondBackoff
        plainConversion unicodeWire true 5 :=
  (executeToolUse_redacts (leakySdk "s3cr3t".toList) (leakySdk "0ther".toList).tools []
    ⟨['c'], ['f'], some 20⟩ ToolCall.secondBackoff plainConversion plainConversion unicodeWire true
    5 hideText (leakyTool "s3cr3t".toList) (leakyTool "0ther".toList) rfl rfl
    (leakyTool_alike _ _) plainConversion_alike).1

end DualeAI.ToolTracing
