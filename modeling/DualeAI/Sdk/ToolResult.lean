import DualeAI.Foundation.Dict
import DualeAI.Foundation.Text

/-!
The one result of a tool call: `_execute_tool_use` up to its submission.

A Python string may hold surrogates. Every exception here is an `Exception`, given by
what the error message takes from it. The type `Obj` is that of the objects a callable
may return, `J` that of validated JSON objects; what Python and pydantic do with them
are parameters, and so is the JSON encoder of the transport. Logging is taken not to raise.
-/
namespace DualeAI.ToolResult
open Foundation

/-! ## Python -/

abbrev CodePoint := Fin 0x110000

abbrev PyStr := List CodePoint

def isSurrogate (c : CodePoint) : Bool := 0xd800 ≤ c.val && c.val ≤ 0xdfff

/-- Valid Unicode. -/
def isUnicode (s : PyStr) : Bool := s.all fun c => !isSurrogate c

def ofChar (c : Char) : CodePoint := Fin.ofNat _ c.toNat

def ofText (t : Text) : PyStr := t.map ofChar

structure PyException where
  moduleName : PyStr
  qualname : PyStr
  isValueOrTypeError : Bool
  /-- What `str` makes of it; none where that raises. -/
  str : Option PyStr

def valueError (message : Text) : PyException :=
  ⟨ofText "builtins".toList, ofText "ValueError".toList, true, some (ofText message)⟩

/-- A string in a JSON value. -/
inductive JsonString where
  | key (s : PyStr)
  | value (s : PyStr)

def JsonString.text : JsonString → PyStr
  | .key s | .value s => s

/-- A type of validated JSON objects: their numbers are finite and bounded, so that an
encoder can only refuse the strings in them. -/
class JsonObject (J : Type) where
  strings : J → List JsonString

structure Python (Obj J : Type) [JsonObject J] where
  isBaseModel : Obj → Bool
  dumpWireModel : Obj → Except PyException J
  isDataclassInstance : Obj → Bool
  asdict : Obj → Except PyException Obj
  /-- The object as a `str`, where it is one. -/
  asStr : Obj → Option PyStr
  isMapping : Obj → Bool
  dict : Obj → Except PyException Obj
  /-- The `dict` of the object under `"result"`. -/
  wrap : Obj → Obj
  /-- `json_schema_adapter.validate_python`. -/
  validatePython : Obj → Except PyException J
  typeName : Obj → PyStr
  /-- The strings in the JSON form of an object, the names of its fields among the keys. -/
  strings : Obj → List JsonString
  strings_dumpWireModel : ∀ object value, isBaseModel object = true →
    dumpWireModel object = .ok value → JsonObject.strings value = strings object
  /-- It gives a `dict`. -/
  asdict_dict : ∀ object fields, isBaseModel object = false → isDataclassInstance object = true →
    asdict object = .ok fields →
      isDataclassInstance fields = false ∧ strings fields = strings object
  strings_str : ∀ object s, isDataclassInstance object = false → asStr object = some s →
    strings object = [.value s]
  strings_dict : ∀ object entries, isDataclassInstance object = false → isMapping object = true →
    dict object = .ok entries → strings entries = strings object
  strings_wrap : ∀ object, strings (wrap object) = .key (ofText "result".toList) :: strings object
  strings_validatePython : ∀ object value, validatePython object = .ok value →
    JsonObject.strings value = strings object

/-! ## Results -/

inductive Output (J : Type) where
  | str (s : PyStr)
  | object (value : J)

def Output.strings {J : Type} [JsonObject J] : Output J → List JsonString
  | .str s => [.value s]
  | .object value => JsonObject.strings value

/-- `BridgeToolResultSuccess` and `BridgeToolResultError`. -/
inductive BridgeToolResult (J : Type) where
  | success (toolCallId : Text) (output : Output J)
  | error (toolCallId : Text) (message : PyStr)

def BridgeToolResult.toolCallId {J : Type} : BridgeToolResult J → Text
  | .success toolCallId _ | .error toolCallId _ => toolCallId

def toolErrorMessageMaxChars : Nat := 2048

/-- The checks of the wire models, and the strings the encoder can write. -/
structure Wire (J : Type) where
  /-- What `BridgeToolResultSuccess` raises for an output it refuses. -/
  checkOutput : Output J → Option PyException
  acceptsMessage : PyStr → Bool
  /-- What it does with a surrogate, be it an escape or a refusal, is left open. -/
  encodesString : JsonString → Bool
  /-- A bounded `StrictStr`. -/
  acceptsMessage_iff : ∀ message, acceptsMessage message = true ↔
    isUnicode message = true ∧ message.length ≤ toolErrorMessageMaxChars
  encodesString_of_isUnicode : ∀ s, isUnicode s.text = true → encodesString s = true

/-- A result is written where every string in it is. -/
def Wire.encodes {J : Type} [JsonObject J] (W : Wire J) : BridgeToolResult J → Bool
  | .success _ output => output.strings.all W.encodesString
  | .error _ message => W.encodesString (.value message)

structure BridgeToolUseResponse where
  toolCallId : Text
  name : Text
  deadlineAt : Option Int

inductive Transformed where
  | raised
  /-- The returned string; none for what is no `str`. -/
  | returned (rendered : Option PyStr)

structure RegisteredToolCallable (Obj : Type) where
  name : Text
  toolKwargs : BridgeToolUseResponse → Except PyException Obj
  /-- What the retry loop comes to. -/
  invoke : Obj → Except PyException Obj
  errorTransform : Option (PyException → Transformed)
  /-- A `ToolName`. -/
  name_length : name.length ≤ 64

/-- Tools are registered under their names. -/
structure DualeAISDK (Obj : Type) where
  tools : Dict Text (RegisteredToolCallable Obj)
  keyed : ∀ entry ∈ tools, entry.2.name = entry.1

inductive Effect (J : Type) where
  | recorded (result : BridgeToolResult J)
  | submitted (result : BridgeToolResult J)

/-! ## Errors -/

def truncateToWireMax (text : PyStr) : PyStr :=
  if toolErrorMessageMaxChars < text.length then
    text.take (toolErrorMessageMaxChars - 1) ++ [ofChar '…']
  else text

def rendering (exc : PyException) (message : PyStr) : PyStr :=
  let qualifiedName := exc.moduleName ++ ofChar '.' :: exc.qualname
  if message.isEmpty then qualifiedName else qualifiedName ++ ofText ": ".toList ++ message

/-- None where `str(exc)` raises. -/
def formatRegisteredToolError (exc : PyException) : Option PyStr :=
  exc.str.map fun message => truncateToWireMax (rendering exc message)

/-- None where it raises. -/
def applyToolError (exc : PyException) : Option (PyException → Transformed) → Option PyStr
  | none => formatRegisteredToolError exc
  | some transform =>
      match transform exc with
      | .raised | .returned none => none
      | .returned (some rendered) => some (truncateToWireMax rendered)

def genericMessage (toolName : Text) : PyStr :=
  ofText (toolName ++ ": tool execution failed".toList)

section Execution
variable {Obj J : Type} [JsonObject J] (s : DualeAISDK Obj)

def renderToolError (toolName : Text) (exc : PyException) : Option PyStr :=
  match (s.tools.lookup toolName).bind RegisteredToolCallable.errorTransform with
  | none => formatRegisteredToolError exc
  | some transform => some ((applyToolError exc (some transform)).getD (genericMessage toolName))

variable (P : Python Obj J) (W : Wire J)

def notSerializable (typeName : PyStr) : PyException where
  moduleName := ofText "builtins".toList
  qualname := ofText "TypeError".toList
  isValueOrTypeError := true
  str := some (ofText "Tool returned ".toList ++ typeName ++ ofText
    ("; a tool result must be JSON-serializable (a str, a mapping, a Pydantic model, ".toList ++
      "or a value wrappable as \x7b\"result\": ...\x7d).".toList))

def toolSuccessOutput (result : Obj) : Except PyException (Output J) :=
  if P.isBaseModel result then (P.dumpWireModel result).map .object
  else do
    let result ← if P.isDataclassInstance result then P.asdict result else pure result
    match P.asStr result with
    | some s => return .str s
    | none =>
        let candidate ← if P.isMapping result then P.dict result else pure (P.wrap result)
        match P.validatePython candidate with
        | .ok value => return .object value
        | .error exc =>
            throw (if exc.isValueOrTypeError then notSerializable (P.typeName result) else exc)

def noDeadline (toolUse : BridgeToolUseResponse) : PyException :=
  valueError ("Tool call ".toList ++ toolUse.toolCallId ++ " has no deadline_at".toList)

def runRegisteredTool (toolUse : BridgeToolUseResponse) : Except PyException (Output J) :=
  match s.tools.lookup toolUse.name with
  | none => throw (valueError ("Unknown registered tool: ".toList ++ toolUse.name))
  | some tool => do
      let kwargs ← tool.toolKwargs toolUse
      if toolUse.deadlineAt.isNone then throw (noDeadline toolUse)
      let result ← tool.invoke kwargs
      toolSuccessOutput P result

/-- The body of the `try`. -/
def attempt (toolUse : BridgeToolUseResponse) : Except PyException (BridgeToolResult J) := do
  let output ← runRegisteredTool s P toolUse
  match W.checkOutput output with
  | some exc => throw exc
  | none => return .success toolUse.toolCallId output

/-- None where an exception leaves the handler. -/
def toolResult (toolUse : BridgeToolUseResponse) : Option (BridgeToolResult J) :=
  match attempt s P W toolUse with
  | .ok result => some result
  | .error exc => do
      let message ← renderToolError s toolUse.name exc
      if W.acceptsMessage message then return .error toolUse.toolCallId message else none

/-- `scheduled` where the call has a `ScheduledToolUse`. -/
def executeToolUse (toolUse : BridgeToolUseResponse) (scheduled : Bool) : List (Effect J) :=
  match toolResult s P W toolUse with
  | none => []
  | some result => if scheduled then [.recorded result, .submitted result] else [.submitted result]

/-- One result that the wire takes is recorded, and then submitted. -/
def OneResult (toolUse : BridgeToolUseResponse) (effects : List (Effect J)) : Prop :=
  ∃ result, effects = [.recorded result, .submitted result] ∧
    result.toolCallId = toolUse.toolCallId ∧ W.encodes result = true ∧
      ∀ toolCallId message, result = .error toolCallId message →
        message.length ≤ toolErrorMessageMaxChars

end Execution

/-! ## Texts -/

/-- The part of a text that a message keeps. -/
def kept (s : PyStr) : PyStr :=
  if toolErrorMessageMaxChars < s.length then s.take (toolErrorMessageMaxChars - 1) else s

theorem isUnicode_append (s t : PyStr) : isUnicode (s ++ t) = (isUnicode s && isUnicode t) :=
  List.all_append

theorem isSurrogate_ofChar (c : Char) : isSurrogate (ofChar c) = false := by
  have hvalid : c.toNat < 0xd800 ∨ 0xdfff < c.toNat ∧ c.toNat < 0x110000 := c.valid
  have hval : (ofChar c).val = c.toNat := Nat.mod_eq_of_lt (by omega)
  rw [isSurrogate, hval, Bool.and_eq_false_iff, decide_eq_false_iff_not, decide_eq_false_iff_not]
  omega

theorem isUnicode_ofText (t : Text) : isUnicode (ofText t) = true := by
  refine List.all_eq_true.mpr fun c hmem => ?_
  obtain ⟨d, -, rfl⟩ := List.mem_map.mp hmem
  rw [isSurrogate_ofChar, Bool.not_false]

theorem isUnicode_truncateToWireMax (s : PyStr) :
    isUnicode (truncateToWireMax s) = isUnicode (kept s) := by
  rw [truncateToWireMax, kept]
  split
  · rw [isUnicode_append, show isUnicode [ofChar '…'] = true from rfl, Bool.and_true]
  · rfl

theorem length_truncateToWireMax (s : PyStr) :
    (truncateToWireMax s).length ≤ toolErrorMessageMaxChars := by
  rw [truncateToWireMax]
  split
  · next h =>
      rw [List.length_append, List.length_take, List.length_singleton]
      have hmax : toolErrorMessageMaxChars = 2048 := rfl
      omega
  · next h => exact Nat.le_of_not_lt h

theorem genericMessage_accepted {J : Type} (W : Wire J) {toolName : Text}
    (hlength : toolName.length ≤ 64) : W.acceptsMessage (genericMessage toolName) = true := by
  refine (W.acceptsMessage_iff _).mpr ⟨isUnicode_ofText _, ?_⟩
  have htail : (": tool execution failed".toList).length = 23 := rfl
  rw [genericMessage, ofText, List.length_map, List.length_append, htail]
  exact Nat.le_trans (Nat.add_le_add_right hlength 23) (by decide)

theorem truncateToWireMax_accepted {J : Type} (W : Wire J) (s : PyStr) :
    W.acceptsMessage (truncateToWireMax s) = true ↔ isUnicode (kept s) = true := by
  rw [W.acceptsMessage_iff, isUnicode_truncateToWireMax]
  exact and_iff_left (length_truncateToWireMax s)

/-! ## What a call comes to -/

section Calls
variable {Obj J : Type} [JsonObject J] (P : Python Obj J) (W : Wire J)
  (tool : RegisteredToolCallable Obj) (toolUse : BridgeToolUseResponse)

/-- The exceptions of the validation, the callable and the checks of what it returned. -/
inductive Raises : PyException → Prop where
  | validation {exc : PyException} (h : tool.toolKwargs toolUse = .error exc) : Raises exc
  | noDeadline {kwargs : Obj} (h : tool.toolKwargs toolUse = .ok kwargs)
      (hdeadline : toolUse.deadlineAt = none) : Raises (noDeadline toolUse)
  | callable {kwargs : Obj} {deadline : Int} {exc : PyException}
      (h : tool.toolKwargs toolUse = .ok kwargs) (hdeadline : toolUse.deadlineAt = some deadline)
      (hinvoke : tool.invoke kwargs = .error exc) : Raises exc
  | value {kwargs result : Obj} {deadline : Int} {exc : PyException}
      (h : tool.toolKwargs toolUse = .ok kwargs) (hdeadline : toolUse.deadlineAt = some deadline)
      (hinvoke : tool.invoke kwargs = .ok result)
      (houtput : toolSuccessOutput P result = .error exc) : Raises exc
  | refused {kwargs result : Obj} {deadline : Int} {output : Output J} {exc : PyException}
      (h : tool.toolKwargs toolUse = .ok kwargs) (hdeadline : toolUse.deadlineAt = some deadline)
      (hinvoke : tool.invoke kwargs = .ok result)
      (houtput : toolSuccessOutput P result = .ok output)
      (hcheck : W.checkOutput output = some exc) : Raises exc

/-- The callable returned this, and the checks made an output of it. -/
def Returns (result : Obj) (output : Output J) : Prop :=
  ∃ kwargs deadline, tool.toolKwargs toolUse = .ok kwargs ∧
    toolUse.deadlineAt = some deadline ∧ tool.invoke kwargs = .ok result ∧
      toolSuccessOutput P result = .ok output ∧ W.checkOutput output = none

/-- An error whose text the wire takes, or whose transform gives one or fails. -/
def Renders (exc : PyException) : Prop :=
  match tool.errorTransform with
  | none => ∃ message, exc.str = some message ∧ isUnicode (kept (rendering exc message)) = true
  | some transform =>
      ∀ rendered, transform exc = .returned (some rendered) → isUnicode (kept rendered) = true

variable {P W tool toolUse} {s : DualeAISDK Obj}

theorem attempt_of_raises {exc : PyException} (htool : s.tools.lookup toolUse.name = some tool)
    (h : Raises P W tool toolUse exc) : attempt s P W toolUse = .error exc := by
  rw [attempt, runRegisteredTool, htool]
  cases h with
  | validation h => simp [bind, Except.bind, h]
  | noDeadline h hdeadline =>
      simp [bind, Except.bind, throw, throwThe, MonadExceptOf.throw, h, hdeadline]
  | callable h hdeadline hinvoke => simp [bind, Except.bind, h, hdeadline, hinvoke]
  | value h hdeadline hinvoke houtput => simp [bind, Except.bind, h, hdeadline, hinvoke, houtput]
  | refused h hdeadline hinvoke houtput hcheck =>
      simp [bind, Except.bind, throw, throwThe, MonadExceptOf.throw, h, hdeadline, hinvoke, houtput,
        hcheck]

theorem attempt_of_returns {result : Obj} {output : Output J}
    (htool : s.tools.lookup toolUse.name = some tool)
    (h : Returns P W tool toolUse result output) :
    attempt s P W toolUse = .ok (.success toolUse.toolCallId output) := by
  obtain ⟨kwargs, deadline, h, hdeadline, hinvoke, houtput, hcheck⟩ := h
  rw [attempt, runRegisteredTool, htool]
  simp [bind, Except.bind, pure, Except.pure, h, hdeadline, hinvoke, houtput, hcheck]

theorem returned_unique {result result' : Obj} {output output' : Output J}
    (h : Returns P W tool toolUse result output)
    (h' : Returns P W tool toolUse result' output') : result = result' := by
  obtain ⟨kwargs, deadline, hkwargs, -, hinvoke, -⟩ := h
  obtain ⟨kwargs', deadline', hkwargs', -, hinvoke', -⟩ := h'
  cases hkwargs.symm.trans hkwargs'
  cases hinvoke.symm.trans hinvoke'
  rfl

/-- Every call comes to an exception or to an output. -/
theorem raises_or_returns (P : Python Obj J) (W : Wire J) (tool : RegisteredToolCallable Obj)
    (toolUse : BridgeToolUseResponse) :
    (∃ exc, Raises P W tool toolUse exc) ∨
      ∃ result output, Returns P W tool toolUse result output := by
  cases hkwargs : tool.toolKwargs toolUse with
  | error exc => exact .inl ⟨exc, .validation hkwargs⟩
  | ok kwargs =>
      cases hdeadline : toolUse.deadlineAt with
      | none => exact .inl ⟨_, .noDeadline hkwargs hdeadline⟩
      | some deadline =>
          cases hinvoke : tool.invoke kwargs with
          | error exc => exact .inl ⟨exc, .callable hkwargs hdeadline hinvoke⟩
          | ok result =>
              cases houtput : toolSuccessOutput P result with
              | error exc => exact .inl ⟨exc, .value hkwargs hdeadline hinvoke houtput⟩
              | ok output =>
                  cases hcheck : W.checkOutput output with
                  | some exc =>
                      exact .inl ⟨exc, .refused hkwargs hdeadline hinvoke houtput hcheck⟩
                  | none =>
                      exact .inr ⟨result, output, kwargs, deadline, hkwargs, hdeadline, hinvoke,
                        houtput, hcheck⟩

/-! ## What is returned -/

/-- The end of `toolSuccessOutput`, for what is no model and no dataclass. -/
def plainOutput (P : Python Obj J) (result : Obj) : Except PyException (Output J) :=
  match P.asStr result with
  | some s => return .str s
  | none => do
      let candidate ← if P.isMapping result then P.dict result else pure (P.wrap result)
      match P.validatePython candidate with
      | .ok value => return .object value
      | .error exc =>
          throw (if exc.isValueOrTypeError then notSerializable (P.typeName result) else exc)

/-- An output holds the strings of an object, and at most the key `"result"` more. -/
def HoldsStringsOf (P : Python Obj J) (object : Obj) (output : Output J) : Prop :=
  output.strings = P.strings object ∨
    output.strings = .key (ofText "result".toList) :: P.strings object

theorem toolSuccessOutput_eq (P : Python Obj J) (result : Obj) :
    toolSuccessOutput P result =
      if P.isBaseModel result then (P.dumpWireModel result).map .object
      else if P.isDataclassInstance result then P.asdict result >>= plainOutput P
      else plainOutput P result := by
  rw [toolSuccessOutput]
  split
  · rfl
  · split <;> rfl

theorem strings_of_plainOutput {object : Obj} {output : Output J}
    (hplain : P.isDataclassInstance object = false) (h : plainOutput P object = .ok output) :
    HoldsStringsOf P object output := by
  have hvalidated : ∀ candidate value, P.validatePython candidate = .ok value →
      (Output.object value).strings = P.strings candidate := P.strings_validatePython
  rw [plainOutput] at h
  cases hstr : P.asStr object with
  | some s =>
      rw [hstr] at h
      cases h
      exact .inl (P.strings_str object s hplain hstr).symm
  | none =>
      rw [hstr] at h
      cases hmapping : P.isMapping object with
      | true =>
          rw [hmapping] at h
          cases hdict : P.dict object with
          | error exc => simp [hdict, bind, Except.bind] at h
          | ok entries =>
              cases hvalue : P.validatePython entries with
              | error exc => simp [hdict, hvalue, bind, Except.bind, throw, throwThe,
                  MonadExceptOf.throw] at h
              | ok value =>
                  simp [hdict, hvalue, bind, Except.bind, pure, Except.pure] at h
                  rw [← h]
                  exact .inl ((hvalidated entries value hvalue).trans
                    (P.strings_dict object entries hplain hmapping hdict))
      | false =>
          rw [hmapping] at h
          cases hvalue : P.validatePython (P.wrap object) with
          | error exc => simp [hvalue, bind, Except.bind, pure, Except.pure, throw, throwThe,
              MonadExceptOf.throw] at h
          | ok value =>
              simp [hvalue, bind, Except.bind, pure, Except.pure] at h
              rw [← h]
              exact .inr ((hvalidated _ value hvalue).trans (P.strings_wrap object))

theorem strings_of_toolSuccessOutput {object : Obj} {output : Output J}
    (h : toolSuccessOutput P object = .ok output) : HoldsStringsOf P object output := by
  rw [toolSuccessOutput_eq] at h
  cases hmodel : P.isBaseModel object with
  | true =>
      rw [hmodel, if_pos rfl] at h
      cases hdump : P.dumpWireModel object with
      | error exc =>
          rw [hdump] at h
          cases h
      | ok value =>
          rw [hdump] at h
          cases h
          exact .inl (P.strings_dumpWireModel object value hmodel hdump)
  | false =>
      cases hdataclass : P.isDataclassInstance object with
      | false =>
          rw [hmodel, hdataclass] at h
          exact strings_of_plainOutput hdataclass h
      | true =>
          rw [hmodel, hdataclass] at h
          cases hasdict : P.asdict object with
          | error exc =>
              rw [hasdict] at h
              cases h
          | ok fields =>
              rw [hasdict] at h
              obtain ⟨hplain, hstrings⟩ :=
                P.asdict_dict object fields hmodel hdataclass hasdict
              rw [HoldsStringsOf, ← hstrings]
              exact strings_of_plainOutput hplain h

/-- An output is encoded where every string of the object it stands for is. -/
theorem encodes_success_iff {object : Obj} {output : Output J} (W : Wire J) (toolCallId : Text)
    (h : toolSuccessOutput P object = .ok output) :
    W.encodes (.success toolCallId output) = true ↔
      ∀ s ∈ P.strings object, W.encodesString s = true := by
  have hresult : W.encodesString (.key (ofText "result".toList)) = true :=
    W.encodesString_of_isUnicode _ (isUnicode_ofText _)
  rw [Wire.encodes, List.all_eq_true]
  cases strings_of_toolSuccessOutput h with
  | inl hstrings => rw [hstrings]
  | inr hstrings =>
      rw [hstrings, List.forall_mem_cons]
      exact and_iff_right hresult

/-! ## The handler -/

theorem name_length_of_registered {toolName : Text} (htool : s.tools.lookup toolName = some tool) :
    toolName.length ≤ 64 := by
  have hname : tool.name = toolName := s.keyed _ (Dict.mem_of_lookup htool)
  exact hname ▸ tool.name_length

omit [JsonObject J] in
/-- The handler makes a result of the errors that render. -/
theorem renders_iff {exc : PyException} {toolName : Text}
    (htool : s.tools.lookup toolName = some tool) :
    (∃ message, renderToolError s toolName exc = some message ∧
      W.acceptsMessage message = true) ↔ Renders tool exc := by
  have hgeneric : W.acceptsMessage (genericMessage toolName) = true :=
    genericMessage_accepted W (name_length_of_registered htool)
  rw [renderToolError, Renders, htool]
  simp only [Option.bind_some]
  cases htransform : tool.errorTransform with
  | none =>
      simp only [formatRegisteredToolError]
      constructor
      · intro h
        obtain ⟨message, hmessage, haccepts⟩ := h
        obtain ⟨text, htext, rfl⟩ := Option.map_eq_some_iff.mp hmessage
        exact ⟨text, htext, (truncateToWireMax_accepted W _).mp haccepts⟩
      · intro h
        obtain ⟨text, htext, hunicode⟩ := h
        exact ⟨_, Option.map_eq_some_iff.mpr ⟨text, htext, rfl⟩,
          (truncateToWireMax_accepted W _).mpr hunicode⟩
  | some transform =>
      simp only [applyToolError, Option.some.injEq, exists_eq_left']
      cases hresult : transform exc with
      | raised => simpa using hgeneric
      | returned rendered =>
          cases rendered with
          | none => simpa using hgeneric
          | some rendered => simpa using truncateToWireMax_accepted W rendered

theorem toolResult_of_error {exc : PyException} (h : attempt s P W toolUse = .error exc) :
    toolResult s P W toolUse =
      (renderToolError s toolUse.name exc).bind fun message =>
        if W.acceptsMessage message then some (.error toolUse.toolCallId message) else none := by
  rw [toolResult, h]
  rfl

theorem toolResult_of_raises {exc : PyException} (htool : s.tools.lookup toolUse.name = some tool)
    (h : Raises P W tool toolUse exc) :
    (∃ message, toolResult s P W toolUse = some (.error toolUse.toolCallId message) ∧
        W.acceptsMessage message = true) ∧ Renders tool exc ∨
      toolResult s P W toolUse = none ∧ ¬ Renders tool exc := by
  have hrenders : (∃ message, renderToolError s toolUse.name exc = some message ∧
      W.acceptsMessage message = true) ↔ Renders tool exc := renders_iff htool
  rw [toolResult_of_error (attempt_of_raises htool h), ← hrenders]
  cases renderToolError s toolUse.name exc with
  | none => exact .inr ⟨rfl, by simp⟩
  | some message =>
      by_cases haccepts : W.acceptsMessage message = true
      · exact .inl ⟨⟨message, if_pos haccepts, haccepts⟩, message, rfl, haccepts⟩
      · exact .inr ⟨if_neg haccepts, by simpa using haccepts⟩

theorem oneResult_of_some {result : BridgeToolResult J}
    (h : toolResult s P W toolUse = some result) :
    OneResult W toolUse (executeToolUse s P W toolUse true) ↔
      result.toolCallId = toolUse.toolCallId ∧ W.encodes result = true ∧
        ∀ toolCallId message, result = .error toolCallId message →
          message.length ≤ toolErrorMessageMaxChars := by
  rw [OneResult, executeToolUse, h]
  constructor
  · intro h
    obtain ⟨other, heffects, hrest⟩ := h
    cases heffects
    exact hrest
  · exact fun h => ⟨result, rfl, h⟩

theorem not_oneResult_of_none (h : toolResult s P W toolUse = none) :
    ¬ OneResult W toolUse (executeToolUse s P W toolUse true) := by
  rw [OneResult, executeToolUse, h]
  intro h
  obtain ⟨result, heffects, -⟩ := h
  cases heffects

/-- A call of a registered tool has its one result exactly where the exception it raises
can be rendered, or the strings in what it returns encoded. -/
theorem one_result_iff (s : DualeAISDK Obj) (P : Python Obj J) (W : Wire J)
    (tool : RegisteredToolCallable Obj) (toolUse : BridgeToolUseResponse)
    (htool : s.tools.lookup toolUse.name = some tool) :
    OneResult W toolUse (executeToolUse s P W toolUse true) ↔
      (∀ exc, Raises P W tool toolUse exc → Renders tool exc) ∧
        ∀ result output, Returns P W tool toolUse result output →
          ∀ s ∈ P.strings result, W.encodesString s = true := by
  cases raises_or_returns P W tool toolUse with
  | inl hraises =>
      obtain ⟨exc, hexc⟩ := hraises
      have hattempt := attempt_of_raises htool hexc
      have honly : ∀ other, Raises P W tool toolUse other → other = exc := fun other hother => by
        cases hattempt.symm.trans (attempt_of_raises htool hother)
        rfl
      have hnone : ∀ result output, ¬ Returns P W tool toolUse result output :=
        fun result output houtput => by
          cases hattempt.symm.trans (attempt_of_returns htool houtput)
      cases toolResult_of_raises htool hexc with
      | inl h =>
          obtain ⟨⟨message, hresult, haccepts⟩, hrenders⟩ := h
          obtain ⟨hunicode, hlength⟩ := (W.acceptsMessage_iff message).mp haccepts
          refine iff_of_true ((oneResult_of_some hresult).mpr
            ⟨rfl, W.encodesString_of_isUnicode _ hunicode, fun _ _ heq => ?_⟩) ⟨?_, ?_⟩
          · cases heq
            exact hlength
          · exact fun other hother => honly other hother ▸ hrenders
          · exact fun result output houtput => absurd houtput (hnone result output)
      | inr h =>
          obtain ⟨hresult, hrenders⟩ := h
          exact iff_of_false (not_oneResult_of_none hresult) fun hall => hrenders (hall.1 exc hexc)
  | inr hreturns =>
      obtain ⟨object, output, houtput⟩ := hreturns
      have hattempt := attempt_of_returns htool houtput
      have hresult : toolResult s P W toolUse =
          some (.success toolUse.toolCallId output) := by
        rw [toolResult, hattempt]
      have hencodes : W.encodes (.success toolUse.toolCallId output) = true ↔
          ∀ s ∈ P.strings object, W.encodesString s = true := by
        obtain ⟨_, _, -, -, -, houtput, -⟩ := houtput
        exact encodes_success_iff W toolUse.toolCallId houtput
      rw [oneResult_of_some hresult]
      constructor
      · intro h
        refine ⟨fun exc hexc => ?_, fun object' output' houtput' => ?_⟩
        · cases hattempt.symm.trans (attempt_of_raises htool hexc)
        · rw [returned_unique houtput' houtput]
          exact hencodes.mp h.2.1
      · exact fun h => ⟨rfl, hencodes.mpr (h.2 object output houtput), nofun⟩

end Calls

/-- A `str`, or a `dict` by the strings in it. -/
inductive PlainObject where
  | str (s : PyStr)
  | dict (strings : List JsonString)

instance : JsonObject (List JsonString) where
  strings := id

def plainPython : Python PlainObject (List JsonString) where
  isBaseModel _ := false
  dumpWireModel _ := .ok []
  isDataclassInstance _ := false
  asdict := .ok
  asStr
    | .str s => some s
    | .dict _ => none
  isMapping
    | .str _ => false
    | .dict _ => true
  dict := .ok
  wrap
    | .str s => .dict [.key (ofText "result".toList), .value s]
    | .dict strings => .dict (.key (ofText "result".toList) :: strings)
  validatePython
    | .str _ => .error (valueError "dict_type".toList)
    | .dict strings => .ok strings
  typeName _ := []
  strings
    | .str s => [.value s]
    | .dict strings => strings
  strings_dumpWireModel _ _ h := by cases h
  asdict_dict _ _ _ h := by cases h
  strings_str
    | .str _, _, _, h => by cases h; rfl
    | .dict _, _, _, h => by cases h
  strings_dict _ _ _ _ h := by cases h; rfl
  strings_wrap
    | .str _ => rfl
    | .dict _ => rfl
  strings_validatePython
    | .str _, _, h => by cases h
    | .dict _, _, h => by cases h; rfl

/-- The wire of an encoder that writes UTF-8. -/
def unicodeWire {J : Type} : Wire J where
  checkOutput _ := none
  acceptsMessage message := isUnicode message && message.length ≤ toolErrorMessageMaxChars
  encodesString s := isUnicode s.text
  acceptsMessage_iff _ := by rw [Bool.and_eq_true, decide_eq_true_eq]
  encodesString_of_isUnicode _ h := h

theorem length_f : ['f'].length ≤ 64 := by decide

def callF : BridgeToolUseResponse := ⟨['c'], ['f'], some 0⟩

/-- A tool whose callable raises an exception with this text. -/
def failing (text : Option PyStr) (errorTransform : Option (PyException → Transformed)) :
    RegisteredToolCallable PlainObject where
  name := ['f']
  toolKwargs _ := .ok (.dict [])
  invoke _ := .error ⟨ofText "app".toList, ofText "E".toList, false, text⟩
  errorTransform := errorTransform
  name_length := length_f

def sdkWith (tool : RegisteredToolCallable PlainObject) : DualeAISDK PlainObject where
  tools := [(tool.name, tool)]
  keyed _ hmem := by rw [List.mem_singleton.mp hmem]

/-- An exception that `str` cannot render, one whose text holds a surrogate, and a
transform that returns a surrogate: there is no result at all. -/
theorem no_result :
    ¬ OneResult unicodeWire callF
        (executeToolUse (sdkWith (failing none none)) plainPython unicodeWire callF true) ∧
      ¬ OneResult unicodeWire callF
        (executeToolUse (sdkWith (failing (some [0xd800]) none)) plainPython unicodeWire callF
          true) ∧
      ¬ OneResult unicodeWire callF
        (executeToolUse (sdkWith (failing (some []) (some fun _ => .returned (some [0xd800]))))
          plainPython unicodeWire callF true) :=
  ⟨not_oneResult_of_none rfl, not_oneResult_of_none rfl, not_oneResult_of_none rfl⟩

/-- A tool whose callable returns a string. -/
def returning (output : PyStr) : RegisteredToolCallable PlainObject where
  name := ['f']
  toolKwargs _ := .ok (.dict [])
  invoke _ := .ok (.str output)
  errorTransform := none
  name_length := length_f

/-- Where the transform raises too, there is still the generic message; and a string of valid
Unicode is an output that is encoded. -/
theorem one_result_redacted :
    OneResult unicodeWire callF
        (executeToolUse (sdkWith (failing none (some fun _ => .raised))) plainPython unicodeWire
          callF true) ∧
      OneResult unicodeWire callF
        (executeToolUse (sdkWith (returning (ofText "ok".toList))) plainPython unicodeWire callF
          true) := by
  constructor
  · refine (one_result_iff _ plainPython unicodeWire (failing none (some fun _ => .raised)) callF
      rfl).mpr ⟨fun exc _ rendered h => ?_, fun result output houtput => ?_⟩
    · cases h
    · obtain ⟨_, _, -, -, hinvoke, -⟩ := houtput
      cases hinvoke
  · refine (one_result_iff _ plainPython unicodeWire (returning (ofText "ok".toList)) callF
      rfl).mpr ⟨fun exc hexc => ?_, fun result output houtput s hs => ?_⟩
    · have hattempt : attempt (sdkWith (returning (ofText "ok".toList))) plainPython unicodeWire
          callF = .ok (.success callF.toolCallId (.str (ofText "ok".toList))) := rfl
      cases hattempt.symm.trans (attempt_of_raises rfl hexc)
    · obtain ⟨_, _, -, -, hinvoke, -⟩ := houtput
      cases hinvoke
      cases List.mem_singleton.mp hs
      exact isUnicode_ofText _

end DualeAI.ToolResult
