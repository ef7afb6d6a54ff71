import DualeAI.Events.Bridge

/-!
`AgentResponse.model` on a completed task, and what its errors carry.

The expected type is the customer's: what its validators and its instance check do
with a result is part of it, and a validator may raise what it likes. An error is
what it is rendered from; `str` of a `dict`, `repr` of a value and `str` of a
Pydantic error are parameters.
-/
namespace DualeAI.Result
open Foundation

/-! ## Results -/

structure LLMResult where
  completion : Option Text
  validatedData : Option (List (Text × Json))
  /-- The fields that are only passed on. -/
  rest : List (Text × Json)

inductive Value where
  | json (value : Json)
  | llm (result : LLMResult)

def extractResult : Value → Value
  | .json value => .json value
  | .llm result =>
      match result.validatedData with
      | some data => .json (.obj data)
      | none =>
          match result.completion with
          | some completion => .json (.str completion)
          | none => .llm result

inductive PyType where
  | none
  | bool
  | int
  | float
  | str
  | list
  | dict
  | llmResult

def pyType : Value → PyType
  | .json .null => .none
  | .json (.bool _) => .bool
  | .json (.int _) => .int
  | .json (.float _) => .float
  | .json (.str _) => .str
  | .json (.arr _) => .list
  | .json (.obj _) => .dict
  | .llm _ => .llmResult

/-- `type(obj).__name__`, and `"None"` for `None`. -/
def getTypeName (value : Value) : Text :=
  match pyType value with
  | .none => "None".toList
  | .bool => "bool".toList
  | .int => "int".toList
  | .float => "float".toList
  | .str => "str".toList
  | .list => "list".toList
  | .dict => "dict".toList
  | .llmResult => "LLMResult".toList

/-! ## Errors -/

structure LineError where
  loc : List Text
  rule : Text
  input : Value

structure PydanticError where
  title : Text
  errors : List LineError

/-- The places that were rejected, and the rules that rejected them. -/
def PydanticError.places (e : PydanticError) : List (List Text × Text) :=
  e.errors.map fun line => (line.loc, line.rule)

inductive ContextValue where
  | text (t : Text)
  | result (value : Value)

/-- The fields of an `ErrorContext` that are set; `extra` are those it does not declare. -/
structure ErrorContext where
  expectedType : Text
  extra : List (Text × ContextValue)

/-- A raised exception; `pydantic` is a `ValueError`, and `validation` is the SDK's
`ValidationError`. -/
inductive PyError where
  | pydantic (e : PydanticError)
  | valueError (text : Text)
  | typeError (text : Text)
  | attributeError (text : Text)
  | other (className text : Text)
  | validation (message : Text) (context : ErrorContext)

def PyError.isValueError : PyError → Bool
  | .pydantic _ | .valueError _ => true
  | _ => false

def PyError.isTypeError : PyError → Bool
  | .typeError _ => true
  | _ => false

def PyError.isAttributeError : PyError → Bool
  | .attributeError _ => true
  | _ => false

/-- What `model()` catches to fall back on `_validate_basic_type`. -/
def PyError.fallsBack : PyError → Bool
  | .validation _ _ | .attributeError _ => true
  | _ => false

structure Rendering where
  strDict : List (Text × Json) → Text
  reprText : Text → Text
  reprValue : Value → Text
  strPydantic : PydanticError → Text

def ContextValue.isNone : ContextValue → Bool
  | .result (.json .null) => true
  | _ => false

section Render
variable (R : Rendering)

def reprContextValue : ContextValue → Text
  | .text t => R.reprText t
  | .result value => R.reprValue value

/-- `metadata` is the one declared field with a default other than `None`. -/
def contextStr (context : ErrorContext) : Text :=
  ", ".toList.intercalate
    (("expected_type=".toList ++ R.reprText context.expectedType) :: "metadata={}".toList ::
      (context.extra.filter fun field => !field.2.isNone).map fun field =>
        field.1 ++ '=' :: reprContextValue R field.2)

/-- `str` of the exception. -/
def PyError.text : PyError → Text
  | .pydantic e => R.strPydantic e
  | .valueError text | .typeError text | .attributeError text | .other _ text => text
  | .validation message context =>
      message ++ " (context: ".toList ++ contextStr R context ++ [')']

def PyError.context : PyError → Option ErrorContext
  | .validation _ context => some context
  | _ => none

end Render

/-! ## Expected types -/

inductive Scalar where
  | int
  | float
  | str
  | bool
deriving DecidableEq

/-- By `issubclass(expected_type, BaseModel)`. -/
inductive Kind where
  /-- A union, for one. -/
  | raising (e : PyError)
  | model
  | scalar (s : Scalar)
  /-- Another class, or a parametrised one like `list[int]`. -/
  | plain

/-- What `model_validate` returned. -/
structure Validated (V : Type) where
  value : V
  typeName : Text
  isExpected : Bool

structure ExpectedType (V : Type) where
  name : Text
  kind : Kind
  modelValidate : Value → Except PyError (Validated V)
  modelValidateJson : Text → Except PyError (Validated V)
  isInstance : Value → Except PyError Bool
  /-- `TypeAdapter(expected_type).validate_python`. -/
  adapterValidate : Value → Except PyError V

section Model
variable {V : Type} (R : Rendering) (E : ExpectedType V)

def validationError (result : Value) (error : PyError) : PyError :=
  .validation ("Result validation failed for type ".toList ++ E.name)
    ⟨E.name, [("result_type".toList, .text (getTypeName result)),
      ("validation_error".toList, .text (error.text R))]⟩

def conversionError (result : Value) (e : PyError) : PyError :=
  .validation ("Type conversion failed: ".toList ++ e.text R)
    ⟨E.name, [("result".toList, .result result), ("conversion_error".toList, .text (e.text R))]⟩

def mismatchError (result : Value) : PyError :=
  .validation ("Result type mismatch: expected ".toList ++ E.name ++ ", got ".toList ++
      getTypeName result)
    ⟨E.name,
      [("actual_type".toList, .text (getTypeName result)), ("result".toList, .result result)]⟩

def checkInstance (validated : Validated V) : Except PyError V :=
  if validated.isExpected then .ok validated.value
  else
    .error (.typeError ("Pydantic returned ".toList ++ validated.typeName ++
      ", expected ".toList ++ E.name))

def tryJsonValidation (result : Text) (originalError : PyError) : Except PyError V :=
  match E.modelValidateJson result >>= checkInstance E with
  | .ok value => .ok value
  | .error e =>
      if e.isValueError || e.isAttributeError then
        .error (validationError R E (.json (.str result)) originalError)
      else .error e

def notPydanticModel : PyError :=
  .attributeError ("Type ".toList ++ E.name ++ " is not a Pydantic model".toList)

def validatePydanticModel (result : Value) : Except PyError V :=
  match E.kind with
  | .raising e => .error e
  | .scalar _ | .plain => .error (notPydanticModel E)
  | .model =>
      match E.modelValidate result >>= checkInstance E with
      | .ok value => .ok value
      | .error e =>
          if e.isAttributeError then .error e
          else
            match result with
            | .json (.str text) => tryJsonValidation R E text e
            | _ => .error (validationError R E result e)

/-- `isinstance(result, int | float | str | bool | dict)`. -/
def isScalarOrDict (result : Value) : Bool :=
  match pyType result with
  | .int | .float | .str | .bool | .dict => true
  | .none | .list | .llmResult => false

def convertDict (s : Scalar) : Value → Value
  | .json (.obj fields) =>
      if s = .bool then .json (.bool (!fields.isEmpty)) else .json (.str (R.strDict fields))
  | result => result

def convertScalar (s : Scalar) (result : Value) : Except PyError V :=
  match E.adapterValidate (convertDict R s result) with
  | .ok value => .ok value
  | .error e =>
      if e.isValueError || e.isTypeError then
        .error (conversionError R E (convertDict R s result) e)
      else .error e

def validateInstance (result : Value) : Except PyError V := do
  if ← E.isInstance result then E.adapterValidate result else throw (mismatchError E result)

def validateBasicType (result : Value) : Except PyError V :=
  match E.kind with
  | .scalar s =>
      if isScalarOrDict result then convertScalar R E s result else validateInstance E result
  | _ => validateInstance E result

/-- `model()` with an expected type, once the task has completed. -/
def model (taskResult : Value) : Except PyError V :=
  let result := extractResult taskResult
  match validatePydanticModel R E result with
  | .ok value => .ok value
  | .error e => if e.fallsBack then validateBasicType R E result else .error e

end Model

/-! ## What an error shows -/

section Leak
variable {V : Type} (R : Rendering) (E : ExpectedType V)

/-- Both are rejected by Pydantic, at the same places for the same rules. -/
def RejectAlike {α : Type} (x y : Except PyError α) : Prop :=
  ∃ e f, x = .error (.pydantic e) ∧ y = .error (.pydantic f) ∧ e.places = f.places

/-- Where the result is converted to a scalar rather than checked for its class. -/
def scalarOf (r : Value) : Option Scalar :=
  match E.kind with
  | .scalar s => if isScalarOrDict r then some s else none
  | _ => none

/-- What `issubclass` raises, where nothing is checked after it. -/
def ExpectedType.refusal : Option PyError :=
  match E.kind with
  | .raising e => if e.fallsBack then none else some e
  | _ => none

/-- Two results of one Python type that every validator and the instance check of the
expected type reject in the same way. -/
structure SameRejection (r s : Value) : Prop where
  type : pyType r = pyType s
  model : E.kind = .model → RejectAlike (E.modelValidate r) (E.modelValidate s)
  json : E.kind = .model → ∀ t u, r = .json (.str t) → s = .json (.str u) →
    RejectAlike (E.modelValidateJson t) (E.modelValidateJson u)
  scalar : ∀ sc, scalarOf E r = some sc →
    RejectAlike (E.adapterValidate (convertDict R sc r)) (E.adapterValidate (convertDict R sc s))
  class' : E.refusal = none → scalarOf E r = none →
    E.isInstance r = .ok false ∧ E.isInstance s = .ok false ∨
      E.isInstance r = .ok true ∧ E.isInstance s = .ok true ∧
        RejectAlike (E.adapterValidate r) (E.adapterValidate s) ∨
      ∃ e f, E.isInstance r = .error e ∧ E.isInstance s = .error f

/-- The calls raise errors of one text and one context. -/
def SameError (x y : Except PyError V) : Prop :=
  ∃ e f, x = .error e ∧ y = .error f ∧ e.text R = f.text R ∧ e.context = f.context

inductive Shown where
  | nothing
  | result (value : Value)
  | raised (text : Text) (context : Option ErrorContext)

/-- What the error raised for a rejected result shows of it: the result as it was
converted, the result, or what the error of the adapter or of the instance check says. -/
def shown (r : Value) : Shown :=
  match E.refusal with
  | some _ => .nothing
  | none =>
      match scalarOf E r with
      | some sc => .result (convertDict R sc r)
      | none =>
          match E.isInstance r with
          | .ok false => .result r
          | .ok true =>
              match E.adapterValidate r with
              | .error e => .raised (e.text R) e.context
              | .ok _ => .nothing
          | .error e => .raised (e.text R) e.context

variable {R E}

theorem scalarOf_of_type {r s : Value} (h : pyType r = pyType s) : scalarOf E r = scalarOf E s := by
  rw [scalarOf, scalarOf, isScalarOrDict, isScalarOrDict, h]

theorem str_of_type {t : Text} {s : Value} (h : pyType (.json (.str t)) = pyType s) :
    ∃ u, s = .json (.str u) := by
  cases s with
  | llm result => cases h
  | json value =>
      cases value with
      | str u => exact ⟨u, rfl⟩
      | null | bool _ | int _ | float _ | arr _ | obj _ => cases h

/-- Whatever rejects a result, the last word is `_validate_basic_type`'s. -/
theorem model_eq_validateBasicType {x : Value} (hkind : E.refusal = none)
    (hmodel : E.kind = .model → ∃ e, E.modelValidate (extractResult x) = .error (.pydantic e))
    (hjson : E.kind = .model → ∀ t, extractResult x = .json (.str t) →
      ∃ e, E.modelValidateJson t = .error (.pydantic e)) :
    model R E x = validateBasicType R E (extractResult x) := by
  have hfalls : ∃ e, validatePydanticModel R E (extractResult x) = .error e ∧
      e.fallsBack = true := by
    rw [validatePydanticModel]
    cases hk : E.kind with
    | raising e =>
        refine ⟨e, rfl, ?_⟩
        by_contra hstays
        simp [ExpectedType.refusal, hk, hstays] at hkind
    | scalar _ | plain => exact ⟨_, rfl, rfl⟩
    | model =>
        obtain ⟨e, he⟩ := hmodel hk
        simp only [he]
        cases hr : extractResult x with
        | llm result => exact ⟨_, rfl, rfl⟩
        | json value =>
            cases value with
            | str t =>
                obtain ⟨f, hf⟩ := hjson hk t hr
                refine ⟨validationError R E (.json (.str t)) (.pydantic e), ?_, rfl⟩
                simp only [tryJsonValidation, hf]
                rfl
            | null | bool _ | int _ | float _ | arr _ | obj _ => exact ⟨_, rfl, rfl⟩
  obtain ⟨e, he, hfallsBack⟩ := hfalls
  simp only [model, he, hfallsBack, if_true]

theorem SameRejection.symm {r s : Value} (h : SameRejection R E r s) : SameRejection R E s r := by
  have hswap {α : Type} {x y : Except PyError α} (h : RejectAlike x y) : RejectAlike y x := by
    obtain ⟨e, f, he, hf, hplaces⟩ := h
    exact ⟨f, e, hf, he, hplaces.symm⟩
  have hscalar := scalarOf_of_type (E := E) h.type
  refine ⟨h.type.symm, fun hk => hswap (h.model hk),
    fun hk t u ht hu => hswap (h.json hk u t hu ht),
    fun sc hsc => hswap (h.scalar sc (hscalar.trans hsc)), fun hk hnone => ?_⟩
  rcases h.class' hk (hscalar.trans hnone) with ⟨hr, hs⟩ | ⟨hr, hs, halike⟩ | ⟨e, f, hr, hs⟩
  · exact .inl ⟨hs, hr⟩
  · exact .inr (.inl ⟨hs, hr, hswap halike⟩)
  · exact .inr (.inr ⟨f, e, hs, hr⟩)

theorem SameRejection.model_eq {x y : Value}
    (h : SameRejection R E (extractResult x) (extractResult y)) (hkind : E.refusal = none) :
    Result.model R E x = validateBasicType R E (extractResult x) := by
  refine model_eq_validateBasicType hkind (fun hk => ?_) (fun hk t ht => ?_)
  · obtain ⟨e, -, he, -⟩ := h.model hk
    exact ⟨e, he⟩
  · obtain ⟨u, hu⟩ := str_of_type (ht ▸ h.type)
    obtain ⟨e, -, he, -⟩ := h.json hk t u ht hu
    exact ⟨e, he⟩

theorem validateBasicType_eq (r : Value) :
    validateBasicType R E r =
      match scalarOf E r with
      | some sc => convertScalar R E sc r
      | none => validateInstance E r := by
  unfold scalarOf validateBasicType
  cases E.kind with
  | scalar sc => cases isScalarOrDict r <;> rfl
  | raising _ | model | plain => rfl

theorem sameError_error {e f : PyError} :
    SameError R (.error e : Except PyError V) (.error f) ↔
      e.text R = f.text R ∧ e.context = f.context := by
  constructor
  · rintro ⟨_, _, he, hf, hsame⟩
    cases he
    cases hf
    exact hsame
  · exact fun hsame => ⟨e, f, rfl, rfl, hsame⟩

theorem convertScalar_same {r s : Value} {sc : Scalar} (h : SameRejection R E r s)
    (hsc : scalarOf E r = some sc) :
    SameError R (convertScalar R E sc r) (convertScalar R E sc s) ↔
      convertDict R sc r = convertDict R sc s := by
  obtain ⟨e, f, he, hf, -⟩ := h.scalar sc hsc
  have hr : convertScalar R E sc r =
      .error (conversionError R E (convertDict R sc r) (.pydantic e)) := by
    simp only [convertScalar, he]
    rfl
  have hs : convertScalar R E sc s =
      .error (conversionError R E (convertDict R sc s) (.pydantic f)) := by
    simp only [convertScalar, hf]
    rfl
  constructor
  · intro hsame
    rw [hr, hs, sameError_error] at hsame
    simp only [conversionError, PyError.context, Option.some.injEq, ErrorContext.mk.injEq,
      List.cons.injEq, Prod.mk.injEq, ContextValue.result.injEq] at hsame
    exact hsame.2.2.1.2
  · intro hsame
    rw [convertScalar, convertScalar, hsame]
    rw [convertScalar] at hs
    exact ⟨_, _, hs, hs, rfl, rfl⟩

theorem validateInstance_mismatch {r : Value} (h : E.isInstance r = .ok false) :
    validateInstance E r = .error (mismatchError E r) := by
  simp only [validateInstance, h]
  rfl

theorem validateInstance_adapter {r : Value} (h : E.isInstance r = .ok true) :
    validateInstance E r = E.adapterValidate r := by
  simp only [validateInstance, h]
  rfl

theorem validateInstance_raised {r : Value} {e : PyError} (h : E.isInstance r = .error e) :
    validateInstance E r = .error e := by
  simp only [validateInstance, h]
  rfl

theorem mismatch_same {r s : Value} :
    SameError R (.error (mismatchError E r) : Except PyError V) (.error (mismatchError E s)) ↔
      r = s := by
  constructor
  · intro hsame
    rw [sameError_error] at hsame
    simp only [mismatchError, PyError.context, Option.some.injEq, ErrorContext.mk.injEq,
      List.cons.injEq, Prod.mk.injEq, ContextValue.result.injEq] at hsame
    exact hsame.2.2.2.1.2
  · rintro rfl
    exact sameError_error.mpr ⟨rfl, rfl⟩

end Leak

/-! ## Leaks -/

def completion (t : Text) : Value := .llm ⟨some t, none, []⟩

def reprStr (t : Text) : Text := '\'' :: (t ++ ['\''])

/-- As Python shows texts without quotes and escapes, and Pydantic one error. -/
def pythonRendering : Rendering where
  strDict _ := "{}".toList
  reprText := reprStr
  reprValue
    | .json (.str t) => reprStr t
    | _ => []
  strPydantic e := "1 validation error for ".toList ++ e.title

def intRejects (rule : String) (input : Value) : Except PyError Int :=
  .error (.pydantic ⟨"int".toList, [⟨[], rule.toList, input⟩]⟩)

/-- `int`, for texts of digits. -/
def intType : ExpectedType Int where
  name := "int".toList
  kind := .scalar .int
  modelValidate _ := .error (.attributeError "model_validate".toList)
  modelValidateJson _ := .error (.attributeError "model_validate_json".toList)
  isInstance
    | .json (.int _) | .json (.bool _) => .ok true
    | _ => .ok false
  adapterValidate
    | .json (.int n) => .ok n
    | .json (.str t) =>
        if t.isEmpty || !t.all Char.isDigit then intRejects "int_parsing" (.json (.str t))
        else .ok (t.foldl (fun n c => 10 * n + (c.toNat - 48)) 0)
    | r => intRejects "int_type" r

/-- Two texts that are no numbers. -/
theorem model_leaks :
    ¬ ∀ x y, SameRejection pythonRendering intType (extractResult x) (extractResult y) →
      SameError pythonRendering (model pythonRendering intType x)
        (model pythonRendering intType y) := by
  intro h
  have hrejected : SameRejection pythonRendering intType (extractResult (completion "abc".toList))
      (extractResult (completion "xyz".toList)) := by
    refine ⟨rfl, nofun, nofun, ?_, fun _ hnone => nomatch hnone⟩
    rintro sc ⟨⟩
    exact ⟨_, _, rfl, rfl, rfl⟩
  have hsame := h _ _ hrejected
  rw [hrejected.model_eq rfl, hrejected.symm.model_eq rfl, validateBasicType_eq,
    validateBasicType_eq] at hsame
  cases (convertScalar_same hrejected rfl).mp hsame

section Agreement
variable {V : Type} {R : Rendering} {E : ExpectedType V}

/-- The errors for two results that are rejected alike agree just where what they show
of the results does. -/
theorem model_errors_agree_iff {x y : Value}
    (h : SameRejection R E (extractResult x) (extractResult y)) :
    SameError R (model R E x) (model R E y) ↔
      shown R E (extractResult x) = shown R E (extractResult y) := by
  cases hrefusal : E.refusal with
  | some e =>
      have hraises (z : Value) : Result.model R E z = .error e := by
        rw [ExpectedType.refusal] at hrefusal
        split at hrefusal
        · next raised hk =>
            split at hrefusal
            · cases hrefusal
            · next hstays =>
                cases hrefusal
                simp [Result.model, validatePydanticModel, hk, hstays]
        · cases hrefusal
      simp only [hraises, shown, hrefusal]
      exact iff_of_true ⟨_, _, rfl, rfl, rfl, rfl⟩ trivial
  | none =>
      have hscalar := scalarOf_of_type (E := E) h.type
      rw [h.model_eq hrefusal, h.symm.model_eq hrefusal, validateBasicType_eq,
        validateBasicType_eq]
      simp only [shown, hrefusal]
      rw [← hscalar]
      cases hsc : scalarOf E (extractResult x) with
      | some sc =>
          dsimp only
          rw [convertScalar_same h hsc, Shown.result.injEq]
      | none =>
          dsimp only
          rcases h.class' hrefusal hsc with
            ⟨hr, hs⟩ | ⟨hr, hs, e, f, he, hf, -⟩ | ⟨e, f, hr, hs⟩
          · rw [validateInstance_mismatch hr, validateInstance_mismatch hs, mismatch_same]
            simp only [hr, hs, Shown.result.injEq]
          · rw [validateInstance_adapter hr, validateInstance_adapter hs, he, hf, sameError_error]
            simp only [hr, hs, Shown.raised.injEq]
          · rw [validateInstance_raised hr, validateInstance_raised hs, sameError_error]
            simp only [hr, hs, Shown.raised.injEq]

end Agreement

/-- A task result with this completion and the model that gave it. -/
def completionBy (model t : Text) : Value :=
  .llm ⟨some t, none, [("model".toList, .str model)]⟩

/-- Two results whose fields differ but that show the same completion, for `int`. -/
theorem model_errors_agree_int :
    SameError pythonRendering
      (model pythonRendering intType (completionBy "small".toList "abc".toList))
      (model pythonRendering intType (completionBy "large".toList "abc".toList)) := by
  refine (model_errors_agree_iff ?_).mpr rfl
  refine ⟨rfl, ?_, ?_, ?_, ?_⟩
  · intro hmodel
    cases hmodel
  · intro hmodel
    cases hmodel
  · intro sc hsc
    cases hsc
    exact ⟨_, _, rfl, rfl, rfl⟩
  · intro _ hnone
    cases hnone

end DualeAI.Result
