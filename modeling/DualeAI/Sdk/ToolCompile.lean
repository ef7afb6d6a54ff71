import DualeAI.Events.Bridge
import DualeAI.Foundation.Dict
import DualeAI.Foundation.Indexed
import DualeAI.Foundation.KeySort
import DualeAI.Foundation.Procedure
import DualeAI.Sdk.ToolContract
import Mathlib.Data.Char
import Mathlib.Data.List.Lex

/-!
The contract of a registered tool: `register_tool`, `_compile_tool_callable` and
`tool_kwargs`, against the way Python binds the keywords of a call.

`createModel` is `pydantic.create_model` under the configuration given here, `satisfies` the
strict validation of a default, `isReserved` whether `BaseModel` has an attribute of that
name and `toolParameters` what the wire's schema of a model is. Annotations and defaults have
identities, of the types `ι` and `κ`, and schemas are of the type `π`.
-/
namespace DualeAI.ToolCompile
open Foundation
open ToolContract (PyObject Annotation containsNonFiniteNumber containsUnboundTypevar
  hasTypeVarParameter)

/-! ## Signatures and calls -/

inductive ParameterKind where
  | positionalOnly
  | positionalOrKeyword
  | varPositional
  | keywordOnly
  | varKeyword
deriving DecidableEq

structure Parameter (ι κ : Type) where
  name : Text
  kind : ParameterKind
  /-- What `get_type_hints` has for it, or its own. -/
  hint : Option ι
  default : Option κ

structure Signature (ι κ : Type) where
  parameters : List (Parameter ι κ)
  distinct : (parameters.map Parameter.name).Nodup

inductive BindError where
  | unexpectedKeyword (name : Text)
  | missing (names : List Text)

section Binding
variable {ι κ ν : Type}

def Parameter.takesKeyword (p : Parameter ι κ) : Bool :=
  p.kind == .positionalOrKeyword || p.kind == .keywordOnly

def Parameter.isVariadic (p : Parameter ι κ) : Bool :=
  p.kind == .varPositional || p.kind == .varKeyword

def Signature.accepts (sig : Signature ι κ) (name : Text) : Bool :=
  sig.parameters.any fun p => p.takesKeyword && p.name == name || p.kind == .varKeyword

/-- Nothing is given for the parameter, and it has no default. -/
def Parameter.lacks (kwargs : List (Text × ν)) (p : Parameter ι κ) : Bool :=
  !p.isVariadic && p.default.isNone && !(p.takesKeyword && (kwargs.lookup p.name).isSome)

/-- The arguments of `func(**kwargs)`, none for a default. -/
def bind (sig : Signature ι κ) (kwargs : List (Text × ν)) :
    Except BindError (List (Text × Option ν)) :=
  match kwargs.find? fun kw => !sig.accepts kw.1 with
  | some kw => .error (.unexpectedKeyword kw.1)
  | none =>
      let missing := (sig.parameters.filter (Parameter.lacks kwargs)).map Parameter.name
      if missing = [] then .ok (sig.parameters.map fun p => (p.name, kwargs.lookup p.name))
      else .error (.missing missing)

/-- A call whose keywords are names of parameters, with all that have no default. -/
theorem bind_ok {sig : Signature ι κ} {kwargs : List (Text × ν)}
    (hknown : ∀ kw ∈ kwargs, ∃ p ∈ sig.parameters, p.takesKeyword = true ∧ p.name = kw.1)
    (hgiven : ∀ p ∈ sig.parameters, p.default = none →
      p.takesKeyword = true ∧ p.name ∈ kwargs.map Prod.fst) :
    ∃ arguments, bind sig kwargs = .ok arguments := by
  have haccepted : kwargs.find? (fun kw => !sig.accepts kw.1) = none := by
    rw [List.find?_eq_none]
    intro kw hmem
    obtain ⟨p, hp, htakes, hname⟩ := hknown kw hmem
    have haccepts : sig.accepts kw.1 = true :=
      List.any_eq_true.mpr ⟨p, hp, by simp [htakes, hname]⟩
    simp [haccepts]
  have hlacks : sig.parameters.filter (Parameter.lacks kwargs) = [] := by
    rw [List.filter_eq_nil_iff]
    intro p hp
    cases hdefault : p.default with
    | some default => simp [Parameter.lacks, hdefault]
    | none =>
        obtain ⟨htakes, hmem⟩ := hgiven p hp hdefault
        have hsome : (kwargs.lookup p.name).isSome = true := by
          by_contra hnone
          exact Dict.notMem_keys (Option.not_isSome_iff_eq_none.mp hnone) hmem
        simp [Parameter.lacks, htakes, hsome]
  refine ⟨sig.parameters.map fun p => (p.name, kwargs.lookup p.name), ?_⟩
  simp only [bind, haccepted, hlacks, List.map_nil, if_true]

end Binding

/-! ## The parameter model -/

inductive Alias where
  | name (text : Text)
  /-- `AliasPath` or `AliasChoices`. -/
  | path

structure FieldInfo where
  aliasName : Option Text := none
  validationAlias : Option Alias := none

structure ErrorDetails where
  /-- `type`, and the first part of `loc`. -/
  type : Text
  location : Option Text
  msg : Option Text

/-- A validated model; `get` is `getattr`. -/
structure Validated (ν : Type) where
  fieldsSet : List Text
  get : Text → ν

/-- The part of a model class that the contract uses; `validateJson` is
`model_validate_json` in strict mode, on the object that the payload is the text of. -/
structure ParametersModel (ν : Type) where
  modelFields : List (Text × FieldInfo)
  validateJson : List (Text × Json) → Except (List ErrorDetails) (Validated ν)

/-- A parameter with its annotation and its default, none for `...`. -/
abbrev Field (ι κ : Type) := Text × ι × Option κ

/-- `TypeError`, and whatever `create_model` and the making of the schema raise. -/
inductive CompileError where
  | variadic
  | positionalOnly
  | unannotated (parameterName : Text)
  | unboundTypeVar (parameterName : Text)
  | invalidDefault (parameterName : Text)
  | nonFiniteDefault (parameterName : Text)
  | reserved (names : List Text)
  | createModel (error : Exc)
  | schema (error : Exc)
  | dropped (names : List Text)
  | multiPathAlias (parameterName : Text)
  | aliasesCollide (aliases : List Text)

/-- `_wire_input_name`. -/
def wireInputName (parameterName : Text) (field : FieldInfo) : Except CompileError Text :=
  match field.validationAlias with
  | some (.name text) => .ok text
  | some .path => .error (.multiPathAlias parameterName)
  | none => .ok (field.aliasName.getD parameterName)

/-- What more than one of the aliases is. -/
def duplicates (aliases : List Text) : List Text :=
  sortBy id (aliases.dedup.filter fun text => 1 < aliases.count text)

theorem duplicates_eq_nil {aliases : List Text} : duplicates aliases = [] ↔ aliases.Nodup := by
  have hperm := sortBy_perm id (aliases.dedup.filter fun text => 1 < aliases.count text)
  constructor
  · intro h
    rw [List.nodup_iff_count_le_one]
    intro text
    by_contra hmore
    have hmem : text ∈ aliases.dedup.filter fun text => 1 < aliases.count text :=
      List.mem_filter.mpr ⟨List.mem_dedup.mpr (List.count_pos_iff.mp (by omega)),
        decide_eq_true (by omega)⟩
    rw [duplicates] at h
    exact List.not_mem_nil (h ▸ hperm.mem_iff.mpr hmem)
  · intro h
    rw [List.eq_nil_iff_forall_not_mem]
    intro text hmem
    have hcount := of_decide_eq_true (List.mem_filter.mp (hperm.mem_iff.mp hmem)).2
    exact absurd hcount (Nat.not_lt.mpr (List.nodup_iff_count_le_one.mp h text))

/-- `_CompiledToolCallable`. -/
structure CompiledToolCallable (π ν : Type) where
  /-- `ToolParameters`. -/
  parameters : π
  model : ParametersModel ν
  parameterNames : List Text
  aliases : List (Text × Text)
  distinct : (aliases.map Prod.snd).Nodup

section Compile
variable {ι κ π ν : Type} [Fintype ι] [DecidableEq ι] [Fintype κ] [DecidableEq κ]
  (annotations : ι → Annotation ι) (values : κ → PyObject κ) (satisfies : ι → κ → Bool)
  (isReserved : Text → Bool)
  (createModel : List (Field ι κ) → Except Exc (ParametersModel ν))
  (toolParameters : ParametersModel ν → Except Exc π)

def validateCallableDefault (parameterName : Text) (expected : ι) (default : κ) :
    Except CompileError Unit :=
  if satisfies expected default then
    if containsNonFiniteNumber values default ∅ then .error (.nonFiniteDefault parameterName)
    else .ok ()
  else .error (.invalidDefault parameterName)

/-- The loop's body in `_compile_tool_callable`. -/
def field (p : Parameter ι κ) : Except CompileError (Field ι κ) :=
  match p.kind with
  | .varPositional | .varKeyword => .error .variadic
  | .positionalOnly => .error .positionalOnly
  | .positionalOrKeyword | .keywordOnly =>
      match p.hint with
      | none => .error (.unannotated p.name)
      | some expected =>
          if containsUnboundTypevar annotations expected ∅ then .error (.unboundTypeVar p.name)
          else
            match p.default with
            | none => .ok (p.name, expected, none)
            | some default => do
                validateCallableDefault values satisfies p.name expected default
                .ok (p.name, expected, some default)

def compileToolCallable (sig : Signature ι κ) :
    Except CompileError (CompiledToolCallable π ν) := do
  let fields ← sig.parameters.mapM (field annotations values satisfies)
  let names := fields.map Prod.fst
  let reservedNames := sortBy id (names.filter isReserved)
  if reservedNames ≠ [] then .error (.reserved reservedNames)
  else
    let model ← (createModel fields).mapError .createModel
    let dropped := names.filter fun name => !(model.modelFields.map Prod.fst).contains name
    if dropped ≠ [] then .error (.dropped dropped)
    else
      let aliases ← model.modelFields.mapM fun entry =>
        (wireInputName entry.1 entry.2).map (Prod.mk entry.1)
      if h : duplicates (aliases.map Prod.snd) = [] then do
        let parameters ← (toolParameters model).mapError .schema
        .ok ⟨parameters, model, sig.parameters.map Parameter.name, aliases,
          duplicates_eq_nil.mp h⟩
      else .error (.aliasesCollide (duplicates (aliases.map Prod.snd)))

end Compile

/-- `ValueError`, by the message it has. -/
inductive InputError where
  | unexpected (names : List Text)
  | missing (parameterName : Text)
  | invalid (parameterName : Text) (msg : Text)

namespace CompiledToolCallable
variable {π ν : Type}

/-- The parameter that a validation error is about, by its wire name. -/
def parameterNamed (compiled : CompiledToolCallable π ν) (inputName : Text) : Text :=
  ((compiled.aliases.find? fun entry => entry.2 == inputName).map Prod.fst).getD inputName

def inputError (compiled : CompiledToolCallable π ν) (errors : List ErrorDetails) : InputError :=
  let first := errors.head?
  let inputName := (first.bind ErrorDetails.location).getD "<input>".toList
  let parameterName := compiled.parameterNamed inputName
  if first.map ErrorDetails.type = some "missing".toList then .missing parameterName
  else .invalid parameterName ((first.bind ErrorDetails.msg).getD "invalid value".toList)

def toolKwargs (compiled : CompiledToolCallable π ν) (input : List (Text × Json)) :
    Except InputError (List (Text × ν)) :=
  let acceptedNames := compiled.aliases.map Prod.snd
  let unexpectedNames :=
    sortBy id ((input.map Prod.fst).filter fun name => !acceptedNames.contains name)
  if unexpectedNames ≠ [] then .error (.unexpected unexpectedNames)
  else
    match compiled.model.validateJson input with
    | .error errors => .error (compiled.inputError errors)
    | .ok validated =>
        .ok ((compiled.parameterNames.filter validated.fieldsSet.contains).map fun name =>
          (name, validated.get name))

end CompiledToolCallable

/-! ## What is documented of models -/

/-- The property of the input that a field is read from. -/
def FieldInfo.key (name : Text) (field : FieldInfo) : Option Text :=
  match field.validationAlias with
  | some (.name text) => some text
  | some .path => none
  | none => some (field.aliasName.getD name)

/-- `hasDefault` is for the annotations with a default that `...` leaves in force: those whose
`Field` has a `default_factory`. -/
structure Documented {ι κ ν : Type} (hasDefault : ι → Bool)
    (createModel : List (Field ι κ) → Except Exc (ParametersModel ν)) : Prop where
  /-- The fields of a model are those it was made of, without the private ones. -/
  fields : ∀ fields model, createModel fields = .ok model →
    (model.modelFields.map Prod.fst).Sublist (fields.map Prod.fst)
  /-- A field that was given `...` for an annotation without a default is required. -/
  required : ∀ fields model input validated, createModel fields = .ok model →
    model.validateJson input = .ok validated → ∀ name expected field key,
      (name, expected, none) ∈ fields → hasDefault expected = false →
        (name, field) ∈ model.modelFields → field.key name = some key →
          key ∈ input.map Prod.fst
  /-- A field is set if the input has its key. -/
  fieldsSet : ∀ fields model input validated, createModel fields = .ok model →
    model.validateJson input = .ok validated → ∀ name field key,
      (name, field) ∈ model.modelFields → field.key name = some key →
        (name ∈ validated.fieldsSet ↔ key ∈ input.map Prod.fst)

/-! ## Accepted input -/

/-- No parameter has a default in its annotation only. -/
def Signature.DefaultsDeclared {ι κ : Type} (hasDefault : ι → Bool) (sig : Signature ι κ) :
    Prop :=
  ∀ p ∈ sig.parameters, p.default = none → ∀ expected, p.hint = some expected →
    hasDefault expected = false

section Accepted
variable {ι κ π ν : Type} [Fintype ι] [DecidableEq ι] [Fintype κ] [DecidableEq κ]
  {annotations : ι → Annotation ι} {values : κ → PyObject κ} {satisfies : ι → κ → Bool}
  {isReserved : Text → Bool} {hasDefault : ι → Bool}
  {createModel : List (Field ι κ) → Except Exc (ParametersModel ν)}
  {toolParameters : ParametersModel ν → Except Exc π}
  {sig : Signature ι κ} {compiled : CompiledToolCallable π ν}

theorem key_of_wireInputName {name text : Text} {info : FieldInfo}
    (h : wireInputName name info = .ok text) : info.key name = some text := by
  rw [wireInputName] at h
  rw [FieldInfo.key]
  split at h
  · cases h
    rfl
  · cases h
  · cases h
    rfl

/-- A parameter that compiles takes a keyword and keeps its name and its default. -/
theorem field_eq_ok {p : Parameter ι κ} {entry : Field ι κ}
    (h : field annotations values satisfies p = .ok entry) :
    p.takesKeyword = true ∧
      ∃ expected, p.hint = some expected ∧ entry = (p.name, expected, p.default) := by
  obtain ⟨name, kind, hint, default⟩ := p
  cases kind with
  | varPositional | varKeyword | positionalOnly => cases h
  | positionalOrKeyword | keywordOnly =>
      refine ⟨rfl, ?_⟩
      cases hint with
      | none => cases h
      | some expected =>
          simp only [field] at h
          split at h
          · cases h
          · split at h
            · cases h
              exact ⟨expected, rfl, rfl⟩
            · obtain ⟨_, -, h⟩ := Procedure.bind_eq_ok h
              cases h
              exact ⟨expected, rfl, rfl⟩

/-- What a compiled callable was made of. -/
structure Compiles (annotations : ι → Annotation ι) (values : κ → PyObject κ)
    (satisfies : ι → κ → Bool) (createModel : List (Field ι κ) → Except Exc (ParametersModel ν))
    (sig : Signature ι κ) (compiled : CompiledToolCallable π ν) (fields : List (Field ι κ)) :
    Prop where
  made : List.Forall₂ (fun p entry => field annotations values satisfies p = .ok entry)
    sig.parameters fields
  model : createModel fields = .ok compiled.model
  kept : ∀ name ∈ fields.map Prod.fst, name ∈ compiled.model.modelFields.map Prod.fst
  aliases : List.Forall₂ (fun (entry : Text × FieldInfo) (named : Text × Text) =>
    named.1 = entry.1 ∧ entry.2.key entry.1 = some named.2) compiled.model.modelFields
      compiled.aliases
  parameterNames : compiled.parameterNames = sig.parameters.map Parameter.name

theorem compiles_of_eq_ok
    (h : compileToolCallable annotations values satisfies isReserved createModel toolParameters
      sig = .ok compiled) :
    ∃ fields, Compiles annotations values satisfies createModel sig compiled fields := by
  obtain ⟨fields, hfields, h⟩ := Procedure.bind_eq_ok h
  dsimp only at h
  split at h
  · cases h
  · obtain ⟨model, hmodel, h⟩ := Procedure.bind_eq_ok h
    split at h
    · cases h
    · next hdropped =>
        obtain ⟨aliases, haliases, h⟩ := Procedure.bind_eq_ok h
        split at h
        · obtain ⟨parameters, -, h⟩ := Procedure.bind_eq_ok h
          cases h
          refine ⟨fields, Procedure.forall₂_of_mapM hfields, Procedure.mapError_eq_ok hmodel, ?_,
            (Procedure.forall₂_of_mapM haliases).imp ?_, rfl⟩
          · intro name hmem
            by_contra hnot
            have hempty := not_not.mp hdropped
            rw [List.filter_eq_nil_iff] at hempty
            exact hempty name hmem (by simpa using hnot)
          · intro entry named hnamed
            cases hwire : wireInputName entry.1 entry.2 with
            | error e =>
                rw [hwire] at hnamed
                cases hnamed
            | ok text =>
                rw [hwire] at hnamed
                cases hnamed
                exact ⟨rfl, key_of_wireInputName hwire⟩
        · cases h

section Contract
variable {fields : List (Field ι κ)}
  (hc : Compiles annotations values satisfies createModel sig compiled fields)
include hc

theorem Compiles.names : fields.map Prod.fst = sig.parameters.map Parameter.name := by
  refine (map_eq_of_forall₂ hc.made fun p entry hp => ?_).symm
  obtain ⟨-, expected, -, rfl⟩ := field_eq_ok hp
  rfl

theorem Compiles.parameter {p : Parameter ι κ} (hmem : p ∈ sig.parameters) :
    p.takesKeyword = true ∧
      ∃ expected, p.hint = some expected ∧ (p.name, expected, p.default) ∈ fields := by
  obtain ⟨entry, hentry, hp⟩ := exists_mem_of_forall₂ hc.made hmem
  obtain ⟨htakes, expected, hhint, rfl⟩ := field_eq_ok hp
  exact ⟨htakes, expected, hhint, hentry⟩

theorem Compiles.key {named : Text × Text} (hmem : named ∈ compiled.aliases) :
    ∃ info, (named.1, info) ∈ compiled.model.modelFields ∧ info.key named.1 = some named.2 := by
  obtain ⟨entry, hentry, hname, hkey⟩ := exists_mem_of_forall₂ hc.aliases.flip hmem
  exact ⟨entry.2, hname ▸ hentry, hname ▸ hkey⟩

/-- No parameter was dropped, and the model has no other field. -/
theorem Compiles.modelNames (hdoc : Documented hasDefault createModel) :
    compiled.aliases.map Prod.fst = sig.parameters.map Parameter.name := by
  have hsub := hdoc.fields fields compiled.model hc.model
  have hnodup : (fields.map Prod.fst).Nodup := hc.names ▸ sig.distinct
  have haliases : compiled.aliases.map Prod.fst = compiled.model.modelFields.map Prod.fst :=
    (map_eq_of_forall₂ hc.aliases fun _ _ hnamed => hnamed.1.symm).symm
  rw [haliases, ← hc.names]
  exact hsub.eq_of_length_le (hnodup.subperm hc.kept).length_le

theorem Compiles.modelNames_parameterNames (hdoc : Documented hasDefault createModel) :
    compiled.parameterNames = compiled.aliases.map Prod.fst :=
  hc.parameterNames.trans (hc.modelNames hdoc).symm

theorem Compiles.nodup (hdoc : Documented hasDefault createModel) :
    (compiled.aliases.map Prod.fst).Nodup := hc.modelNames hdoc ▸ sig.distinct

section Validation
variable {input : List (Text × Json)} {validated : Validated ν}
  (hdoc : Documented hasDefault createModel)
  (hvalid : compiled.model.validateJson input = .ok validated)
include hdoc hvalid

theorem Compiles.set_iff {named : Text × Text} (hmem : named ∈ compiled.aliases) :
    named.1 ∈ validated.fieldsSet ↔ named.2 ∈ input.map Prod.fst := by
  obtain ⟨info, hfield, hkey⟩ := hc.key hmem
  exact hdoc.fieldsSet fields compiled.model input validated hc.model hvalid _ info _ hfield hkey

/-- A parameter without a default is among what was set. -/
theorem Compiles.set_of_required (hdefaults : sig.DefaultsDeclared hasDefault)
    {p : Parameter ι κ} (hmem : p ∈ sig.parameters) (hdefault : p.default = none) :
    p.name ∈ validated.fieldsSet := by
  obtain ⟨-, expected, hhint, hentry⟩ := hc.parameter hmem
  have hname : p.name ∈ compiled.aliases.map Prod.fst :=
    hc.modelNames hdoc ▸ List.mem_map_of_mem hmem
  obtain ⟨named, halias, heq⟩ := List.mem_map.mp hname
  obtain ⟨info, hfield, hkey⟩ := hc.key halias
  rw [← heq, hc.set_iff hdoc hvalid halias]
  exact hdoc.required fields compiled.model input validated hc.model hvalid named.1 expected info
    named.2 (by rw [heq, ← hdefault]; exact hentry) (hdefaults p hmem hdefault expected hhint)
    hfield hkey

/-- What is supplied, by the wire: the parameters whose aliases the input has. -/
theorem Compiles.supplied :
    compiled.parameterNames.filter validated.fieldsSet.contains =
      (compiled.aliases.filter fun named => (input.map Prod.fst).contains named.2).map
        Prod.fst := by
  rw [hc.modelNames_parameterNames hdoc, List.filter_map]
  congr 1
  refine List.filter_congr fun named hmem => ?_
  rw [Function.comp_apply, Bool.eq_iff_iff, List.contains_iff_mem, List.contains_iff_mem]
  exact hc.set_iff hdoc hvalid hmem

end Validation
end Contract

/-- An error about a property that is published names the parameter it is for. -/
theorem CompiledToolCallable.parameterNamed_alias {named : Text × Text}
    (hmem : named ∈ compiled.aliases) : compiled.parameterNamed named.2 = named.1 := by
  rw [CompiledToolCallable.parameterNamed]
  cases hfind : compiled.aliases.find? fun entry => entry.2 == named.2 with
  | none => exact absurd (List.find?_eq_none.mp hfind named hmem) (by simp)
  | some found =>
      have hsame : found = named := List.inj_on_of_nodup_map compiled.distinct
        (List.mem_of_find?_eq_some hfind) hmem (by simpa using List.find?_some hfind)
      exact congrArg Prod.fst hsame

theorem CompiledToolCallable.toolKwargs_eq_ok {input : List (Text × Json)}
    {kwargs : List (Text × ν)} (h : compiled.toolKwargs input = .ok kwargs) :
    (∀ name ∈ input.map Prod.fst, name ∈ compiled.aliases.map Prod.snd) ∧
    ∃ validated, compiled.model.validateJson input = .ok validated ∧
      kwargs = (compiled.parameterNames.filter validated.fieldsSet.contains).map fun name =>
        (name, validated.get name) := by
  dsimp only [CompiledToolCallable.toolKwargs] at h
  split at h
  · cases h
  · next hexpected =>
      constructor
      · intro name hmem
        by_contra hnot
        have hunexpected : name ∈ (input.map Prod.fst).filter fun name =>
            !(compiled.aliases.map Prod.snd).contains name :=
          List.mem_filter.mpr ⟨hmem, by simpa using hnot⟩
        have hempty := not_not.mp hexpected
        exact List.not_mem_nil (hempty ▸ (sortBy_perm id _).mem_iff.mpr hunexpected)
      · split at h
        · cases h
        · next validated hvalid =>
            cases h
            exact ⟨validated, hvalid, rfl⟩

/-- The properties of an input with no unexpected name are the aliases it has. -/
theorem CompiledToolCallable.wireNames_perm {input : List (Text × Json)}
    (hkeys : (input.map Prod.fst).Nodup)
    (hexpected : ∀ name ∈ input.map Prod.fst, name ∈ compiled.aliases.map Prod.snd) :
    ((compiled.aliases.filter fun named => (input.map Prod.fst).contains named.2).map
      Prod.snd).Perm (input.map Prod.fst) := by
  rw [List.perm_ext_iff_of_nodup
    (compiled.distinct.sublist (List.filter_sublist.map Prod.snd)) hkeys]
  intro key
  constructor
  · intro hmem
    obtain ⟨named, hnamed, rfl⟩ := List.mem_map.mp hmem
    exact List.contains_iff_mem.mp (List.mem_filter.mp hnamed).2
  · intro hmem
    obtain ⟨named, hnamed, rfl⟩ := List.mem_map.mp (hexpected key hmem)
    exact List.mem_map_of_mem (List.mem_filter.mpr ⟨hnamed, List.contains_iff_mem.mpr hmem⟩)

/-- Where defaults are declared in the signature, input that `tool_kwargs` accepts is a call
that Python binds: each property of the input is one argument, in the order of the signature,
and none is left over or without a value. -/
theorem accepted_input_binds (hdoc : Documented hasDefault createModel)
    (hdefaults : sig.DefaultsDeclared hasDefault)
    (hcompile : compileToolCallable annotations values satisfies isReserved createModel
      toolParameters sig = .ok compiled)
    {input : List (Text × Json)} (hkeys : (input.map Prod.fst).Nodup) {kwargs : List (Text × ν)}
    (hkwargs : compiled.toolKwargs input = .ok kwargs) :
    (∃ arguments, bind sig kwargs = .ok arguments) ∧
    (kwargs.map Prod.fst).Sublist (sig.parameters.map Parameter.name) ∧
    (kwargs.map fun kw => compiled.aliases.lookup kw.1).Perm
      (input.map fun entry => some entry.1) := by
  obtain ⟨fields, hc⟩ := compiles_of_eq_ok hcompile
  obtain ⟨hexpected, validated, hvalid, rfl⟩ := CompiledToolCallable.toolKwargs_eq_ok hkwargs
  have hnames : ((compiled.parameterNames.filter validated.fieldsSet.contains).map fun name =>
      (name, validated.get name)).map Prod.fst =
        compiled.parameterNames.filter validated.fieldsSet.contains := by
    rw [List.map_map]
    exact List.map_id _
  refine ⟨bind_ok ?_ ?_, ?_, ?_⟩
  · intro kw hmem
    have hname := hnames ▸ List.mem_map_of_mem (f := Prod.fst) hmem
    have hparameter := hc.parameterNames ▸ (List.mem_filter.mp hname).1
    obtain ⟨p, hp, heq⟩ := List.mem_map.mp hparameter
    exact ⟨p, hp, (hc.parameter hp).1, heq⟩
  · intro p hp hdefault
    refine ⟨(hc.parameter hp).1, ?_⟩
    rw [hnames, List.mem_filter, List.contains_iff_mem, hc.parameterNames]
    exact ⟨List.mem_map_of_mem hp, hc.set_of_required hdoc hvalid hdefaults hp hdefault⟩
  · rw [hnames, ← hc.parameterNames]
    exact List.filter_sublist
  · have hlookup : (compiled.aliases.filter fun named =>
        (input.map Prod.fst).contains named.2).map (fun named => compiled.aliases.lookup named.1) =
          (compiled.aliases.filter fun named =>
            (input.map Prod.fst).contains named.2).map (fun named => some named.2) :=
      List.map_congr_left fun named hmem =>
        Dict.lookup_of_mem (hc.nodup hdoc) (List.mem_of_mem_filter hmem)
    rw [List.map_map, hc.supplied hdoc hvalid, List.map_map]
    have hsome := (compiled.wireNames_perm hkeys hexpected).map some
    rw [List.map_map, List.map_map] at hsome
    exact (List.Perm.of_eq hlookup).trans hsome

end Accepted

/-! ## A tool of two parameters

`async def pay(amount: Annotated[int, Field(alias="amountCents")], note: str = "")`. -/

/-- `Annotated[int, Field(...)]`, `str`, `int` and the `FieldInfo`. -/
def payHints : Fin 4 → Annotation (Fin 4)
  | 0 => ⟨false, some [], [2, 3]⟩
  | _ => ⟨false, some [], []⟩

theorem payHints_leaf {expected : Fin 4} (seen : Finset (Fin 4)) (h : expected ≠ 0) :
    containsUnboundTypevar payHints expected seen = false := by
  have hleaf : payHints expected = ⟨false, some [], []⟩ := by
    rw [payHints.eq_def]
    split
    · exact absurd rfl h
    · rfl
  rw [containsUnboundTypevar]
  simp [hasTypeVarParameter, hleaf]

/-- The empty string. -/
def payDefaults : Unit → PyObject Unit := fun _ => .other

def payKey (entry : Field (Fin 4) Unit) : Text :=
  if entry.2.1 = 0 then "amountCents".toList else entry.1

/-- Strict validation of an `int` or a `str`. -/
def payAccepts : Fin 4 → Json → Bool
  | 0, .int _ | 2, .int _ | 1, .str _ => true
  | _, _ => false

def payTypeError (expected : Fin 4) (key : Text) : ErrorDetails :=
  if expected = 1 then
    ⟨"string_type".toList, some key, some "Input should be a valid string".toList⟩
  else ⟨"int_type".toList, some key, some "Input should be a valid integer".toList⟩

def payFieldErrors (fields : List (Field (Fin 4) Unit)) (input : List (Text × Json)) :
    List ErrorDetails :=
  fields.filterMap fun entry =>
    match input.lookup (payKey entry) with
    | some value =>
        if payAccepts entry.2.1 value then none
        else some (payTypeError entry.2.1 (payKey entry))
    | none =>
        if entry.2.2 = none then
          some ⟨"missing".toList, some (payKey entry), some "Field required".toList⟩
        else none

def payModel (fields : List (Field (Fin 4) Unit)) : ParametersModel Json where
  modelFields := fields.map fun entry =>
    (entry.1,
      if entry.2.1 = 0 then ⟨some "amountCents".toList, some (.name "amountCents".toList)⟩
      else {})
  validateJson input :=
    if payFieldErrors fields input = [] then
      .ok {
        fieldsSet := (fields.filter fun entry =>
          (input.map Prod.fst).contains (payKey entry)).map Prod.fst
        get name := (((fields.find? fun entry => entry.1 == name).bind fun entry =>
          input.lookup (payKey entry))).getD (.str []) }
    else .error (payFieldErrors fields input)

def isPublic (entry : Field (Fin 4) Unit) : Bool := entry.1.head? != some '_'

def createPayModel (fields : List (Field (Fin 4) Unit)) : Except Exc (ParametersModel Json) :=
  if (fields.map Prod.fst).Nodup then .ok (payModel (fields.filter isPublic))
  else .error (.other "SyntaxError")

theorem payModel_field {fields : List (Field (Fin 4) Unit)} {name key : Text} {info : FieldInfo}
    (hmem : (name, info) ∈ (payModel fields).modelFields) (hkey : info.key name = some key) :
    ∃ entry ∈ fields, entry.1 = name ∧ payKey entry = key := by
  obtain ⟨entry, hentry, heq⟩ := List.mem_map.mp hmem
  obtain ⟨rfl, rfl⟩ := Prod.mk.inj heq
  refine ⟨entry, hentry, rfl, ?_⟩
  rw [FieldInfo.key] at hkey
  rw [payKey]
  split
  · next h => simpa [h] using hkey
  · next h => simpa [h] using hkey

theorem payModel_validated {fields : List (Field (Fin 4) Unit)} {input : List (Text × Json)}
    {validated : Validated Json} (h : (payModel fields).validateJson input = .ok validated) :
    payFieldErrors fields input = [] ∧ validated.fieldsSet = (fields.filter fun entry =>
      (input.map Prod.fst).contains (payKey entry)).map Prod.fst := by
  dsimp only [payModel] at h
  split at h
  · next hnone =>
      cases h
      exact ⟨hnone, rfl⟩
  · cases h

theorem createPayModel_eq_ok {fields : List (Field (Fin 4) Unit)} {model : ParametersModel Json}
    (h : createPayModel fields = .ok model) :
    (fields.map Prod.fst).Nodup ∧ model = payModel (fields.filter isPublic) := by
  rw [createPayModel] at h
  split at h
  · next hnodup =>
      cases h
      exact ⟨hnodup, rfl⟩
  · cases h

theorem createPayModel_documented : Documented (fun _ => false) createPayModel where
  fields fields model hmodel := by
    obtain ⟨-, rfl⟩ := createPayModel_eq_ok hmodel
    rw [payModel, List.map_map]
    exact List.filter_sublist.map Prod.fst
  required fields model input validated hmodel hvalid name expected info key hentry _ hfield
      hkey := by
    obtain ⟨hnodup, rfl⟩ := createPayModel_eq_ok hmodel
    obtain ⟨entry, hmem, hname, rfl⟩ := payModel_field hfield hkey
    obtain ⟨hnone, -⟩ := payModel_validated hvalid
    have heq : entry = (name, expected, none) :=
      List.inj_on_of_nodup_map hnodup (List.mem_of_mem_filter hmem) hentry hname
    rw [payFieldErrors, List.filterMap_eq_nil_iff] at hnone
    have herror := hnone entry hmem
    cases hlookup : input.lookup (payKey entry) with
    | some value => exact List.mem_map_of_mem (Dict.mem_of_lookup hlookup)
    | none =>
        rw [hlookup] at herror
        simp [heq] at herror
  fieldsSet fields model input validated hmodel hvalid name info key hfield hkey := by
    obtain ⟨hnodup, rfl⟩ := createPayModel_eq_ok hmodel
    obtain ⟨entry, hmem, rfl, rfl⟩ := payModel_field hfield hkey
    rw [(payModel_validated hvalid).2]
    constructor
    · intro hset
      obtain ⟨other, hother, hname⟩ := List.mem_map.mp hset
      obtain ⟨hin, hcontains⟩ := List.mem_filter.mp hother
      have heq : other = entry := List.inj_on_of_nodup_map hnodup
        (List.mem_of_mem_filter hin) (List.mem_of_mem_filter hmem) hname
      exact heq ▸ List.contains_iff_mem.mp hcontains
    · intro hset
      exact List.mem_map_of_mem (List.mem_filter.mpr ⟨hmem, List.contains_iff_mem.mpr hset⟩)

def paySignature : Signature (Fin 4) Unit where
  parameters := [⟨"amount".toList, .positionalOrKeyword, some 0, none⟩,
    ⟨"note".toList, .positionalOrKeyword, some 1, some ()⟩]
  distinct := by decide

def payFields : List (Field (Fin 4) Unit) :=
  [("amount".toList, 0, none), ("note".toList, 1, some ())]

def paySchema (model : ParametersModel Json) : Except Exc (List Text) :=
  .ok (model.modelFields.filterMap fun entry => entry.2.key entry.1)

/-- Its schema is given by the names of its properties. -/
def payTool : CompiledToolCallable (List Text) Json where
  parameters := ["amountCents".toList, "note".toList]
  model := payModel payFields
  parameterNames := ["amount".toList, "note".toList]
  aliases := [("amount".toList, "amountCents".toList), ("note".toList, "note".toList)]
  distinct := by decide

def payInput : List (Text × Json) :=
  [("note".toList, .str "rent".toList), ("amountCents".toList, .int 500)]

theorem payTool_compiled :
    compileToolCallable payHints payDefaults (fun expected _ => expected = 1) (fun _ => false)
      createPayModel paySchema paySignature = .ok payTool := by
  have hbound : ∀ expected : Fin 4, containsUnboundTypevar payHints expected ∅ = false := by
    intro expected
    by_cases hzero : expected = 0
    · subst hzero
      rw [containsUnboundTypevar]
      simp [payHints, hasTypeVarParameter, payHints_leaf]
    · exact payHints_leaf ∅ hzero
  have hfinite : containsNonFiniteNumber payDefaults () ∅ = false := by
    rw [containsNonFiniteNumber]
    rfl
  have hfields : paySignature.parameters.mapM
      (field payHints payDefaults fun expected _ => expected = 1) = .ok payFields := by
    simp [paySignature, field, hbound, validateCallableDefault, hfinite]
    rfl
  rw [compileToolCallable, hfields]
  rfl

def payKwargs : List (Text × Json) :=
  [("amount".toList, .int 500), ("note".toList, .str "rent".toList)]

theorem accepted_input_binds_pay :
    payTool.toolKwargs payInput = .ok payKwargs ∧
    (∃ arguments, bind paySignature payKwargs = .ok arguments) ∧
    (payKwargs.map Prod.fst).Sublist (paySignature.parameters.map Parameter.name) ∧
    (payKwargs.map fun kw => payTool.aliases.lookup kw.1).Perm
      (payInput.map fun entry => some entry.1) := by
  have hkwargs : payTool.toolKwargs payInput = .ok payKwargs := rfl
  exact ⟨hkwargs, accepted_input_binds createPayModel_documented (fun _ _ _ _ _ => rfl)
    payTool_compiled (by decide) hkwargs⟩

end DualeAI.ToolCompile
