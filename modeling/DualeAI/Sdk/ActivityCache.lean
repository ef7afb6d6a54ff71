import DualeAI.Events.Bridge
import DualeAI.Foundation.Indexed
import DualeAI.Foundation.Transition
import Mathlib.Logic.Function.Basic

/-!
`execute_activity`: calls of activities through one tenant's cache.

Any number of calls are under way at once. A step is what one of them does between
two awaits; an entry may also expire or be evicted at any time. An entry keeps the
number of the call that stored it, which no step reads.
-/
namespace DualeAI.Activity
open Foundation

/-- A Python callable: `functionName` is the `__name__` of a plain function, and
`identity` tells objects of one name apart. -/
structure Callable where
  identity : Nat
  functionName : Option Text
  typeName : Text
deriving DecidableEq

structure ActivityCall (Obj : Type) where
  func : Callable
  args : List Obj
  kwargs : List (Text × Obj)

inductive Phase where
  | started
  | executing
  | executed (result : Json)
  | stored (result : Json)
  | returned (result : Json) (cachedBy : Option Nat)
  | failed

def Phase.over : Phase → Bool
  | .returned _ _ | .failed => true
  | _ => false

structure RunningCall (Obj : Type) where
  call : ActivityCall Obj
  phase : Phase

structure State (Obj : Type) where
  cache : Text → Option (Json × Nat) := fun _ => none
  calls : List (RunningCall Obj) := []

inductive Action (Obj : Type) where
  | call (call : ActivityCall Obj)
  | lookup (i : Nat)
  | execute (i : Nat) (result : Json)
  | store (i : Nat)
  | leave (i : Nat)
  | fail (i : Nat)
  | forget (key : Text)

section Keys
variable {Obj : Type} (repr : Obj → Text) (reprStr : Text → Text)

def funcName (func : Callable) : Text := func.functionName.getD func.typeName

/-- `repr` of a tuple. -/
def reprArgs : List Obj → Text
  | [x] => '(' :: (repr x ++ ",)".toList)
  | args => '(' :: (", ".toList.intercalate (args.map repr) ++ [')'])

/-- `repr` of a `dict` with string keys. -/
def reprKwargs (kwargs : List (Text × Obj)) : Text :=
  '{' :: (", ".toList.intercalate
    (kwargs.map fun (name, x) => reprStr name ++ ": ".toList ++ repr x) ++ ['}'])

def inputsStr (call : ActivityCall Obj) : Text :=
  funcName call.func ++
    ':' :: (reprArgs repr call.args ++ ':' :: reprKwargs repr reprStr call.kwargs)

/-- The callable's name and the `repr` of the arguments do not tell the calls apart. -/
def SameRendering (x y : ActivityCall Obj) : Prop :=
  inputsStr repr reprStr x = inputsStr repr reprStr y

variable {repr reprStr}

/-- With equal arguments it is the name that tells calls apart. -/
theorem sameRendering_iff_of_args {x y : ActivityCall Obj} (hargs : x.args = y.args)
    (hkwargs : x.kwargs = y.kwargs) :
    SameRendering repr reprStr x y ↔ funcName x.func = funcName y.func := by
  rw [SameRendering, inputsStr, inputsStr, hargs, hkwargs, List.append_cancel_right_eq]

/-- For one callable it is what `repr` shows of the arguments. -/
theorem sameRendering_iff_of_func {x y : ActivityCall Obj} (hfunc : x.func = y.func) :
    SameRendering repr reprStr x y ↔
      reprArgs repr x.args ++ ':' :: reprKwargs repr reprStr x.kwargs =
        reprArgs repr y.args ++ ':' :: reprKwargs repr reprStr y.kwargs := by
  rw [SameRendering, inputsStr, inputsStr, hfunc, List.append_cancel_left_eq, List.cons_inj_right]

end Keys

section Steps
variable {Obj : Type} (repr : Obj → Text) (reprStr : Text → Text) (digest : Text → Text)

/-- `digest` is the truncated SHA-256 of the encoded text. -/
def cacheKey (call : ActivityCall Obj) : Text := digest (inputsStr repr reprStr call)

def setPhase (i : Nat) (phase : Phase) (s : State Obj) : State Obj :=
  { s with calls := s.calls.modify i fun running => { running with phase := phase } }

/-- `cached_result is not None`: a cached null counts as a miss. -/
def cacheHit (call : ActivityCall Obj) (s : State Obj) : Option (Json × Nat) :=
  (s.cache (cacheKey repr reprStr digest call)).filter fun
    | (.null, _) => false
    | _ => true

def step (s : State Obj) : Action Obj → Option (State Obj)
  | .call call => some { s with calls := s.calls ++ [⟨call, .started⟩] }
  | .lookup i =>
      match s.calls[i]? with
      | some ⟨call, .started⟩ =>
          match cacheHit repr reprStr digest call s with
          | some (result, by') => some (setPhase i (.returned result (some by')) s)
          | none => some (setPhase i .executing s)
      | _ => none
  | .execute i result =>
      match s.calls[i]? with
      | some ⟨_, .executing⟩ => some (setPhase i (.executed result) s)
      | _ => none
  | .store i =>
      match s.calls[i]? with
      | some ⟨call, .executed result⟩ =>
          some (setPhase i (.stored result) { s with
            cache := Function.update s.cache (cacheKey repr reprStr digest call)
              (some (result, i)) })
      | _ => none
  | .leave i =>
      match s.calls[i]? with
      | some ⟨_, .stored result⟩ => some (setPhase i (.returned result none) s)
      | _ => none
  | .fail i =>
      match s.calls[i]? with
      | some running => if running.phase.over then none else some (setPhase i .failed s)
      | none => none
  | .forget key => some { s with cache := Function.update s.cache key none }

/-- A call of `x` has returned what a call of `y` stored. -/
def TakesFrom (x y : ActivityCall Obj) (s : State Obj) : Prop :=
  ∃ (i j : Nat) (result : Json) (phase : Phase),
    s.calls[i]? = some (RunningCall.mk x (.returned result (some j))) ∧
      s.calls[j]? = some (RunningCall.mk y phase)

/-- However calls interleave, none of `x` and `y` returns what the other one stored. -/
def Isolated (x y : ActivityCall Obj) : Prop :=
  ∀ past s, Run (step repr reprStr digest) {} past s → ¬ TakesFrom x y s ∧ ¬ TakesFrom y x s

variable {repr reprStr digest}

/-! ## Where results come from -/

/-- What is cached, and what was returned from the cache, belongs to its key. -/
structure Attributed (repr : Obj → Text) (reprStr digest : Text → Text) (s : State Obj) : Prop where
  cached : ∀ key result j, s.cache key = some (result, j) →
    ∃ running : RunningCall Obj, s.calls[j]? = some running ∧
      key = cacheKey repr reprStr digest running.call
  returned : ∀ (i : Nat) (running : RunningCall Obj) result j, s.calls[i]? = some running →
    running.phase = .returned result (some j) →
      ∃ other : RunningCall Obj, s.calls[j]? = some other ∧
        cacheKey repr reprStr digest running.call = cacheKey repr reprStr digest other.call

theorem Attributed.setPhase {s : State Obj} (hs : Attributed repr reprStr digest s) {i : Nat}
    {phase : Phase} (hphase : ∀ (running : RunningCall Obj) result j, s.calls[i]? = some running →
      phase = .returned result (some j) → ∃ other : RunningCall Obj, s.calls[j]? = some other ∧
        cacheKey repr reprStr digest running.call = cacheKey repr reprStr digest other.call) :
    Attributed repr reprStr digest (setPhase i phase s) := by
  have hkept {j : Nat} {other : RunningCall Obj} (hget : s.calls[j]? = some other) :
      ∃ after, (Activity.setPhase i phase s).calls[j]? = some after ∧ after.call = other.call :=
    ⟨_, getElem?_modify_eq_some.mpr ⟨other, hget, rfl⟩, by split <;> rfl⟩
  refine ⟨fun key result j hcache => ?_, fun n running result j hget hreturned => ?_⟩
  · obtain ⟨other, hother, rfl⟩ := hs.cached key result j hcache
    obtain ⟨after, hafter, hcall⟩ := hkept hother
    exact ⟨after, hafter, by rw [hcall]⟩
  · obtain ⟨before, hbefore, rfl⟩ := getElem?_modify_eq_some.mp hget
    have hsource : ∃ other, s.calls[j]? = some other ∧
        cacheKey repr reprStr digest before.call = cacheKey repr reprStr digest other.call := by
      by_cases heq : i = n
      · subst heq
        rw [if_pos rfl] at hreturned
        exact hphase before result j hbefore hreturned
      · rw [if_neg heq] at hreturned
        exact hs.returned n before result j hbefore hreturned
    obtain ⟨other, hother, hkey⟩ := hsource
    obtain ⟨after, hafter, hcall⟩ := hkept hother
    refine ⟨after, hafter, ?_⟩
    rw [hcall, ← hkey]
    split <;> rfl

theorem Attributed.update {s : State Obj} (hs : Attributed repr reprStr digest s) (key : Text)
    {entry : Option (Json × Nat)} (hentry : ∀ result j, entry = some (result, j) →
      ∃ running : RunningCall Obj, s.calls[j]? = some running ∧
        key = cacheKey repr reprStr digest running.call) :
    Attributed repr reprStr digest { s with cache := Function.update s.cache key entry } := by
  refine ⟨fun key' result j hcache => ?_, hs.returned⟩
  by_cases heq : key' = key
  · subst heq
    exact hentry result j (by simpa using hcache)
  · exact hs.cached key' result j (by simpa [heq] using hcache)

theorem Attributed.append {s : State Obj} (hs : Attributed repr reprStr digest s)
    (call : ActivityCall Obj) :
    Attributed repr reprStr digest { s with calls := s.calls ++ [⟨call, .started⟩] } := by
  have hkept {j : Nat} {other : RunningCall Obj} (hget : s.calls[j]? = some other) :
      (s.calls ++ [⟨call, .started⟩])[j]? = some other := by
    rw [List.getElem?_append_left (List.getElem?_eq_some_iff.mp hget).1]
    exact hget
  refine ⟨fun key result j hcache => ?_, ?_⟩
  · obtain ⟨other, hother, hkey⟩ := hs.cached key result j hcache
    exact ⟨other, hkept hother, hkey⟩
  · intro i running result j hget hreturned
    rcases getElem?_concat_eq_some hget with hold | ⟨-, rfl⟩
    · obtain ⟨other, hother, hkey⟩ := hs.returned i running result j hold hreturned
      exact ⟨other, hkept hother, hkey⟩
    · cases hreturned

/-- Step: whatever a call gets from the cache was stored under its own key. -/
theorem Attributed.step {s t : State Obj} {a : Action Obj}
    (hs : Attributed repr reprStr digest s) (h : step repr reprStr digest s a = some t) :
    Attributed repr reprStr digest t := by
  cases a with
  | call call =>
      cases h
      exact hs.append call
  | lookup i =>
      simp only [Activity.step] at h
      split at h
      · next call hget =>
          split at h
          · next result j hhit =>
              cases h
              obtain ⟨other, hother, hkey⟩ :=
                hs.cached _ result j (Option.filter_eq_some_iff.mp hhit).1
              refine hs.setPhase fun running _ _ hrunning hphase => ?_
              cases hphase
              cases hget.symm.trans hrunning
              exact ⟨other, hother, hkey⟩
          · cases h
            exact hs.setPhase nofun
      · cases h
  | execute i result =>
      simp only [Activity.step] at h
      split at h
      · cases h
        exact hs.setPhase nofun
      · cases h
  | store i =>
      simp only [Activity.step] at h
      split at h
      · next call result hget =>
          cases h
          refine (hs.update _ fun _ j hentry => ?_).setPhase nofun
          cases hentry
          exact ⟨_, hget, rfl⟩
      · cases h
  | leave i =>
      simp only [Activity.step] at h
      split at h
      · cases h
        exact hs.setPhase nofun
      · cases h
  | fail i =>
      simp only [Activity.step] at h
      split at h
      · split at h
        · cases h
        · cases h
          exact hs.setPhase nofun
      · cases h
  | forget key =>
      cases h
      exact hs.update key nofun

theorem attributed_of_run {past : List (Action Obj)} {s : State Obj}
    (h : Run (Activity.step repr reprStr digest) {} past s) :
    Attributed repr reprStr digest s := by
  refine h.invariant (I := fun _ s => Attributed repr reprStr digest s) ?_
    fun _ _ _ _ hs hstep => hs.step hstep
  refine ⟨fun key result j hcache => ?_, fun i running result j hget _ => ?_⟩
  · cases hcache
  · simp at hget

theorem TakesFrom.sameRendering {x y : ActivityCall Obj} {s : State Obj}
    (h : TakesFrom x y s) (hs : Attributed repr reprStr digest s)
    (hdigest : Function.Injective digest) : SameRendering repr reprStr x y := by
  obtain ⟨i, j, result, phase, hx, hy⟩ := h
  obtain ⟨other, hother, hkey⟩ := hs.returned i _ result j hx rfl
  cases hother.symm.trans hy
  exact hdigest hkey

/-! ## Calls that share an entry -/

/-- A call of `y` stores its result, and then a call of `x` finds it. -/
theorem takes_of_sameRendering (digest : Text → Text) {x y : ActivityCall Obj}
    (h : SameRendering repr reprStr x y) :
    ∃ past s, Run (Activity.step repr reprStr digest) {} past s ∧ TakesFrom x y s := by
  have hkey : cacheKey repr reprStr digest x = cacheKey repr reprStr digest y := congrArg digest h
  let stored : State Obj :=
    { cache := Function.update (fun _ => none) (cacheKey repr reprStr digest y)
        (some (.bool true, 0))
      calls := [⟨y, .stored (.bool true)⟩, ⟨x, .started⟩] }
  have hstored : Run (Activity.step repr reprStr digest) {}
      [.call y, .lookup 0, .execute 0 (.bool true), .store 0, .call x] stored := .of_foldlM rfl
  have hhit : cacheHit repr reprStr digest x stored = some (.bool true, 0) := by
    simp only [cacheHit, stored, hkey, Function.update_self]
    rfl
  have hlookup : Activity.step repr reprStr digest stored (.lookup 1) =
      some (Activity.setPhase 1 (.returned (.bool true) (some 0)) stored) := by
    have hget : stored.calls[1]? = some (RunningCall.mk x .started) := rfl
    simp only [Activity.step, hget, hhit]
  exact ⟨_, _, hstored.snoc hlookup, 1, 0, .bool true, .stored (.bool true), rfl, rfl⟩

end Steps

/-! ## Isolation -/

/-- Objects that show themselves by name, as `str` and the like do. -/
def showText (x : Text) : Text := '\'' :: (x ++ ['\''])

def boundMethod (identity : Nat) : ActivityCall Text :=
  ⟨⟨identity, none, "method".toList⟩, ["user-123".toList], []⟩

/-- Methods of two objects, called with the same argument. -/
theorem boundMethods_not_isolated :
    ¬ ∀ x y : ActivityCall Text, x.func ≠ y.func ∨ x.args ≠ y.args ∨ x.kwargs ≠ y.kwargs →
      Isolated showText showText id x y := by
  intro h
  have hsame : SameRendering showText showText (boundMethod 0) (boundMethod 1) := rfl
  obtain ⟨past, s, hrun, htakes⟩ := takes_of_sameRendering id hsame
  exact (h (boundMethod 0) (boundMethod 1) (.inl (by decide)) past s hrun).1 htakes

/-- Two calls never return each other's results, however calls interleave, just
where the callable's name and the arguments' `repr` tell them apart. -/
theorem activities_isolated_iff {Obj : Type} (repr : Obj → Text) (reprStr digest : Text → Text)
    (hdigest : Function.Injective digest) (x y : ActivityCall Obj) :
    Isolated repr reprStr digest x y ↔ ¬ SameRendering repr reprStr x y := by
  constructor
  · intro h hsame
    obtain ⟨past, s, hrun, htakes⟩ := takes_of_sameRendering digest hsame
    exact (h past s hrun).1 htakes
  · intro h past s hrun
    have hs := attributed_of_run hrun
    exact ⟨fun htakes => h (htakes.sameRendering hs hdigest),
      fun htakes => h (htakes.sameRendering hs hdigest).symm⟩

theorem activities_isolated_arguments :
    Isolated showText showText id ⟨⟨0, some "f".toList, "function".toList⟩, ["a".toList], []⟩
      ⟨⟨0, some "f".toList, "function".toList⟩, ["b".toList], []⟩ := by
  refine (activities_isolated_iff showText showText id Function.injective_id _ _).mpr ?_
  rw [SameRendering]
  decide

end DualeAI.Activity
