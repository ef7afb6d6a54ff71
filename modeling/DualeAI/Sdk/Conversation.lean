import DualeAI.Sdk.AdmissionRuns
import Mathlib.Logic.Function.Basic

/-!
Responses and the calls that wait for them; the children that `next` submits.

Calls have names. `next` shields the task it waits for, the other calls await it directly,
so that their cancellation cancels it. What `next` submits is a submission like any other,
with the call as its submitter.
-/
namespace DualeAI.Conversation
open Foundation
open TaskAdmission (RunnerEnd Submission)
open Breaker (CircuitBreaker)

inductive Kind where
  /-- `next`, with what `_continue_task` raises for its arguments. -/
  | next (invalid : Option Exc)
  /-- `await self.task` in `model`, in the loader of the metrics or in a `stream` of a
  response without streaming. -/
  | direct
deriving DecidableEq

/-- Why a call ends without a result. -/
inductive Refusal where
  | cancelled
  | taskStopped (reason : Text)
  | taskError (data : ProblemDetails)
  | rejected (retryAfter : Rat)
  | raised (error : Exc)
deriving DecidableEq

inductive Phase where
  | waiting (cancelled : Bool)
  /-- `next` submitted a child. -/
  | continued (child : Nat)
  | returned
  | raised (why : Refusal)
deriving DecidableEq

structure Call where
  kind : Kind
  target : Nat
  phase : Phase := .waiting false
deriving DecidableEq

structure State where
  admission : TaskAdmission.State := {}
  /-- What was done to the submissions, in order. -/
  trace : List TaskAdmission.Action := []
  /-- What each submission continues. -/
  parents : List (Option Nat) := []
  calls : Nat → Option Call := fun _ => none

inductive Action where
  /-- A root submission, any step of a submission, or `response.task.cancel()`. -/
  | perform (a : TaskAdmission.Action)
  | call (c : Nat) (kind : Kind) (target : Nat)
  | cancel (c : Nat)
  /-- A call goes on, `next` with the id drawn for its child. -/
  | resume (c : Nat) (taskId : Text) (now : Rat)

def Action.caller : Action → Option Nat
  | .perform _ => none
  | .call c _ _ | .cancel c | .resume c _ _ => some c

/-- The `operation_name` of a continuation. -/
def taskContinuation : Text := "task_continuation".toList

/-- What awaiting the task gives. -/
def awaitTerminal : RunnerEnd → Except Refusal BridgeEventData
  | .finished (.ok data) => .ok data
  | .finished (.error .cancelled) | .unstarted | .abandoned => .error .cancelled
  | .finished (.error error) => .error (.raised error)
  | .rejected retryAfter => .error (.rejected retryAfter)

/-- What keeps `next` from submitting a child. -/
def refusal (invalid : Option Exc) : BridgeEventData → Option Refusal
  | .taskStopped reason => some (.taskStopped reason)
  | .taskError data => some (.taskError data)
  | .contentDelta _ | .contentReset _ | .toolUse _ | .taskCompleted _ => invalid.map .raised

namespace State

/-- A response of the submission was returned. -/
def responded (i : Nat) (s : State) : Bool :=
  match s.admission.submissions[i]?.map Submission.submitter with
  | some (.ended .returned) => true
  | _ => false

def taskEnd (i : Nat) (s : State) : Option RunnerEnd :=
  match s.admission.submissions[i]?.map Submission.runner with
  | some (.ended how) => some how
  | _ => none

def put (c : Nat) (call : Call) (s : State) : State :=
  { s with calls := Function.update s.calls c (some call) }

end State

section Steps
variable (b : CircuitBreaker)

def perform (a : TaskAdmission.Action) (parent : Option Nat) (s : State) : Option State := do
  let admission ← TaskAdmission.step b s.admission a
  some { s with
    admission
    trace := s.trace ++ [a]
    parents :=
      match a with
      | .submit _ _ _ => s.parents ++ [parent]
      | _ => s.parents }

def cancel (c : Nat) (call : Call) (s : State) : Option State :=
  match call.phase with
  | .waiting _ =>
      match call.kind, s.taskEnd call.target with
      | .direct, none => perform b (.cancelRunner call.target) none s
      | _, _ => some (s.put c { call with phase := .waiting true })
  | .continued child => perform b (.cancelSubmitter child) none s
  | .returned | .raised _ => none

def resume (c : Nat) (call : Call) (taskId : Text) (now : Rat) (s : State) : Option State :=
  match call.phase with
  | .waiting true => some (s.put c { call with phase := .raised .cancelled })
  | .waiting false => do
      let how ← s.taskEnd call.target
      match awaitTerminal how, call.kind with
      | .error why, _ => some (s.put c { call with phase := .raised why })
      | .ok _, .direct => some (s.put c { call with phase := .returned })
      | .ok data, .next invalid =>
          match refusal invalid data with
          | some why => some (s.put c { call with phase := .raised why })
          | none => do
              let submitted ← perform b (.submit taskId taskContinuation now)
                (some call.target) s
              some (submitted.put c
                { call with phase := .continued s.admission.submissions.length })
  | .continued _ | .returned | .raised _ => none

def step (s : State) : Action → Option State
  | .perform a => perform b a none s
  | .call c kind target =>
      if (s.calls c).isNone ∧ s.responded target then some (s.put c { kind, target }) else none
  | .cancel c => (s.calls c).bind fun call => cancel b c call s
  | .resume c taskId now => (s.calls c).bind fun call => resume b c call taskId now s

end Steps

/-! ## Calls that leave no trace -/

/-- The action is of none of the hidden calls. -/
def visible (hidden : Nat → Bool) (a : Action) : Bool := a.caller.all fun c => !hidden c

def State.without (hidden : Nat → Bool) (s : State) : State :=
  { s with calls := fun c => if hidden c then none else s.calls c }

/-- A call of `next` that has submitted nothing. -/
structure Unsent (call : Call) : Prop where
  kind : call.kind ≠ .direct
  phase : ∀ child, call.phase ≠ .continued child

/-- Each of the hidden calls is one of `next` and has submitted nothing. -/
def AllUnsent (hidden : Nat → Bool) (s : State) : Prop :=
  ∀ (c : Nat) (call : Call), hidden c = true → s.calls c = some call → Unsent call

section Erasure
variable {b : CircuitBreaker} {s t : State} {hidden : Nat → Bool} {c : Nat} {call : Call}

theorem without_init (hidden : Nat → Bool) : State.without hidden {} = {} := by
  have hnone : (fun c => if hidden c = true then none else (none : Option Call)) =
      fun _ => none := by
    funext c
    exact ite_self none
  rw [State.without, hnone]

theorem calls_without (s : State) (h : hidden c = false) :
    (s.without hidden).calls c = s.calls c := by
  change (if hidden c = true then none else s.calls c) = s.calls c
  rw [h]
  rfl

theorem without_put (s : State) (h : hidden c = false) (call : Call) :
    (s.put c call).without hidden = (s.without hidden).put c call := by
  have hcalls : (fun c' => if hidden c' = true then none else
      Function.update s.calls c (some call) c') =
        Function.update (fun c' => if hidden c' = true then none else s.calls c') c
          (some call) := by
    funext c'
    by_cases heq : c' = c
    · rw [heq, h, Function.update_self, Function.update_self]
      rfl
    · rw [Function.update_of_ne heq, Function.update_of_ne heq]
  rw [State.without, State.put, hcalls]
  rfl

theorem without_put_hidden (s : State) (h : hidden c = true) (call : Call) :
    (s.put c call).without hidden = s.without hidden := by
  have hcalls : (fun c' => if hidden c' = true then none else
      Function.update s.calls c (some call) c') =
        fun c' => if hidden c' = true then none else s.calls c' := by
    funext c'
    by_cases heq : c' = c
    · rw [heq, h]
      rfl
    · rw [Function.update_of_ne heq]
  rw [State.without, State.put, hcalls]
  rfl

theorem perform_without (a : TaskAdmission.Action) (parent : Option Nat) (s : State) :
    perform b a parent (s.without hidden) = (perform b a parent s).map (State.without hidden) := by
  simp only [perform, State.without]
  cases TaskAdmission.step b s.admission a <;> rfl

theorem cancel_without (h : hidden c = false) (s : State) :
    cancel b c call (s.without hidden) = (cancel b c call s).map (State.without hidden) := by
  have hend : (s.without hidden).taskEnd call.target = s.taskEnd call.target := rfl
  rw [cancel, cancel, hend]
  split
  · split
    · exact perform_without _ _ _
    · exact congrArg some (without_put s h _).symm
  · exact perform_without _ _ _
  · rfl
  · rfl

theorem resume_without (h : hidden c = false) (taskId : Text) (now : Rat) (s : State) :
    resume b c call taskId now (s.without hidden) =
      (resume b c call taskId now s).map (State.without hidden) := by
  have hend : (s.without hidden).taskEnd call.target = s.taskEnd call.target := rfl
  have hput (phase : Phase) : some ((s.without hidden).put c { call with phase }) =
      (some (s.put c { call with phase })).map (State.without hidden) :=
    congrArg some (without_put s h _).symm
  rw [resume, resume, hend]
  split
  · exact hput _
  · cases s.taskEnd call.target with
    | none => rfl
    | some how =>
        simp only [Option.bind_eq_bind, Option.bind_some]
        split
        · exact hput _
        · exact hput _
        · split
          · exact hput _
          · rw [perform_without]
            cases perform b (.submit taskId taskContinuation now) (some call.target) s with
            | none => rfl
            | some submitted => exact congrArg some (without_put submitted h _).symm
  · rfl
  · rfl
  · rfl

/-- A call that is not hidden goes on as if the hidden ones were not there. -/
theorem step_without {a : Action} (h : visible hidden a = true) (s : State) :
    step b (s.without hidden) a = (step b s a).map (State.without hidden) := by
  cases a with
  | perform a => exact perform_without a none s
  | call c kind target =>
      have hc : hidden c = false := by simpa [visible, Action.caller] using h
      have hresponded : (s.without hidden).responded target = s.responded target := rfl
      simp only [step, calls_without s hc, hresponded]
      split
      · exact congrArg some (without_put s hc _).symm
      · rfl
  | cancel c =>
      have hc : hidden c = false := by simpa [visible, Action.caller] using h
      simp only [step, calls_without s hc]
      cases s.calls c with
      | none => rfl
      | some call => exact cancel_without hc s
  | resume c taskId now =>
      have hc : hidden c = false := by simpa [visible, Action.caller] using h
      simp only [step, calls_without s hc]
      cases s.calls c with
      | none => rfl
      | some call => exact resume_without hc taskId now s

theorem calls_perform {a : TaskAdmission.Action} {parent : Option Nat}
    (h : perform b a parent s = some t) : t.calls = s.calls := by
  obtain ⟨admission, -, heq⟩ := Option.bind_eq_some_iff.mp h
  cases heq
  rfl

/-- How a call comes to a phase in which it has submitted nothing. -/
inductive Follows (s : State) (a : Action) (c : Nat) (call : Call) : Phase → Prop where
  | cancelled (h : a = .cancel c) : Follows s a c call (.waiting true)
  | interrupted (h : call.phase = .waiting true) : Follows s a c call (.raised .cancelled)
  | failed (how : RunnerEnd) (why : Refusal) (hend : s.taskEnd call.target = some how)
      (h : awaitTerminal how = .error why) : Follows s a c call (.raised why)
  | refused (invalid : Option Exc) (how : RunnerEnd) (data : BridgeEventData) (why : Refusal)
      (hkind : call.kind = .next invalid) (hend : s.taskEnd call.target = some how)
      (hterminal : awaitTerminal how = .ok data) (h : refusal invalid data = some why) :
      Follows s a c call (.raised why)
  | returned (how : RunnerEnd) (data : BridgeEventData) (hkind : call.kind = .direct)
      (hend : s.taskEnd call.target = some how) (hterminal : awaitTerminal how = .ok data) :
      Follows s a c call .returned

/-- What a call's own step makes of it. -/
inductive Turns (b : CircuitBreaker) (s : State) (a : Action) (c : Nat) (call : Call) :
    State → Prop where
  | stays (done : TaskAdmission.Action) (t : State) (hperform : perform b done none s = some t)
      (hsent : call.kind = .direct ∨ ∃ child, call.phase = .continued child) :
      Turns b s a c call t
  | moved (cancelled : Bool) (phase : Phase) (hbefore : call.phase = .waiting cancelled)
      (h : Follows s a c call phase) : Turns b s a c call (s.put c { call with phase })
  | continued (t : State) (invalid : Option Exc) (how : RunnerEnd) (data : BridgeEventData)
      (taskId : Text) (now : Rat) (hbefore : call.phase = .waiting false)
      (hkind : call.kind = .next invalid) (hend : s.taskEnd call.target = some how)
      (hterminal : awaitTerminal how = .ok data) (hrefusal : refusal invalid data = none)
      (hperform : perform b (.submit taskId taskContinuation now) (some call.target) s =
        some t) :
      Turns b s a c call
        (t.put c { call with phase := .continued s.admission.submissions.length })

theorem Follows.not_continued {a : Action} {phase : Phase} (h : Follows s a c call phase)
    (child : Nat) : phase ≠ .continued child := by
  cases h with
  | cancelled | interrupted | failed | refused | returned => intro hcontinued; cases hcontinued

theorem cancel_turns (h : cancel b c call s = some t) : Turns b s (.cancel c) c call t := by
  rw [cancel] at h
  split at h
  · next cancelled hphase =>
      split at h
      · next hkind _ =>
          exact .stays _ t h (.inl hkind)
      · cases h
        exact .moved cancelled _ hphase (.cancelled rfl)
  · next child hphase => exact .stays _ t h (.inr ⟨child, hphase⟩)
  · cases h
  · cases h

theorem resume_turns {a : Action} {taskId : Text} {now : Rat}
    (h : resume b c call taskId now s = some t) : Turns b s a c call t := by
  rw [resume] at h
  split at h
  · next hphase =>
      cases h
      exact .moved true _ hphase (.interrupted hphase)
  · next hphase =>
      obtain ⟨how, hend, h⟩ := Option.bind_eq_some_iff.mp h
      split at h
      · next _ why hterminal =>
          cases h
          exact .moved false _ hphase (.failed how why hend hterminal)
      · next data hterminal hkind =>
          cases h
          exact .moved false _ hphase (.returned how data hkind hend hterminal)
      · next data invalid hterminal hkind =>
          split at h
          · next why hrefusal =>
              cases h
              exact .moved false _ hphase (.refused invalid how data why hkind hend hterminal
                hrefusal)
          · next hrefusal =>
              obtain ⟨submitted, hsubmitted, h⟩ := Option.bind_eq_some_iff.mp h
              cases h
              exact .continued submitted invalid how data taskId now hphase hkind hend hterminal
                hrefusal hsubmitted
  · cases h
  · cases h
  · cases h

inductive Effect (b : CircuitBreaker) (s : State) : Action → State → Prop where
  | performed (a : TaskAdmission.Action) (t : State) (h : perform b a none s = some t) :
      Effect b s (.perform a) t
  | called (c : Nat) (kind : Kind) (target : Nat) (hnew : s.calls c = none)
      (hresponded : s.responded target = true) :
      Effect b s (.call c kind target) (s.put c { kind, target })
  | turned (a : Action) (c : Nat) (call : Call) (t : State) (ha : a.caller = some c)
      (hget : s.calls c = some call) (h : Turns b s a c call t) : Effect b s a t

theorem step_effect {a : Action} (h : step b s a = some t) : Effect b s a t := by
  cases a with
  | perform a => exact .performed a t h
  | call c kind target =>
      obtain ⟨⟨hnew, hresponded⟩, heq⟩ := Option.ite_none_right_eq_some.mp h
      cases heq
      exact .called c kind target (Option.isNone_iff_eq_none.mp hnew) hresponded
  | cancel c =>
      obtain ⟨call, hget, h⟩ := Option.bind_eq_some_iff.mp h
      exact .turned _ c call t rfl hget (cancel_turns h)
  | resume c taskId now =>
      obtain ⟨call, hget, h⟩ := Option.bind_eq_some_iff.mp h
      exact .turned _ c call t rfl hget (resume_turns h)

theorem put_calls_self (s : State) (c : Nat) (call : Call) : (s.put c call).calls c = some call :=
  Function.update_self ..

theorem put_calls_ne (s : State) {c c' : Nat} (h : c' ≠ c) (call : Call) :
    (s.put c call).calls c' = s.calls c' :=
  Function.update_of_ne h ..

theorem AllUnsent.before {a : Action} (hstep : step b s a = some t) (h : AllUnsent hidden t) :
    AllUnsent hidden s := by
  intro c' call' hhidden hget'
  have hsame (hcalls : t.calls c' = s.calls c') : Unsent call' :=
    h c' call' hhidden (hcalls.trans hget')
  cases step_effect hstep with
  | performed a t hperform => exact hsame (congrFun (calls_perform hperform) c')
  | called c kind target hnew hresponded =>
      refine hsame (put_calls_ne s ?_ _)
      intro heq
      cases hnew.symm.trans (heq ▸ hget')
  | turned a c call t ha hget hturns =>
      by_cases heq : c' = c
      · cases heq
        cases hget.symm.trans hget'
        cases hturns with
        | stays done t hperform => exact hsame (congrFun (calls_perform hperform) c')
        | moved cancelled phase hbefore hfollows =>
            refine ⟨(h c' _ hhidden (put_calls_self s c' _)).kind, fun child hcontinued => ?_⟩
            cases hbefore.symm.trans hcontinued
        | continued t =>
            exact ((h c' _ hhidden (put_calls_self t c' _)).phase _ rfl).elim
      · cases hturns with
        | stays done t hperform => exact hsame (congrFun (calls_perform hperform) c')
        | moved => exact hsame (put_calls_ne s heq _)
        | continued t invalid how data taskId now hbefore hkind hend hterminal hrefusal hperform =>
            exact hsame ((put_calls_ne t heq _).trans (congrFun (calls_perform hperform) c'))

theorem without_step {a : Action} (hstep : step b s a = some t) (ha : visible hidden a = false)
    (h : AllUnsent hidden t) : t.without hidden = s.without hidden := by
  have hhidden {c : Nat} (hcaller : a.caller = some c) : hidden c = true := by
    simpa [visible, hcaller] using ha
  cases step_effect hstep with
  | performed a t hperform => simp [visible, Action.caller] at ha
  | called c kind target hnew hresponded => exact without_put_hidden s (hhidden rfl) _
  | turned a c call t hcaller hget hturns =>
      cases hturns with
      | stays done t hperform hsent =>
          have hunsent := h c call (hhidden hcaller)
            ((congrFun (calls_perform hperform) c).trans hget)
          cases hsent with
          | inl hdirect => exact (hunsent.kind hdirect).elim
          | inr hcontinued =>
              obtain ⟨child, hchild⟩ := hcontinued
              exact (hunsent.phase child hchild).elim
      | moved => exact without_put_hidden s (hhidden hcaller) _
      | continued t =>
          exact ((h c _ (hhidden hcaller) (put_calls_self t c _)).phase _ rfl).elim

/-- Calls of `next` that have submitted nothing, whether they wait, were cancelled or raised,
have done nothing to any task and to any other call: without them the run is the same. -/
theorem next_waiters_invisible {past : List Action} (h : Run (step b) {} past s)
    (hhidden : AllUnsent hidden s) :
    Run (step b) {} (past.filter (visible hidden)) (s.without hidden) := by
  have hrun := h.erased (State.without hidden) (visible hidden) (I := AllUnsent hidden)
    (fun _ _ _ hstep ht => ht.before hstep)
    (fun t a u hstep ha => (step_without ha t).trans (congrArg _ hstep))
    (fun _ _ _ hstep ha hu => without_step hstep ha hu) hhidden
  rwa [without_init] at hrun

/-- Three calls wait for one task: the first is cancelled, the others submit a child each. -/
def siblings : List Action :=
  [.perform (.submit "root".toList "task_submission".toList 0), .perform (.start 0 0 0),
    .perform (.wake 0 0), .perform (.settle 0 0), .call 0 (.next none) 0, .call 1 (.next none) 0,
    .call 2 (.next none) 0, .cancel 0, .resume 0 [] 0,
    .perform (.finish 0 1 (.ok (.taskCompleted .null))), .resume 1 "first".toList 2,
    .resume 2 "second".toList 2]

theorem next_waiters_invisible_siblings :
    ∃ s, Run (step Breaker.strictBreaker) {} siblings s ∧ s.parents = [none, some 0, some 0] ∧
      Run (step Breaker.strictBreaker) {} (siblings.filter (visible (· == 0)))
        (s.without (· == 0)) := by
  have hend : (siblings.foldlM (step Breaker.strictBreaker) {}).any (fun s =>
      s.parents == [none, some 0, some 0] &&
        s.calls 0 == some ⟨.next none, 0, .raised .cancelled⟩) = true := by decide +kernel
  obtain ⟨s, hfold, hs⟩ := (Option.any_eq_true _ _).mp hend
  simp only [Bool.and_eq_true, beq_iff_eq] at hs
  have hrun := Run.of_foldlM hfold
  refine ⟨s, hrun, hs.1, next_waiters_invisible hrun fun c call hc hget => ?_⟩
  cases beq_iff_eq.mp hc
  cases hs.2.symm.trans hget
  refine ⟨?_, fun child => ?_⟩
  · intro hdirect
    cases hdirect
  · intro hcontinued
    cases hcontinued

end Erasure

/-! ## What is settled stays -/

/-- What has ended in a submission stays as it ended. -/
structure Outlives (sub sub' : Submission) : Prop where
  runner : ∀ how, sub.runner = .ended how → sub'.runner = .ended how
  submitter : ∀ outcome, sub.submitter = .ended outcome → sub'.submitter = .ended outcome

theorem Outlives.refl (sub : Submission) : Outlives sub sub := ⟨fun _ => id, fun _ => id⟩

theorem outlives_of_moves {sub sub' : Submission} {endsFlow : Bool}
    (h : TaskAdmission.Moves sub sub' endsFlow) : Outlives sub sub' := by
  constructor
  · intro how hended
    cases h with
    | unstarted h | turnedAway _ h _ | turnedAwayLate _ h _ | abandoned h _ | admitted _ h _
    | gaveUpEarly _ _ h | runnerCancelled _ h => cases h.symm.trans hended
    | gaveUp | granted | cancelled | cancelledLate | interrupted | unsettled => exact hended
  · intro outcome hended
    cases h with
    | gaveUpEarly _ h _ | gaveUp _ h _ | granted h _ | cancelled _ h _ | cancelledLate _ h _
    | interrupted _ _ h _ | unsettled _ h => cases h.symm.trans hended
    | unstarted | turnedAway | turnedAwayLate | abandoned | admitted | runnerCancelled =>
        exact hended

theorem outlives_of_ends {sub : Submission} {outcome : TaskAdmission.Outcome} {endsFlow : Bool}
    (h : TaskAdmission.Ends sub outcome endsFlow) :
    Outlives sub { sub with submitter := .ended outcome } := by
  refine ⟨fun _ => id, fun outcome' hended => ?_⟩
  cases h with
  | gaveUp _ h _ | turnedAway _ h _ | joined _ h _ | interrupted _ h _ | returned h
  | unsettled h => cases h.symm.trans hended

theorem outlives_set {submissions : List Submission} {i j : Nat} {sub before after : Submission}
    (hget : submissions[i]? = some sub) (hbefore : submissions[j]? = some before)
    (h : Outlives before after) :
    ∃ sub', (submissions.set j after)[i]? = some sub' ∧ Outlives sub sub' := by
  by_cases heq : j = i
  · cases heq
    cases hbefore.symm.trans hget
    exact ⟨after, List.getElem?_set_self (List.getElem?_eq_some_iff.mp hget).1, h⟩
  · exact ⟨sub, (List.getElem?_set_ne heq).trans hget, .refl sub⟩

section Admission
variable {b : CircuitBreaker} {s t : TaskAdmission.State} {a : TaskAdmission.Action}

theorem outlives_of_effect (h : TaskAdmission.Effect b s a t) {i : Nat} {sub : Submission}
    (hget : s.submissions[i]? = some sub) :
    ∃ sub', t.submissions[i]? = some sub' ∧ Outlives sub sub' := by
  cases h with
  | submitted =>
      have hlt := (List.getElem?_eq_some_iff.mp hget).1
      exact ⟨sub, (List.getElem?_append_left hlt).trans hget, .refl sub⟩
  | stays => exact ⟨sub, hget, .refl sub⟩
  | moved _ j other other' endsFlow _ _ _ hother hmoves =>
      cases endsFlow <;> exact outlives_set hget hother (outlives_of_moves hmoves)
  | finished j other n now result breaker hother hrunner =>
      refine outlives_set hget hother ⟨fun how hended => ?_, fun _ => id⟩
      cases hrunner.symm.trans hended
  | ended _ j other outcome endsFlow now _ hother hends =>
      cases endsFlow <;> cases outcome <;>
        exact outlives_set hget hother (outlives_of_ends hends)

theorem length_of_effect (h : TaskAdmission.Effect b s a t) (ha : a.submission ≠ none) :
    t.submissions.length = s.submissions.length := by
  cases h with
  | submitted => exact (ha rfl).elim
  | stays => rfl
  | moved _ j _ other' endsFlow => cases endsFlow <;> exact List.length_set
  | finished => exact List.length_set
  | ended _ j _ outcome endsFlow =>
      cases endsFlow <;> cases outcome <;> exact List.length_set

end Admission

section Kept
variable {b : CircuitBreaker} {s t : State} {a : TaskAdmission.Action} {parent : Option Nat}
  {i : Nat}

theorem taskEnd_eq_some {how : RunnerEnd} : s.taskEnd i = some how ↔
    ∃ sub, s.admission.submissions[i]? = some sub ∧ sub.runner = .ended how := by
  rw [State.taskEnd]
  cases s.admission.submissions[i]? with
  | none => simp
  | some sub => cases hrunner : sub.runner <;> simp [hrunner]

theorem responded_eq_true : s.responded i = true ↔
    ∃ sub, s.admission.submissions[i]? = some sub ∧ sub.submitter = .ended .returned := by
  rw [State.responded]
  cases s.admission.submissions[i]? with
  | none => simp
  | some sub =>
      cases hsubmitter : sub.submitter with
      | ended outcome => cases outcome <;> simp [hsubmitter]
      | waiting _ | joining _ | settling _ => simp [hsubmitter]

theorem perform_admission (h : perform b a parent s = some t) :
    TaskAdmission.step b s.admission a = some t.admission ∧ t.trace = s.trace ++ [a] := by
  obtain ⟨admission, hstep, heq⟩ := Option.bind_eq_some_iff.mp h
  cases heq
  exact ⟨hstep, rfl⟩

theorem taskEnd_perform (h : perform b a parent s = some t) {how : RunnerEnd}
    (hend : s.taskEnd i = some how) : t.taskEnd i = some how := by
  obtain ⟨sub, hget, hrunner⟩ := taskEnd_eq_some.mp hend
  obtain ⟨sub', hget', houtlives⟩ :=
    outlives_of_effect (TaskAdmission.step_effect (perform_admission h).1) hget
  exact taskEnd_eq_some.mpr ⟨sub', hget', houtlives.runner how hrunner⟩

theorem responded_perform (h : perform b a parent s = some t) (hresponded : s.responded i = true) :
    t.responded i = true := by
  obtain ⟨sub, hget, hsubmitter⟩ := responded_eq_true.mp hresponded
  obtain ⟨sub', hget', houtlives⟩ :=
    outlives_of_effect (TaskAdmission.step_effect (perform_admission h).1) hget
  exact responded_eq_true.mpr ⟨sub', hget', houtlives.submitter _ hsubmitter⟩

/-- A step adds at most one submission, and its parent. -/
theorem parents_perform (h : perform b a parent s = some t)
    (hs : s.parents.length = s.admission.submissions.length) :
    t.parents.length = t.admission.submissions.length ∧
      (t.parents = s.parents ∧ a.submission ≠ none ∨
        t.parents = s.parents ++ [parent] ∧ a.submission = none) := by
  obtain ⟨admission, hstep, heq⟩ := Option.bind_eq_some_iff.mp h
  cases heq
  have hsame (ha : a.submission ≠ none) : admission.submissions.length = s.parents.length :=
    (length_of_effect (TaskAdmission.step_effect hstep) ha).trans hs.symm
  cases a with
  | submit taskId operationName now =>
      cases hstep
      refine ⟨?_, .inr ⟨rfl, rfl⟩⟩
      simp [hs]
  | start | finish | wake | join | settle | cancelRunner | cancelSubmitter =>
      exact ⟨(hsame nofun).symm, .inl ⟨rfl, nofun⟩⟩

end Kept

/-! ## Lineage -/

/-- The task has completed: it was neither stopped nor failed. -/
def State.Completed (s : State) (i : Nat) : Prop :=
  ∃ data, s.taskEnd i = some (.finished (.ok data)) ∧ refusal none data = none

/-- What the task's end and the cancellations make of a call. -/
def Explained (past : List Action) (s : State) (c : Nat) (call : Call) : Prop :=
  match call.phase with
  | .waiting cancelled => cancelled = true → .cancel c ∈ past
  | .continued child => s.parents[child]? = some (some call.target) ∧ call.kind ≠ .direct
  | .returned => ∃ data, s.taskEnd call.target = some (.finished (.ok data))
  | .raised why =>
      why = .cancelled ∧ .cancel c ∈ past ∨
        ∃ how, s.taskEnd call.target = some how ∧
          (awaitTerminal how = .error why ∨
            ∃ invalid data, call.kind = .next invalid ∧ how = .finished (.ok data) ∧
              refusal invalid data = some why)

structure Lineage (b : CircuitBreaker) (past : List Action) (s : State) : Prop where
  admitted : Run (TaskAdmission.step b) {} s.trace s.admission
  length : s.parents.length = s.admission.submissions.length
  responded : ∀ (c : Nat) (call : Call), s.calls c = some call → s.responded call.target = true
  explained : ∀ (c : Nat) (call : Call), s.calls c = some call → Explained past s c call
  parent : ∀ child p : Nat, s.parents[child]? = some (some p) →
    p < child ∧ s.Completed p ∧
      ∃ c call, s.calls c = some call ∧ call.target = p ∧ call.phase = .continued child
  once : ∀ (c c' child : Nat) (call call' : Call), s.calls c = some call →
    s.calls c' = some call' → call.phase = .continued child →
    call'.phase = .continued child → c = c'

section Runs
variable {b : CircuitBreaker} {s t : State} {past : List Action} {x : Action} {c : Nat}
  {call : Call}

theorem terminal_eq {how : RunnerEnd} {data : BridgeEventData}
    (h : awaitTerminal how = .ok data) : how = .finished (.ok data) := by
  rw [awaitTerminal.eq_def] at h
  split at h
  · cases h
    rfl
  all_goals cases h

theorem refusal_none {invalid : Option Exc} {data : BridgeEventData}
    (h : refusal invalid data = none) : refusal none data = none := by
  cases data with
  | taskStopped | taskError => cases h
  | contentDelta | contentReset | toolUse | taskCompleted => rfl

theorem Explained.kept (h : Explained past s c call)
    (hend : ∀ i how, s.taskEnd i = some how → t.taskEnd i = some how)
    (hparents : ∀ child p : Nat, s.parents[child]? = some (some p) →
      t.parents[child]? = some (some p)) : Explained (past ++ [x]) t c call := by
  rw [Explained] at h ⊢
  cases hphase : call.phase with
  | waiting cancelled =>
      rw [hphase] at h
      exact fun hcancelled => List.mem_append_left _ (h hcancelled)
  | continued child =>
      rw [hphase] at h
      exact ⟨hparents child call.target h.1, h.2⟩
  | returned =>
      rw [hphase] at h
      obtain ⟨data, hdata⟩ := h
      exact ⟨data, hend _ _ hdata⟩
  | raised why =>
      rw [hphase] at h
      refine h.imp (And.imp_right (List.mem_append_left _)) fun hraised => ?_
      obtain ⟨how, hhow, hwhy⟩ := hraised
      exact ⟨how, hend _ _ hhow, hwhy⟩

theorem Follows.explained {phase : Phase} (h : Follows s x c call phase)
    (hbefore : Explained past s c call) :
    Explained (past ++ [x]) (s.put c { call with phase }) c { call with phase } := by
  cases h with
  | cancelled h =>
      exact fun _ => List.mem_append_right _ (List.mem_singleton.mpr h.symm)
  | interrupted h =>
      rw [Explained, h] at hbefore
      exact .inl ⟨rfl, List.mem_append_left _ (hbefore rfl)⟩
  | failed how why hend h => exact .inr ⟨how, hend, .inl h⟩
  | refused invalid how data why hkind hend hterminal h =>
      exact .inr ⟨how, hend, .inr ⟨invalid, data, hkind, terminal_eq hterminal, h⟩⟩
  | returned how data hkind hend hterminal => exact ⟨data, terminal_eq hterminal ▸ hend⟩

theorem lineage_init (b : CircuitBreaker) : Lineage b [] {} where
  admitted := .nil
  length := rfl
  responded := fun _ _ hget => by cases hget
  explained := fun _ _ hget => by cases hget
  parent := by simp
  once := fun _ _ _ _ _ hget => by cases hget

theorem Lineage.perform {a : TaskAdmission.Action} (hs : Lineage b past s)
    (h : Conversation.perform b a none s = some t) : Lineage b (past ++ [x]) t := by
  have hcalls := calls_perform h
  obtain ⟨hlength, hparents⟩ := parents_perform h hs.length
  have hforward (child p : Nat) (hp : s.parents[child]? = some (some p)) :
      t.parents[child]? = some (some p) := by
    cases hparents with
    | inl hsame => exact hsame.1 ▸ hp
    | inr hnew =>
        rw [hnew.1]
        exact (List.getElem?_append_left (List.getElem?_eq_some_iff.mp hp).1).trans hp
  have hback (child p : Nat) (hp : t.parents[child]? = some (some p)) :
      s.parents[child]? = some (some p) := by
    cases hparents with
    | inl hsame => exact hsame.1 ▸ hp
    | inr hnew =>
        rw [hnew.1] at hp
        cases getElem?_concat_eq_some hp with
        | inl hold => exact hold
        | inr hlast => cases hlast.2
  refine ⟨?_, hlength, ?_, ?_, ?_, ?_⟩
  · rw [(perform_admission h).2]
    exact .snoc hs.admitted (perform_admission h).1
  · rw [hcalls]
    exact fun c call hget => responded_perform h (hs.responded c call hget)
  · rw [hcalls]
    exact fun c call hget =>
      (hs.explained c call hget).kept (fun _ _ => taskEnd_perform h) hforward
  · rw [hcalls]
    intro child p hp
    obtain ⟨hlt, ⟨data, hend, hdata⟩, hcall⟩ := hs.parent child p (hback child p hp)
    exact ⟨hlt, ⟨data, taskEnd_perform h hend, hdata⟩, hcall⟩
  · rw [hcalls]
    exact hs.once

theorem put_calls {s : State} {c c' : Nat} {call call' : Call}
    (h : (s.put c call).calls c' = some call') :
    c' = c ∧ call' = call ∨ c' ≠ c ∧ s.calls c' = some call' := by
  by_cases heq : c' = c
  · cases heq
    exact .inl ⟨rfl, Option.some.inj (h.symm.trans (put_calls_self s c call))⟩
  · exact .inr ⟨heq, (put_calls_ne s heq call).symm.trans h⟩

/-- A call changes that has submitted nothing, before and after. -/
theorem Lineage.put (hs : Lineage b past s) (hresponded : s.responded call.target = true)
    (hexplained : Explained (past ++ [x]) (s.put c call) c call)
    (hafter : ∀ child, call.phase ≠ .continued child)
    (hbefore : ∀ old, s.calls c = some old → ∀ child, old.phase ≠ .continued child) :
    Lineage b (past ++ [x]) (s.put c call) := by
  refine ⟨hs.admitted, hs.length, ?_, ?_, ?_, ?_⟩
  · intro c' call' hget
    cases put_calls hget with
    | inl hsame => exact hsame.2 ▸ hresponded
    | inr hother => exact hs.responded c' call' hother.2
  · intro c' call' hget
    cases put_calls hget with
    | inl hsame =>
        obtain ⟨rfl, rfl⟩ := hsame
        exact hexplained
    | inr hother => exact (hs.explained c' call' hother.2).kept (fun _ _ => id) fun _ _ => id
  · intro child p hp
    obtain ⟨hlt, hcompleted, c', call', hget, htarget, hphase⟩ := hs.parent child p hp
    have hne : c' ≠ c := fun heq => hbefore call' (heq ▸ hget) child hphase
    exact ⟨hlt, hcompleted, c', call', (put_calls_ne s hne call).trans hget, htarget, hphase⟩
  · intro c₁ c₂ child call₁ call₂ hget₁ hget₂ hphase₁ hphase₂
    cases put_calls hget₁ with
    | inl hsame => exact (hafter child (hsame.2 ▸ hphase₁)).elim
    | inr hother₁ =>
        cases put_calls hget₂ with
        | inl hsame => exact (hafter child (hsame.2 ▸ hphase₂)).elim
        | inr hother₂ => exact hs.once c₁ c₂ child call₁ call₂ hother₁.2 hother₂.2 hphase₁ hphase₂

theorem Lineage.called (hs : Lineage b past s) {kind : Kind} {target : Nat}
    (hnew : s.calls c = none) (hresponded : s.responded target = true) :
    Lineage b (past ++ [x]) (s.put c { kind, target }) := by
  refine hs.put hresponded (fun hcancelled => by cases hcancelled)
    (fun _ hcontinued => by cases hcontinued) fun old hold => ?_
  cases hnew.symm.trans hold

theorem Lineage.continued (hs : Lineage b past s) (hget : s.calls c = some call)
    {invalid : Option Exc} {how : RunnerEnd} {data : BridgeEventData} {taskId operation : Text}
    {now : Rat} (hbefore : call.phase = .waiting false) (hkind : call.kind = .next invalid)
    (hend : s.taskEnd call.target = some how) (hterminal : awaitTerminal how = .ok data)
    (hrefusal : refusal invalid data = none)
    (h : Conversation.perform b (.submit taskId operation now) (some call.target) s = some t) :
    Lineage b (past ++ [x])
      (t.put c { call with phase := .continued s.admission.submissions.length }) := by
  have hcalls := calls_perform h
  obtain ⟨hlength, hparents⟩ := parents_perform h hs.length
  have hadded : t.parents = s.parents ++ [some call.target] := by
    cases hparents with
    | inl hsame => exact (hsame.2 rfl).elim
    | inr hnew => exact hnew.1
  have hforward (child p : Nat) (hp : s.parents[child]? = some (some p)) :
      t.parents[child]? = some (some p) := by
    rw [hadded]
    exact (List.getElem?_append_left (List.getElem?_eq_some_iff.mp hp).1).trans hp
  have hchild : t.parents[s.admission.submissions.length]? = some (some call.target) := by
    rw [hadded, ← hs.length]
    exact List.getElem?_concat_length
  -- Every earlier child was submitted before this one.
  have hearlier {c' child : Nat} {call' : Call} (hget' : s.calls c' = some call')
      (hphase : call'.phase = .continued child) : child < s.admission.submissions.length := by
    have hexplained := hs.explained c' call' hget'
    rw [Explained, hphase] at hexplained
    rw [← hs.length]
    exact (List.getElem?_eq_some_iff.mp hexplained.1).1
  have hcompleted : s.Completed call.target :=
    ⟨data, terminal_eq hterminal ▸ hend, refusal_none hrefusal⟩
  refine ⟨?_, hlength, ?_, ?_, ?_, ?_⟩
  · rw [State.put, (perform_admission h).2]
    exact .snoc hs.admitted (perform_admission h).1
  · intro c' call' hget'
    cases put_calls hget' with
    | inl hsame =>
        rw [hsame.2]
        exact responded_perform (t := t) h (hs.responded c call hget)
    | inr hother =>
        exact responded_perform (t := t) h (hs.responded c' call' (hcalls ▸ hother.2))
  · intro c' call' hget'
    cases put_calls hget' with
    | inl hsame =>
        obtain ⟨rfl, rfl⟩ := hsame
        exact ⟨hchild, fun hdirect => by cases hkind.symm.trans hdirect⟩
    | inr hother =>
        exact (hs.explained c' call' (hcalls ▸ hother.2)).kept
          (fun _ _ => taskEnd_perform h) hforward
  · intro child p hp
    change t.parents[child]? = some (some p) at hp
    rw [hadded] at hp
    cases getElem?_concat_eq_some hp with
    | inl hold =>
        obtain ⟨hlt, ⟨result, hresult, hdata⟩, c', call', hget', htarget, hphase⟩ :=
          hs.parent child p hold
        have hne : c' ≠ c := by
          rintro rfl
          cases hget.symm.trans hget'
          cases hbefore.symm.trans hphase
        exact ⟨hlt, ⟨result, taskEnd_perform h hresult, hdata⟩, c', call',
          (put_calls_ne t hne _).trans (hcalls ▸ hget'), htarget, hphase⟩
    | inr hlast =>
        obtain ⟨rfl, hparent⟩ := hlast
        cases hparent
        obtain ⟨sub, hsub, -⟩ := responded_eq_true.mp (hs.responded c call hget)
        obtain ⟨result, hresult, hdata⟩ := hcompleted
        rw [hs.length]
        exact ⟨(List.getElem?_eq_some_iff.mp hsub).1, ⟨result, taskEnd_perform h hresult, hdata⟩,
          c, _, put_calls_self t c _, rfl, rfl⟩
  · intro c₁ c₂ child call₁ call₂ hget₁ hget₂ hphase₁ hphase₂
    cases put_calls hget₁ with
    | inl hsame₁ =>
        cases put_calls hget₂ with
        | inl hsame₂ => exact hsame₁.1.trans hsame₂.1.symm
        | inr hother₂ =>
            have hlt := hearlier (hcalls ▸ hother₂.2) hphase₂
            rw [hsame₁.2] at hphase₁
            cases hphase₁
            exact (Nat.lt_irrefl _ hlt).elim
    | inr hother₁ =>
        cases put_calls hget₂ with
        | inl hsame₂ =>
            have hlt := hearlier (hcalls ▸ hother₁.2) hphase₁
            rw [hsame₂.2] at hphase₂
            cases hphase₂
            exact (Nat.lt_irrefl _ hlt).elim
        | inr hother₂ =>
            exact hs.once c₁ c₂ child call₁ call₂ (hcalls ▸ hother₁.2) (hcalls ▸ hother₂.2)
              hphase₁ hphase₂

theorem Lineage.step (hs : Lineage b past s) (hstep : step b s x = some t) :
    Lineage b (past ++ [x]) t := by
  cases step_effect hstep with
  | performed a t hperform => exact hs.perform hperform
  | called c kind target hnew hresponded => exact hs.called hnew hresponded
  | turned a c call t ha hget hturns =>
      cases hturns with
      | stays done t hperform => exact hs.perform hperform
      | moved cancelled phase hbefore hfollows =>
          refine hs.put (hs.responded c call hget) (hfollows.explained (hs.explained c call hget))
            hfollows.not_continued fun old hold child hcontinued => ?_
          cases hget.symm.trans hold
          cases hbefore.symm.trans hcontinued
      | continued t invalid how data taskId now hbefore hkind hend hterminal hrefusal hperform =>
          exact hs.continued hget hbefore hkind hend hterminal hrefusal hperform

theorem lineage_of_run (h : Run (step b) {} past s) : Lineage b past s :=
  h.invariant (I := Lineage b) (lineage_init b) fun _ _ _ _ hs hstep => hs.step hstep

end Runs

/-- Conversations are runs of submissions. A child has one parent, which completed before
it was submitted, and one call that submitted it; what a call ends with is what the end of
its task makes of it, or its own cancellation. -/
theorem conversation_lineage (b : CircuitBreaker) {past : List Action} {s : State}
    (h : Run (step b) {} past s) :
    Run (TaskAdmission.step b) {} s.trace s.admission ∧
    s.parents.length = s.admission.submissions.length ∧
    (∀ child p : Nat, s.parents[child]? = some (some p) →
      p < child ∧ s.Completed p ∧
        ∃ c call, s.calls c = some call ∧ call.target = p ∧ call.phase = .continued child ∧
          ∀ c' call', s.calls c' = some call' → call'.phase = .continued child → c' = c) ∧
    ∀ c call, s.calls c = some call → Explained past s c call := by
  have hs := lineage_of_run h
  refine ⟨hs.admitted, hs.length, fun child p hp => ?_, hs.explained⟩
  obtain ⟨hlt, hcompleted, c, call, hget, htarget, hphase⟩ := hs.parent child p hp
  exact ⟨hlt, hcompleted, c, call, hget, htarget, hphase, fun c' call' hget' hphase' =>
    hs.once c' c child call' call hget' hget hphase' hphase⟩

theorem conversation_lineage_siblings :
    ∃ s, Run (step Breaker.strictBreaker) {} siblings s ∧ s.parents[1]? = some (some 0) ∧
      ∃ c, (∃ call, s.calls c = some call ∧ call.phase = .continued 1) ∧
        ∀ c' call', s.calls c' = some call' → call'.phase = .continued 1 → c' = c := by
  have hend : (siblings.foldlM (step Breaker.strictBreaker) {}).any (fun s =>
      s.parents[1]? == some (some 0)) = true := by decide +kernel
  obtain ⟨s, hfold, hs⟩ := (Option.any_eq_true _ _).mp hend
  have hrun := Run.of_foldlM hfold
  have hparent := beq_iff_eq.mp hs
  obtain ⟨-, -, c, call, hget, -, hphase, honly⟩ :=
    (conversation_lineage Breaker.strictBreaker hrun).2.2.1 1 0 hparent
  exact ⟨s, hrun, hparent, c, ⟨call, hget, hphase⟩, honly⟩

end DualeAI.Conversation
