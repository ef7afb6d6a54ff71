import DualeAI.Foundation.AsyncSemaphore
import DualeAI.Sdk.ToolReplay

/-!
The executions of tool uses over `_tool_execution_semaphore` itself.

The dispatch of `ToolDispatch` takes a place in the semaphore in one step, where fewer
than `maxConcurrentTools` executions hold one. Here a task asks for its permit, waits in
the queue, is woken or cancelled, and gives the permit back where its block ends. No
step looks at how many executions hold a permit.
-/
namespace DualeAI.ToolConcurrency
open Foundation Dispatch

structure State where
  dispatch : Dispatch.State := {}
  semaphore : AsyncSemaphore

inductive Action where
  /-- A delivery, the end of a submission, or a stretch of an execution that does not
  enter the semaphore. -/
  | event (a : Dispatch.Action)
  /-- The first step of an `_execute_tool_use` task. -/
  | enter (n : Nat)
  /-- The task goes on behind the await of `acquire()`. -/
  | resume (n : Nat)
  /-- `cancel()` of a task that waits there. -/
  | cancel (n : Nat)

section Steps
variable (D : Dispatcher)

def initial : State := { semaphore := { value := D.maxConcurrentTools } }

def holds (n : Nat) (s : Dispatch.State) : Bool :=
  (s.executions[n]?).any fun e => e.phase.holdsSemaphore

/-- `_schedule_tool_use` starts a task for each execution it makes. -/
def schedule (a : Dispatch.Action) (s : State) : Option State := do
  let dispatch ← Dispatch.step D s.dispatch a
  if s.dispatch.executions.length < dispatch.executions.length then
    some { dispatch, semaphore := s.semaphore.join }
  else some { s with dispatch }

/-- A stretch of the block, which may be its last one. -/
def insideBlock (n : Nat) (a : Dispatch.Action) (s : State) : Option State := do
  let dispatch ← Dispatch.step D s.dispatch a
  if holds n dispatch then some { s with dispatch }
  else
    let semaphore ← s.semaphore.release n
    some { dispatch, semaphore }

def step (s : State) : Action → Option State
  | .event a =>
      match a.execution with
      | none => schedule D a s
      | some n =>
          match s.semaphore.stages[n]?, a with
          | some .inside, _ => insideBlock D n a s
          -- The task is cancelled before its first step.
          | some .outside, .abort _ => do
              let dispatch ← Dispatch.step D s.dispatch a
              some { s with dispatch }
          | _, _ => none
  | .enter n => do
      let e ← s.dispatch.executions[n]?
      if e.phase = .queued then
        let semaphore ← s.semaphore.acquire n
        if semaphore.stages[n]? = some .inside then
          some { dispatch := s.dispatch.setPhase n (.ready 1), semaphore }
        else some { s with semaphore }
      else none
  | .resume n => do
      let semaphore ← s.semaphore.resume n
      let phase := if semaphore.stages[n]? = some .inside then .ready 1 else .aborted
      some { dispatch := s.dispatch.setPhase n phase, semaphore }
  | .cancel n => do
      let semaphore ← s.semaphore.cancel n
      some { s with semaphore }

def Action.entering : Action → Option Nat
  | .enter n => some n
  | .event _ | .resume _ | .cancel _ => none

/-- How many executions are in their block. -/
def running (s : State) : Nat :=
  (s.dispatch.executions.filter fun e => e.phase.holdsSemaphore).length

/-- Its future is registered and not done. -/
def Waits (n : Nat) (s : State) : Prop := s.semaphore.seats[n]? = some .pending

end Steps

/-! ## What the two sides know of each other -/

/-- How the phase of an execution goes with the stage of its task. -/
def Agrees (phase : Phase) (stage : Seat.Stage) : Prop :=
  phase.holdsSemaphore = (stage == .inside) ∧ (stage = .waiting → phase = .queued)

def Linked (s : State) : Prop :=
  List.Forall₂ (fun e stage => Agrees e.phase stage) s.dispatch.executions s.semaphore.stages

theorem length_filter_of_agrees {executions : List Execution} {stages : List Seat.Stage}
    (h : List.Forall₂ (fun e stage => Agrees e.phase stage) executions stages) :
    (executions.filter fun e => e.phase.holdsSemaphore).length = stages.count .inside := by
  induction h with
  | nil => rfl
  | cons hhead htail ih =>
      rw [List.filter_cons, List.count_cons, hhead.1, ← ih]
      split <;> rfl

theorem Linked.running_eq {s : State} (h : Linked s) : running s = s.semaphore.inside :=
  length_filter_of_agrees h

theorem Linked.agrees {s : State} {n : Nat} {e : Execution} {stage : Seat.Stage} (h : Linked s)
    (hget : s.dispatch.executions[n]? = some e) (hstage : s.semaphore.stages[n]? = some stage) :
    Agrees e.phase stage := by
  obtain ⟨hlt, rfl⟩ := List.getElem?_eq_some_iff.mp hget
  obtain ⟨hlt', rfl⟩ := List.getElem?_eq_some_iff.mp hstage
  exact h.get hlt hlt'

theorem Linked.execution {s : State} {n : Nat} {stage : Seat.Stage} (h : Linked s)
    (hstage : s.semaphore.stages[n]? = some stage) :
    ∃ e, s.dispatch.executions[n]? = some e ∧ Agrees e.phase stage := by
  have hlt := (List.getElem?_eq_some_iff.mp hstage).1
  rw [← h.length_eq] at hlt
  have hget := List.getElem?_eq_getElem hlt
  exact ⟨_, hget, h.agrees hget hstage⟩

/-! ## What a step does to the dispatch and to the semaphore -/

section Effects
variable {D : Dispatcher}

theorem executions_of_schedule {a : Dispatch.Action} {s t : Dispatch.State}
    (ha : a.execution = none) (h : Dispatch.step D s a = some t) :
    t.executions = s.executions ∨
      ∃ e : Execution, e.phase = .queued ∧ t.executions = s.executions ++ [e] := by
  cases step_effect h with
  | ignored | resubmitted | duplicate | ended => exact .inl rfl
  | scheduled d deadlineAt hhandles hdeadline hentry => exact .inr ⟨_, rfl, rfl⟩
  | moved a n e phase hn | recorded a n e outcome hn => rw [ha] at hn; cases hn
  | started => cases ha

theorem executions_of_stage {a : Dispatch.Action} {s t : Dispatch.State} {n : Nat}
    (ha : a.execution = some n) (h : Dispatch.step D s a = some t) :
    ∃ f : Execution → Execution, t.executions = s.executions.modify n f ∧
      ∀ e, (f e).phase ≠ .queued := by
  cases step_effect h with
  | ignored | resubmitted | duplicate | scheduled | ended => cases ha
  | moved a m e phase hm hget hmoves =>
      rw [ha] at hm
      cases hm
      refine ⟨_, rfl, fun _ => ?_⟩
      cases hmoves with
      | acquired | expired | raised | retried | aborted => nofun
  | recorded a m e outcome hm =>
      rw [ha] at hm
      cases hm
      refine ⟨_, rfl, fun _ hphase => ?_⟩
      cases hphase
  | started =>
      cases ha
      refine ⟨_, rfl, fun _ hphase => ?_⟩
      cases hphase

theorem step_abort {s t : Dispatch.State} {n : Nat} (h : Dispatch.step D s (.abort n) = some t) :
    t = s.setPhase n .aborted := by
  have hbind : (s.executions[n]?.bind fun e => stage D n e s (.abort n)) = some t := h
  obtain ⟨e, -, hstage⟩ := Option.bind_eq_some_iff.mp hbind
  obtain ⟨-, heq⟩ := Option.ite_none_left_eq_some.mp hstage
  exact (Option.some.inj heq).symm

/-- One step of the system: the call it makes at the semaphore, if any, and what the
dispatch does, if anything. -/
inductive Effect (s : State) : Action → State → Prop where
  | scheduled (a : Dispatch.Action) (dispatch : Dispatch.State)
      (hstep : Dispatch.step D s.dispatch a = some dispatch)
      (hexecutions : dispatch.executions = s.dispatch.executions) :
      Effect s (.event a) { s with dispatch }
  | created (a : Dispatch.Action) (dispatch : Dispatch.State) (e : Execution)
      (hstep : Dispatch.step D s.dispatch a = some dispatch) (hphase : e.phase = .queued)
      (hexecutions : dispatch.executions = s.dispatch.executions ++ [e]) :
      Effect s (.event a) { dispatch, semaphore := s.semaphore.join }
  | continued (a : Dispatch.Action) (n : Nat) (dispatch : Dispatch.State)
      (f : Execution → Execution) (hstep : Dispatch.step D s.dispatch a = some dispatch)
      (hexecutions : dispatch.executions = s.dispatch.executions.modify n f)
      (hphase : ∀ e, (f e).phase ≠ .queued) (hholds : holds n dispatch = true)
      (hstage : s.semaphore.stages[n]? = some .inside) :
      Effect s (.event a) { s with dispatch }
  | left (a : Dispatch.Action) (n : Nat) (dispatch : Dispatch.State)
      (f : Execution → Execution) (semaphore : AsyncSemaphore)
      (hstep : Dispatch.step D s.dispatch a = some dispatch)
      (hexecutions : dispatch.executions = s.dispatch.executions.modify n f)
      (hphase : ∀ e, (f e).phase ≠ .queued) (hholds : holds n dispatch = false)
      (hrelease : s.semaphore.release n = some semaphore) :
      Effect s (.event a) { dispatch, semaphore }
  | dropped (n : Nat) (hstep : Dispatch.step D s.dispatch (.abort n) =
        some (s.dispatch.setPhase n .aborted)) (hstage : s.semaphore.stages[n]? = some .outside) :
      Effect s (.event (.abort n)) { s with dispatch := s.dispatch.setPhase n .aborted }
  | entered (n : Nat) (e : Execution) (semaphore : AsyncSemaphore)
      (hget : s.dispatch.executions[n]? = some e) (hphase : e.phase = .queued)
      (hacquire : s.semaphore.acquire n = some semaphore)
      (hstage : semaphore.stages[n]? = some .inside) :
      Effect s (.enter n) { dispatch := s.dispatch.setPhase n (.ready 1), semaphore }
  | waits (n : Nat) (e : Execution) (semaphore : AsyncSemaphore)
      (hget : s.dispatch.executions[n]? = some e) (hphase : e.phase = .queued)
      (hacquire : s.semaphore.acquire n = some semaphore)
      (hstage : semaphore.stages[n]? ≠ some .inside) : Effect s (.enter n) { s with semaphore }
  | admitted (n : Nat) (semaphore : AsyncSemaphore)
      (hresume : s.semaphore.resume n = some semaphore)
      (hstage : semaphore.stages[n]? = some .inside) :
      Effect s (.resume n) { dispatch := s.dispatch.setPhase n (.ready 1), semaphore }
  | withdrawn (n : Nat) (semaphore : AsyncSemaphore)
      (hresume : s.semaphore.resume n = some semaphore)
      (hstage : semaphore.stages[n]? ≠ some .inside) :
      Effect s (.resume n) { dispatch := s.dispatch.setPhase n .aborted, semaphore }
  | cancelled (n : Nat) (semaphore : AsyncSemaphore)
      (hcancel : s.semaphore.cancel n = some semaphore) : Effect s (.cancel n) { s with semaphore }

theorem event_effect {a : Dispatch.Action} {s t : State} (h : step D s (.event a) = some t) :
    Effect (D := D) s (.event a) t := by
  simp only [step] at h
  split at h
  · next ha =>
      obtain ⟨dispatch, hstep, hbody⟩ := Option.bind_eq_some_iff.mp h
      cases executions_of_schedule ha hstep with
      | inl hsame =>
          rw [if_neg (by rw [hsame]; exact Nat.lt_irrefl _)] at hbody
          cases hbody
          exact .scheduled a dispatch hstep hsame
      | inr hnew =>
          obtain ⟨e, hphase, hexecutions⟩ := hnew
          rw [if_pos (by rw [hexecutions, List.length_append]; exact Nat.lt_succ_self _)] at hbody
          cases hbody
          exact .created a dispatch e hstep hphase hexecutions
  · next n ha =>
      split at h
      · next a _ _ hstage =>
          obtain ⟨dispatch, hstep, hbody⟩ := Option.bind_eq_some_iff.mp h
          obtain ⟨f, hexecutions, hphase⟩ := executions_of_stage ha hstep
          cases hholds : holds n dispatch with
          | true =>
              rw [if_pos hholds] at hbody
              cases hbody
              exact .continued a n dispatch f hstep hexecutions hphase hholds hstage
          | false =>
              rw [if_neg (by simp [hholds])] at hbody
              obtain ⟨semaphore, hrelease, hret⟩ := Option.bind_eq_some_iff.mp hbody
              cases hret
              exact .left a n dispatch f semaphore hstep hexecutions hphase hholds hrelease
      · next m hstage =>
          cases ha
          obtain ⟨dispatch, hstep, hret⟩ := Option.bind_eq_some_iff.mp h
          cases hret
          have habort := step_abort hstep
          subst habort
          exact .dropped n hstep hstage
      · cases h

theorem system_effect {a : Action} {s t : State} (h : step D s a = some t) :
    Effect (D := D) s a t := by
  cases a with
  | event a => exact event_effect h
  | enter n =>
      obtain ⟨e, hget, hbody⟩ := Option.bind_eq_some_iff.mp h
      obtain ⟨hphase, hbody⟩ := Option.ite_none_right_eq_some.mp hbody
      obtain ⟨semaphore, hacquire, hret⟩ := Option.bind_eq_some_iff.mp hbody
      split at hret
      · next hstage => cases hret; exact .entered n e semaphore hget hphase hacquire hstage
      · next hstage => cases hret; exact .waits n e semaphore hget hphase hacquire hstage
  | resume n =>
      obtain ⟨semaphore, hresume, hret⟩ := Option.bind_eq_some_iff.mp h
      cases hret
      by_cases hstage : semaphore.stages[n]? = some .inside
      · rw [if_pos hstage]
        exact .admitted n semaphore hresume hstage
      · rw [if_neg hstage]
        exact .withdrawn n semaphore hresume hstage
  | cancel n =>
      obtain ⟨semaphore, hcancel, hret⟩ := Option.bind_eq_some_iff.mp h
      cases hret
      exact .cancelled n semaphore hcancel

/-! ## What every run keeps -/

theorem holds_eq {n : Nat} {s t : Dispatch.State} {e : Execution} {f : Execution → Execution}
    (hexecutions : t.executions = s.executions.modify n f) (hget : s.executions[n]? = some e) :
    holds n t = (f e).phase.holdsSemaphore := by
  simp [holds, hexecutions, hget]

/-- An execution that never asked for a permit. -/
def Fresh (phase : Phase) (stage : Seat.Stage) : Prop := phase = .queued ∧ stage = .outside

/-- Where one execution and its task move, they still agree, and it is not fresh. -/
structure Moved (s t : State) (n : Nat) (f : Execution → Execution) (stage : Seat.Stage) :
    Prop where
  executions : t.dispatch.executions = s.dispatch.executions.modify n f
  stages : t.semaphore.stages = s.semaphore.stages.set n stage
  agrees : ∀ e, s.dispatch.executions[n]? = some e → Agrees (f e).phase stage
  notFresh : ∀ e, s.dispatch.executions[n]? = some e → ¬ Fresh (f e).phase stage

theorem modify_id (n : Nat) (s : Dispatch.State) : s.executions = s.executions.modify n id := by
  rw [List.modify_id]

theorem Agrees.of_holds {phase : Phase} {stage : Seat.Stage}
    (h : phase.holdsSemaphore = (stage == .inside)) (hwaits : stage ≠ .waiting) :
    Agrees phase stage := ⟨h, fun hstage => absurd hstage hwaits⟩

theorem Effect.tables {a : Action} {s t : State} (h : Effect (D := D) s a t)
    (hsound : s.semaphore.Sound D.maxConcurrentTools) :
    (t.dispatch.executions = s.dispatch.executions ∧
        t.semaphore.stages = s.semaphore.stages ∧ a.entering = none) ∨
      (∃ e : Execution, e.phase = .queued ∧
        t.dispatch.executions = s.dispatch.executions ++ [e] ∧
        t.semaphore.stages = s.semaphore.stages ++ [.outside] ∧ a.entering = none) ∨
      ∃ n f stage, Moved s t n f stage ∧ ∀ m, a.entering = some m → m = n ∧
        ∃ e, s.dispatch.executions[n]? = some e ∧ e.phase = .queued ∧
          s.semaphore.stages[n]? = some .outside := by
  cases h with
  | scheduled a dispatch hstep hexecutions => exact .inl ⟨hexecutions, rfl, rfl⟩
  | created a dispatch e hstep hphase hexecutions =>
      exact .inr (.inl ⟨e, hphase, hexecutions, AsyncSemaphore.stages_join, rfl⟩)
  | continued a n dispatch f hstep hexecutions hphase hholds hstage =>
      refine .inr (.inr ⟨n, f, .inside, ⟨hexecutions, (set_eq_self hstage).symm, fun e hget => ?_,
        fun e _ hfresh => hphase e hfresh.1⟩, nofun⟩)
      exact .of_holds ((holds_eq hexecutions hget).symm.trans hholds) nofun
  | left a n dispatch f semaphore hstep hexecutions hphase hholds hrelease =>
      refine .inr (.inr ⟨n, f, .outside, ⟨hexecutions, (hsound.release hrelease).2.2,
        fun e hget => ?_, fun e _ hfresh => hphase e hfresh.1⟩, nofun⟩)
      exact .of_holds ((holds_eq hexecutions hget).symm.trans hholds) nofun
  | dropped n hstep hstage =>
      exact .inr (.inr ⟨n, _, .outside, ⟨rfl, (set_eq_self hstage).symm,
        fun _ _ => .of_holds rfl nofun, fun _ _ hfresh => nomatch hfresh.1⟩, nofun⟩)
  | entered n e semaphore hget hphase hacquire hstage =>
      obtain ⟨-, hbefore, stage, hstages, -⟩ := hsound.acquire hacquire
      rw [AsyncSemaphore.getElem?_stages_set hstages hbefore] at hstage
      cases hstage
      refine .inr (.inr ⟨n, _, .inside, ⟨rfl, hstages, fun _ _ => .of_holds rfl nofun,
        fun _ _ hfresh => nomatch hfresh.1⟩, fun m hm => ?_⟩)
      cases hm
      exact ⟨rfl, e, hget, hphase, hbefore⟩
  | waits n e semaphore hget hphase hacquire hstage =>
      obtain ⟨-, hbefore, stage, hstages, hcases⟩ := hsound.acquire hacquire
      have hne : stage ≠ .inside := by
        rintro rfl
        exact hstage (AsyncSemaphore.getElem?_stages_set hstages hbefore)
      cases hcases.resolve_right hne
      refine .inr (.inr ⟨n, id, .waiting, ⟨modify_id n s.dispatch, hstages, fun e' hget' => ?_,
        fun _ _ hfresh => nomatch hfresh.2⟩, fun m hm => ?_⟩)
      · cases hget.symm.trans hget'
        exact ⟨by rw [id, hphase]; rfl, fun _ => hphase⟩
      · cases hm
        exact ⟨rfl, e, hget, hphase, hbefore⟩
  | admitted n semaphore hresume hstage =>
      obtain ⟨-, hbefore, stage, hstages, -⟩ := hsound.resume hresume
      rw [AsyncSemaphore.getElem?_stages_set hstages hbefore] at hstage
      cases hstage
      exact .inr (.inr ⟨n, _, .inside, ⟨rfl, hstages, fun _ _ => .of_holds rfl nofun,
        fun _ _ hfresh => nomatch hfresh.1⟩, nofun⟩)
  | withdrawn n semaphore hresume hstage =>
      obtain ⟨-, hbefore, stage, hstages, hcases⟩ := hsound.resume hresume
      have hne : stage ≠ .inside := by
        rintro rfl
        exact hstage (AsyncSemaphore.getElem?_stages_set hstages hbefore)
      cases hcases.resolve_left hne
      exact .inr (.inr ⟨n, _, .outside, ⟨rfl, hstages, fun _ _ => .of_holds rfl nofun,
        fun _ _ hfresh => nomatch hfresh.1⟩, nofun⟩)
  | cancelled n semaphore hcancel => exact .inl ⟨rfl, (hsound.cancel hcancel).2, rfl⟩

theorem Effect.linked {a : Action} {s t : State} (h : Effect (D := D) s a t)
    (hsound : s.semaphore.Sound D.maxConcurrentTools) (hs : Linked s) : Linked t := by
  rcases h.tables hsound with ⟨hexecutions, hstages, -⟩ | ⟨e, hphase, hexecutions, hstages, -⟩ |
    ⟨n, f, stage, hmoved, -⟩
  · rw [Linked, hexecutions, hstages]
    exact hs
  · rw [Linked, hexecutions, hstages]
    refine List.rel_append hs (.cons ⟨?_, nofun⟩ .nil)
    rw [hphase]
    rfl
  · rw [Linked, hmoved.executions, hmoved.stages]
    exact forall₂_modify_set hs fun e _ hget _ _ => hmoved.agrees e hget

/-- The call that a step makes at the semaphore. -/
theorem Effect.call {a : Action} {s t : State} (h : Effect (D := D) s a t) :
    t.semaphore = s.semaphore ∧ a.entering = none ∨
      ∃ c, s.semaphore.step c = some t.semaphore ∧ c.acquiring = a.entering := by
  cases h with
  | scheduled | continued | dropped => exact .inl ⟨rfl, rfl⟩
  | created => exact .inr ⟨.join, rfl, rfl⟩
  | left a n dispatch f semaphore hstep hexecutions hphase hholds hrelease =>
      exact .inr ⟨.release n, hrelease, rfl⟩
  | entered n e semaphore hget hphase hacquire hstage
  | waits n e semaphore hget hphase hacquire hstage => exact .inr ⟨.acquire n, hacquire, rfl⟩
  | admitted n semaphore hresume hstage | withdrawn n semaphore hresume hstage =>
      exact .inr ⟨.resume n, hresume, rfl⟩
  | cancelled n semaphore hcancel => exact .inr ⟨.cancel n, hcancel, rfl⟩

variable {past : List Action} {s t : State}

theorem semaphore_of_run (h : Run (step D) (initial D) past s) :
    ∃ calls, Run AsyncSemaphore.step { value := D.maxConcurrentTools } calls s.semaphore ∧
      calls.filterMap AsyncSemaphore.Call.acquiring = past.filterMap Action.entering :=
  h.simulated State.semaphore Action.entering AsyncSemaphore.Call.acquiring
    fun _ _ _ _ _ hstep => (system_effect hstep).call

theorem sound_of_run (h : Run (step D) (initial D) past s) :
    s.semaphore.Sound D.maxConcurrentTools := by
  obtain ⟨calls, hrun, -⟩ := semaphore_of_run h
  exact AsyncSemaphore.sound_of_run hrun

theorem linked_of_run (h : Run (step D) (initial D) past s) : Linked s :=
  h.invariant_of (I := fun _ s => s.semaphore.Sound D.maxConcurrentTools)
    (J := fun _ s => Linked s) (fun _ _ hrun => sound_of_run hrun) .nil
    fun _ _ _ _ hsound hs hstep => (system_effect hstep).linked hsound hs

/-! ## The dispatch in one step -/

theorem step_acquire {n : Nat} {s : Dispatch.State} {e : Execution}
    (hget : s.executions[n]? = some e) (hphase : e.phase = .queued)
    (hfree : (s.executions.filter fun e => e.phase.holdsSemaphore).length < D.maxConcurrentTools) :
    Dispatch.step D s (.acquire n) = some (s.setPhase n (.ready 1)) := by
  have hbind : ((s.executions[n]?).bind fun e => stage D n e s (.acquire n)) =
      some (s.setPhase n (.ready 1)) := by
    rw [hget, Option.bind_some, stage, if_pos ⟨hphase, hfree⟩]
  exact hbind

/-- Where a task comes in, the execution it belongs to is queued, and fewer than
`maxConcurrentTools` hold a permit. -/
theorem Linked.acquires {n : Nat} {now : Seat.Stage} (hs : Linked s)
    (hbefore : s.semaphore.stages[n]? = some now) (hnow : now ≠ .inside)
    (hstages : t.semaphore.stages = s.semaphore.stages.set n .inside)
    (hsound : t.semaphore.Sound D.maxConcurrentTools) (hqueued : ∀ e,
      s.dispatch.executions[n]? = some e → e.phase = .queued) :
    Dispatch.step D s.dispatch (.acquire n) = some (s.dispatch.setPhase n (.ready 1)) := by
  obtain ⟨e, hget, -⟩ := hs.execution hbefore
  refine step_acquire hget (hqueued e hget) ?_
  have hle := hsound.inside_le
  rw [AsyncSemaphore.inside_of_enters hstages hbefore hnow, ← hs.running_eq] at hle
  exact hle

theorem Effect.refines {a : Action} (h : Effect (D := D) s a t) (hs : Linked s)
    (hsound : s.semaphore.Sound D.maxConcurrentTools)
    (hsound' : t.semaphore.Sound D.maxConcurrentTools) :
    t.dispatch = s.dispatch ∨ ∃ b, Dispatch.step D s.dispatch b = some t.dispatch := by
  cases h with
  | scheduled a dispatch hstep | created a dispatch e hstep | continued a n dispatch f hstep
  | left a n dispatch f semaphore hstep => exact .inr ⟨a, hstep⟩
  | dropped n hstep hstage => exact .inr ⟨_, hstep⟩
  | entered n e semaphore hget hphase hacquire hstage =>
      obtain ⟨-, hbefore, stage, hstages, -⟩ := hsound.acquire hacquire
      rw [AsyncSemaphore.getElem?_stages_set hstages hbefore] at hstage
      cases hstage
      refine .inr ⟨.acquire n, hs.acquires hbefore nofun hstages hsound' fun e' hget' => ?_⟩
      cases hget.symm.trans hget'
      exact hphase
  | waits | cancelled => exact .inl rfl
  | admitted n semaphore hresume hstage =>
      obtain ⟨-, hbefore, stage, hstages, -⟩ := hsound.resume hresume
      rw [AsyncSemaphore.getElem?_stages_set hstages hbefore] at hstage
      cases hstage
      exact .inr ⟨.acquire n, hs.acquires hbefore nofun hstages hsound' fun e hget =>
        (hs.agrees hget hbefore).2 rfl⟩
  | withdrawn n semaphore hresume hstage =>
      obtain ⟨-, hbefore, -⟩ := hsound.resume hresume
      obtain ⟨e, hget, -, hqueued⟩ := hs.execution hbefore
      refine .inr ⟨.abort n, ?_⟩
      have hbind : ((s.dispatch.executions[n]?).bind fun e => stage D n e s.dispatch (.abort n)) =
          some (s.dispatch.setPhase n .aborted) := by
        rw [hget, Option.bind_some, stage, if_neg (by simp [hqueued rfl])]
      exact hbind

theorem dispatch_of_run (h : Run (step D) (initial D) past s) :
    ∃ trace, Run (Dispatch.step D) {} trace s.dispatch := by
  obtain ⟨trace, hrun, -⟩ := h.simulated (γ := Unit) State.dispatch (fun _ => none) (fun _ => none)
    fun _ t a u hrun hstep => by
      cases (system_effect hstep).refines (linked_of_run hrun) (sound_of_run hrun)
          (sound_of_run (.snoc hrun hstep)) with
      | inl hsame => exact .inl ⟨hsame, rfl⟩
      | inr hmoves => exact .inr (hmoves.imp fun b hb => ⟨hb, rfl⟩)
  exact ⟨trace, hrun⟩

/-! ## Who asked -/

/-- The execution asked for its permit. -/
def Asked (s : State) (n : Nat) : Prop :=
  n < s.dispatch.executions.length ∧ ∀ e, s.dispatch.executions[n]? = some e →
    ∀ now, s.semaphore.stages[n]? = some now → ¬ Fresh e.phase now

theorem Moved.asked {n m : Nat} {f : Execution → Execution} {stage : Seat.Stage}
    (h : Moved s t n f stage) (hm : m < s.dispatch.executions.length)
    (hasked : m ≠ n → Asked s m) : Asked t m := by
  refine ⟨by rwa [h.executions, List.length_modify], fun e hget now hnow => ?_⟩
  rw [h.executions] at hget
  rw [h.stages] at hnow
  obtain ⟨before, hbefore, rfl⟩ := getElem?_modify_eq_some.mp hget
  cases getElem?_set_eq_some hnow with
  | inl hself =>
      obtain ⟨rfl, rfl⟩ := hself
      rw [if_pos rfl]
      exact h.notFresh before hbefore
  | inr hother =>
      rw [if_neg hother.1.symm]
      exact (hasked hother.1).2 before hbefore now hother.2

theorem Effect.asked {a : Action} {m : Nat} (h : Effect (D := D) s a t) (hs : Linked s)
    (hsound : s.semaphore.Sound D.maxConcurrentTools)
    (hm : Asked s m ∨ a.entering = some m) : Asked t m := by
  rcases h.tables hsound with ⟨hexecutions, hstages, hnone⟩ | ⟨e, -, hexecutions, hstages, hnone⟩ |
    ⟨n, f, stage, hmoved, hentering⟩
  · rw [Asked, hexecutions, hstages]
    exact hm.resolve_right (by simp [hnone])
  · obtain ⟨hlt, hfresh⟩ := hm.resolve_right (by simp [hnone])
    rw [Asked, hexecutions, hstages, List.getElem?_append_left hlt,
      List.getElem?_append_left (hs.length_eq ▸ hlt), List.length_append]
    exact ⟨Nat.lt_add_right 1 hlt, hfresh⟩
  · cases hm with
    | inl hasked => exact hmoved.asked hasked.1 fun _ => hasked
    | inr henters =>
        obtain ⟨rfl, e, hget, -⟩ := hentering m henters
        exact hmoved.asked (List.getElem?_eq_some_iff.mp hget).1 fun hne => absurd rfl hne

theorem not_asked_of_enters {a : Action} {n : Nat} (h : Effect (D := D) s a t)
    (hsound : s.semaphore.Sound D.maxConcurrentTools) (ha : a.entering = some n) :
    ¬ Asked s n := by
  rcases h.tables hsound with ⟨-, -, hnone⟩ | ⟨e, -, -, -, hnone⟩ | ⟨m, f, stage, -, hentering⟩
  · rw [hnone] at ha
    cases ha
  · rw [hnone] at ha
    cases ha
  · obtain ⟨rfl, e, hget, hphase, hout⟩ := hentering n ha
    exact fun hasked => hasked.2 e hget _ hout ⟨hphase, rfl⟩

/-- A task asks once. -/
theorem entering_nodup (h : Run (step D) (initial D) past s) :
    (past.filterMap Action.entering).Nodup ∧ ∀ n ∈ past.filterMap Action.entering, Asked s n := by
  refine h.invariant_of
    (I := fun _ s => s.semaphore.Sound D.maxConcurrentTools ∧ Linked s)
    (J := fun past s => (past.filterMap Action.entering).Nodup ∧
      ∀ n ∈ past.filterMap Action.entering, Asked s n)
    (fun _ _ hrun => ⟨sound_of_run hrun, linked_of_run hrun⟩)
    ⟨List.nodup_nil, fun _ hmem => (List.not_mem_nil hmem).elim⟩ ?_
  intro past s a t hsound hs hstep
  have heffect := system_effect hstep
  have hkeep {n : Nat} (hmem : n ∈ past.filterMap Action.entering) : Asked t n :=
    heffect.asked hsound.2 hsound.1 (.inl (hs.2 n hmem))
  rw [List.filterMap_append]
  cases ha : a.entering with
  | none =>
      rw [List.filterMap_cons, ha, List.filterMap_nil, List.append_nil]
      exact ⟨hs.1, fun n hmem => hkeep hmem⟩
  | some m =>
      rw [List.filterMap_cons, ha, List.filterMap_nil]
      refine ⟨List.nodup_append.mpr ⟨hs.1, List.nodup_singleton m, fun n hmem k hk => ?_⟩, ?_⟩
      · cases List.mem_singleton.mp hk
        rintro rfl
        exact not_asked_of_enters heffect hsound.1 ha (hs.2 n hmem)
      · refine List.forall_mem_append.mpr ⟨fun n hmem => hkeep hmem, ?_⟩
        exact List.forall_mem_singleton.mpr (heffect.asked hsound.2 hsound.1 (.inr ha))

/-! ## The guarantee -/

theorem resume_of_woken {n : Nat} {seat : Seat} (hget : s.semaphore.seats[n]? = some seat)
    (hwoken : seat.woken = true) : (step D s (.resume n)).isSome = true := by
  have hresume : (s.semaphore.resume n).isSome = true := by
    cases seat with
    | granted cancelled => cases cancelled <;> simp [AsyncSemaphore.resume, hget]
    | withdrawn => simp [AsyncSemaphore.resume, hget]
    | outside | pending | inside => cases hwoken
  obtain ⟨semaphore, hsome⟩ := Option.isSome_iff_exists.mp hresume
  simp [step, hsome]

/-- The semaphore admits the executions of a dispatch: at most `maxConcurrentTools` hold a
permit, no free one is left while somebody waits and nobody is woken, and who asked
before gets one before. -/
theorem executions_admitted (D : Dispatcher) {past : List Action} {s : State}
    (hrun : Run (step D) (initial D) past s) :
    (∃ trace, Run (Dispatch.step D) {} trace s.dispatch) ∧
      running s ≤ D.maxConcurrentTools ∧
      (∀ n, Waits n s → running s < D.maxConcurrentTools →
        ∃ m, (step D s (.resume m)).isSome = true) ∧
      ∀ n m, [n, m].Sublist (past.filterMap Action.entering) → Waits n s →
        holds m s.dispatch = false := by
  have hsound := sound_of_run hrun
  have hlinked := linked_of_run hrun
  refine ⟨dispatch_of_run hrun, hlinked.running_eq ▸ hsound.inside_le, fun n hwaits hfree => ?_,
    fun n m hsublist hwaits => ?_⟩
  · by_contra hnone
    have hall : ∀ seat ∈ s.semaphore.seats, seat.woken = false := by
      intro seat hmem
      obtain ⟨m, hget⟩ := List.mem_iff_getElem?.mp hmem
      cases hwoken : seat.woken with
      | false => rfl
      | true => exact absurd ⟨m, resume_of_woken hget hwoken⟩ hnone
    have hfull := hsound.inside_of_pending (List.mem_iff_getElem?.mpr ⟨n, hwaits⟩) hall
    rw [hlinked.running_eq, hfull] at hfree
    exact Nat.lt_irrefl _ hfree
  · obtain ⟨calls, hcalls, hshows⟩ := semaphore_of_run hrun
    have hserved := (AsyncSemaphore.served_of_run hcalls).served
    rw [hshows, AsyncSemaphore.lastCalls_of_nodup (entering_nodup hrun).1] at hserved
    have hyields := hserved.forall_sublist hsublist hwaits
    by_contra hholds
    obtain ⟨e, hget, hphase⟩ : ∃ e, s.dispatch.executions[m]? = some e ∧
        e.phase.holdsSemaphore = true := by
      simpa [holds, Option.any_eq_true] using hholds
    have hlt := (List.getElem?_eq_some_iff.mp hget).1
    rw [hlinked.length_eq, AsyncSemaphore.stages, List.length_map] at hlt
    have hseat := List.getElem?_eq_getElem hlt
    have hstage : s.semaphore.stages[m]? = some (s.semaphore.seats[m]).stage := by
      rw [AsyncSemaphore.stages, List.getElem?_map, hseat]
      rfl
    have hpermits := hyields _ (by rw [hseat]; rfl)
    have hagrees := (hlinked.agrees hget hstage).1
    rw [hphase] at hagrees
    cases hinside : s.semaphore.seats[m] with
    | inside => rw [hinside] at hpermits; cases hpermits
    | outside | pending | granted _ | withdrawn => rw [hinside] at hagrees; cases hagrees

/-- Two events for a client that runs one tool at a time. -/
def twoEvents : List Action :=
  [.event (.deliver (callAt "call-1" [] 0)), .event (.deliver (callAt "call-2" [] 0)),
    .enter 0, .enter 1, .event (.attempt 0 1)]

theorem executions_admitted_in_turn :
    ∃ s, Run (step singleTool) (initial singleTool) twoEvents s ∧ running s ≤ 1 ∧
      Waits 1 s ∧ holds 0 s.dispatch = true := by
  have hend : ((twoEvents.foldlM (step singleTool) (initial singleTool)).any fun s =>
      s.semaphore.seats[1]? == some .pending && holds 0 s.dispatch) = true := rfl
  obtain ⟨s, hfold, hs⟩ := (Option.any_eq_true _ _).mp hend
  rw [Bool.and_eq_true, beq_iff_eq] at hs
  have hrun : Run (step singleTool) (initial singleTool) twoEvents s := .of_foldlM hfold
  exact ⟨s, hrun, (executions_admitted singleTool hrun).2.1, hs⟩

end Effects
end DualeAI.ToolConcurrency
