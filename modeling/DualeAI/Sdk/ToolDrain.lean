import DualeAI.Foundation.Indexed
import DualeAI.Foundation.Transition
import Mathlib.Algebra.Order.Ring.Rat

/-!
What `_cleanup_tool_result_tasks` leaves running.

A task is an `_execute_tool_use` or a `_submit_single_tool_result`; the stream that
either consumes may schedule further ones. A drain takes the tasks that are tracked
when it starts, and its two waits end in any way: all have ended, the timeout has
passed, or the drain itself was cancelled.
-/
namespace DualeAI.ToolDrain
open Foundation

structure ToolTask where
  done : Bool := false
  cancelRequested : Bool := false

def ToolTask.settled (task : ToolTask) : Bool := task.done || task.cancelRequested

/-- Where a drain waits: for `graceful_shutdown_timeout`, or after it cancelled. -/
inductive Stage where
  | graceful
  | cancelled
  | returned
deriving DecidableEq

/-- A call of `_cleanup_tool_result_tasks` and the tasks it took. -/
structure Drain where
  tasks : List Nat
  stage : Stage

structure State where
  tasks : List ToolTask := []
  /-- `_tool_result_tasks`. -/
  toolResultTasks : List Nat := []
  drains : List Drain := []

inductive Action where
  | schedule
  | finish (n : Nat)
  /-- The done callback of a task. -/
  | discard (n : Nat)
  | requestCancel (n : Nat)
  | cleanup
  | endGrace (i : Nat)
  | endWait (i : Nat)

namespace State

def schedule (s : State) : State :=
  { s with
    tasks := s.tasks ++ [{}]
    toolResultTasks := s.toolResultTasks ++ [s.tasks.length] }

def modifyTask (n : Nat) (f : ToolTask → ToolTask) (s : State) : State :=
  { s with tasks := s.tasks.modify n f }

def cancelAll (tasks : List Nat) (s : State) : State :=
  { s with
    tasks := s.tasks.mapIdx fun n task =>
      if tasks.contains n && !task.done then { task with cancelRequested := true } else task }

def enter (tasks : List Nat) (stage : Stage) (s : State) : State :=
  { s with drains := s.drains ++ [⟨tasks, stage⟩] }

def setStage (i : Nat) (stage : Stage) (s : State) : State :=
  { s with drains := s.drains.modify i fun d => { d with stage := stage } }

end State

section Steps
variable (gracefulShutdownTimeout : Rat)

def startCleanup (s : State) : State :=
  if s.toolResultTasks.isEmpty then s.enter [] .returned
  else if 0 < gracefulShutdownTimeout then s.enter s.toolResultTasks .graceful
  else (s.cancelAll s.toolResultTasks).enter s.toolResultTasks .cancelled

def step (s : State) : Action → Option State
  | .schedule => some s.schedule
  | .finish n => do
      let task ← s.tasks[n]?
      if task.done then none else some (s.modifyTask n fun task => { task with done := true })
  | .discard n => do
      let task ← s.tasks[n]?
      if task.done then some { s with toolResultTasks := s.toolResultTasks.filter (· ≠ n) }
      else none
  | .requestCancel n => do
      let task ← s.tasks[n]?
      if task.done then none
      else some (s.modifyTask n fun task => { task with cancelRequested := true })
  | .cleanup => some (startCleanup gracefulShutdownTimeout s)
  | .endGrace i => do
      let d ← s.drains[i]?
      if d.stage = .graceful then some ((s.cancelAll d.tasks).setStage i .cancelled) else none
  | .endWait i => do
      let d ← s.drains[i]?
      if d.stage = .cancelled then some { s.setStage i .returned with toolResultTasks := [] }
      else none

end Steps

/-- Every task has ended or its cancellation was requested. -/
def Settled (s : State) : Prop := ∀ task ∈ s.tasks, task.settled = true

/-- No drain waits. -/
def idle (s : State) : Bool := s.drains.all fun d => d.stage = .returned

/-- A step that lets a drain return. -/
def Returns (s t : State) : Prop :=
  ∃ (i : Nat) (d : Drain), t.drains[i]? = some d ∧ d.stage = .returned ∧
    ∀ d', s.drains[i]? = some d' → d'.stage ≠ .returned

/-- No task is scheduled while a drain waits. -/
def quiet (s : State) : Action → Bool
  | .schedule => idle s
  | _ => true

/-! ## The tasks a drain still has to cancel -/

/-- Every task outside `tasks` is settled. -/
def Covers (tasks : List Nat) (s : State) : Prop :=
  ∀ (n : Nat) (task : ToolTask), s.tasks[n]? = some task → task.settled = true ∨ n ∈ tasks

def Drain.pending (d : Drain) : List Nat := if d.stage = .graceful then d.tasks else []

/-- What is not settled is tracked, and taken by each drain that waits. -/
structure Invariant (s : State) : Prop where
  tracked : Covers s.toolResultTasks s
  waiting : ∀ d ∈ s.drains, d.stage ≠ .returned → Covers d.pending s

theorem settled_iff {s : State} : Settled s ↔ Covers [] s := by
  constructor
  · exact fun h n task hget => .inl (h task (List.mem_of_getElem? hget))
  · intro h task hmem
    obtain ⟨n, hget⟩ := List.mem_iff_getElem?.mp hmem
    exact (h n task hget).resolve_right List.not_mem_nil

theorem covers_cancelAll {tasks : List Nat} {s : State} (h : Covers tasks s) :
    Covers [] (s.cancelAll tasks) := by
  intro n task hget
  left
  simp only [State.cancelAll, List.getElem?_mapIdx, Option.map_eq_some_iff] at hget
  obtain ⟨before, hbefore, rfl⟩ := hget
  cases h n before hbefore with
  | inl hsettled =>
      split
      · simp [ToolTask.settled]
      · exact hsettled
  | inr hmem =>
      cases hdone : before.done with
      | true => simp [ToolTask.settled, hdone]
      | false => simp [ToolTask.settled, hmem]

/-- Tasks only settle. -/
def Settles (s t : State) : Prop :=
  ∀ (n : Nat) (task : ToolTask), t.tasks[n]? = some task →
    ∃ before, s.tasks[n]? = some before ∧ (before.settled = true → task.settled = true)

theorem Covers.settles {tasks : List Nat} {s t : State} (h : Covers tasks s)
    (hsettles : Settles s t) : Covers tasks t := by
  intro n task hget
  obtain ⟨before, hbefore, hkept⟩ := hsettles n task hget
  exact (h n before hbefore).imp_left hkept

theorem settles_of_tasks_eq {s t : State} (h : t.tasks = s.tasks) : Settles s t :=
  fun n task hget => ⟨task, by rw [← h]; exact hget, id⟩

theorem settles_modifyTask {s : State} {n : Nat} {f : ToolTask → ToolTask}
    (hf : ∀ task, task.settled = true → (f task).settled = true) :
    Settles s (s.modifyTask n f) := by
  intro m task hget
  obtain ⟨before, hbefore, rfl⟩ := getElem?_modify_eq_some.mp hget
  refine ⟨before, hbefore, fun hsettled => ?_⟩
  split
  · exact hf before hsettled
  · exact hsettled

theorem settles_cancelAll {tasks : List Nat} {s : State} : Settles s (s.cancelAll tasks) := by
  intro n task hget
  simp only [State.cancelAll, List.getElem?_mapIdx, Option.map_eq_some_iff] at hget
  obtain ⟨before, hbefore, rfl⟩ := hget
  refine ⟨before, hbefore, fun hsettled => ?_⟩
  split
  · simp [ToolTask.settled]
  · exact hsettled

theorem Invariant.settles {s t : State} (h : Invariant s) (hsettles : Settles s t)
    (htracked : t.toolResultTasks = s.toolResultTasks) (hdrains : t.drains = s.drains) :
    Invariant t := by
  refine ⟨?_, fun d hmem hwaits => ?_⟩
  · rw [htracked]
    exact h.tracked.settles hsettles
  · rw [hdrains] at hmem
    exact (h.waiting d hmem hwaits).settles hsettles

theorem Invariant.enter {s : State} {d : Drain} (h : Invariant s)
    (hd : d.stage ≠ .returned → Covers d.pending s) : Invariant (s.enter d.tasks d.stage) := by
  refine ⟨h.tracked, fun d' hmem hwaits => ?_⟩
  cases List.mem_append.mp hmem with
  | inl hold => exact h.waiting d' hold hwaits
  | inr hnew =>
      cases List.mem_singleton.mp hnew
      exact hd hwaits

/-- A drain goes on to a stage by which nothing of its own is left. -/
theorem Invariant.setStage {s : State} {i : Nat} {stage : Stage} (h : Invariant s)
    (hd : ∀ d ∈ s.drains, Drain.pending { d with stage := stage } = [])
    (hcovers : stage ≠ .returned → Covers [] s) : Invariant (s.setStage i stage) := by
  refine ⟨h.tracked, forall_mem_modify h.waiting fun d hget hwaits => ?_⟩
  rw [hd d (List.mem_of_getElem? hget)]
  exact hcovers hwaits

theorem idle_iff {s : State} : idle s = true ↔ ∀ d ∈ s.drains, d.stage = .returned := by
  simp [idle]

section Runs
variable {gracefulShutdownTimeout : Rat}

theorem Invariant.startCleanup {s : State} (h : Invariant s) :
    Invariant (startCleanup gracefulShutdownTimeout s) := by
  rw [ToolDrain.startCleanup]
  split
  · exact h.enter (d := ⟨[], .returned⟩) fun hne => absurd rfl hne
  · split
    · exact h.enter (d := ⟨s.toolResultTasks, .graceful⟩) fun _ => h.tracked
    · exact (h.settles settles_cancelAll rfl rfl).enter (d := ⟨s.toolResultTasks, .cancelled⟩)
        fun _ => covers_cancelAll h.tracked

theorem Invariant.step {s t : State} {a : Action} (h : Invariant s)
    (hstep : restrict quiet (step gracefulShutdownTimeout) s a = some t) : Invariant t := by
  obtain ⟨hquiet, hstep⟩ := restrict_eq_some.mp hstep
  cases a with
  | schedule =>
      cases hstep
      refine ⟨fun n task hget => ?_, fun d hmem hwaits => ?_⟩
      · cases getElem?_concat_eq_some hget with
        | inl hold => exact (h.tracked n task hold).imp_right (List.mem_append_left _)
        | inr hnew =>
            right
            rw [hnew.1]
            exact List.mem_append_right _ (List.mem_singleton_self _)
      · exact absurd (idle_iff.mp hquiet d hmem) hwaits
  | finish n =>
      obtain ⟨task, -, hfinish⟩ := Option.bind_eq_some_iff.mp hstep
      obtain ⟨-, heq⟩ := Option.ite_none_left_eq_some.mp hfinish
      cases heq
      exact h.settles (settles_modifyTask fun _ _ => rfl) rfl rfl
  | requestCancel n =>
      obtain ⟨task, -, hcancel⟩ := Option.bind_eq_some_iff.mp hstep
      obtain ⟨-, heq⟩ := Option.ite_none_left_eq_some.mp hcancel
      cases heq
      exact h.settles (settles_modifyTask fun _ _ => by simp [ToolTask.settled]) rfl rfl
  | discard n =>
      obtain ⟨task, hget, hdiscard⟩ := Option.bind_eq_some_iff.mp hstep
      obtain ⟨hdone, heq⟩ := Option.ite_none_right_eq_some.mp hdiscard
      cases heq
      refine ⟨fun m task' hget' => ?_, h.waiting⟩
      by_cases hm : m = n
      · subst hm
        cases hget.symm.trans hget'
        exact .inl (by simp [ToolTask.settled, hdone])
      · exact (h.tracked m task' hget').imp_right fun hmem =>
          List.mem_filter.mpr ⟨hmem, decide_eq_true hm⟩
  | cleanup =>
      cases hstep
      exact h.startCleanup
  | endGrace i =>
      obtain ⟨d, hget, hend⟩ := Option.bind_eq_some_iff.mp hstep
      obtain ⟨hstage, heq⟩ := Option.ite_none_right_eq_some.mp hend
      cases heq
      have hpending := h.waiting d (List.mem_of_getElem? hget) (by simp [hstage])
      rw [Drain.pending, if_pos hstage] at hpending
      exact (h.settles settles_cancelAll rfl rfl).setStage (fun _ _ => rfl)
        fun _ => covers_cancelAll hpending
  | endWait i =>
      obtain ⟨d, hget, hend⟩ := Option.bind_eq_some_iff.mp hstep
      obtain ⟨hstage, heq⟩ := Option.ite_none_right_eq_some.mp hend
      cases heq
      have hpending := h.waiting d (List.mem_of_getElem? hget) (by simp [hstage])
      rw [Drain.pending, if_neg (by simp [hstage])] at hpending
      exact ⟨hpending, (h.setStage (fun _ _ => rfl) fun hne => absurd rfl hne).waiting⟩

theorem invariant_init : Invariant {} :=
  ⟨fun _ _ hget => (by cases hget), fun _ hmem => (by cases hmem)⟩

theorem invariant_of_run {past : List Action} {s : State}
    (h : Run (restrict quiet (step gracefulShutdownTimeout)) {} past s) : Invariant s :=
  h.invariant (I := fun _ s => Invariant s) invariant_init fun _ _ _ _ hs hstep => hs.step hstep

/-! ## The state in which a drain returns -/

theorem not_returns {s t : State} (h : t.drains = s.drains) : ¬ Returns s t := by
  rintro ⟨i, d, hget, hreturned, hbefore⟩
  rw [h] at hget
  exact hbefore d hget hreturned

theorem not_returns_setStage {s t : State} {i : Nat}
    (h : t.drains = (s.setStage i .cancelled).drains) : ¬ Returns s t := by
  rintro ⟨j, d, hget, hreturned, hbefore⟩
  rw [h] at hget
  obtain ⟨d', hget', rfl⟩ := getElem?_modify_eq_some.mp hget
  split at hreturned
  · cases hreturned
  · exact hbefore d' hget' hreturned

theorem not_returns_enter {s t : State} {tasks : List Nat} {stage : Stage}
    (h : t.drains = (s.enter tasks stage).drains) (hstage : stage ≠ .returned) :
    ¬ Returns s t := by
  rintro ⟨j, d, hget, hreturned, hbefore⟩
  rw [h] at hget
  cases getElem?_concat_eq_some hget with
  | inl hold => exact hbefore d hold hreturned
  | inr hnew =>
      obtain ⟨-, rfl⟩ := hnew
      exact hstage hreturned

/-- A drain returns where nothing is left to cancel. -/
theorem settled_of_returns {s t : State} {a : Action} (hs : Invariant s)
    (hstep : step gracefulShutdownTimeout s a = some t) (hreturns : Returns s t) : Settled t := by
  have hkept {t : State} (htasks : t.tasks = s.tasks) (hcovers : Covers [] s) : Settled t :=
    settled_iff.mpr (hcovers.settles (settles_of_tasks_eq htasks))
  cases a with
  | schedule =>
      cases hstep
      exact absurd hreturns (not_returns rfl)
  | finish n | requestCancel n =>
      obtain ⟨task, -, hbody⟩ := Option.bind_eq_some_iff.mp hstep
      obtain ⟨-, heq⟩ := Option.ite_none_left_eq_some.mp hbody
      cases heq
      exact absurd hreturns (not_returns rfl)
  | discard n =>
      obtain ⟨task, -, hbody⟩ := Option.bind_eq_some_iff.mp hstep
      obtain ⟨-, heq⟩ := Option.ite_none_right_eq_some.mp hbody
      cases heq
      exact absurd hreturns (not_returns rfl)
  | cleanup =>
      cases hstep
      unfold startCleanup at hreturns ⊢
      split
      · next hempty =>
          have htracked := hs.tracked
          rw [List.isEmpty_iff.mp hempty] at htracked
          exact hkept rfl htracked
      · next hempty =>
          rw [if_neg hempty] at hreturns
          split at hreturns
          · exact absurd hreturns (not_returns_enter rfl (by decide))
          · exact absurd hreturns (not_returns_enter rfl (by decide))
  | endGrace i =>
      obtain ⟨d, -, hend⟩ := Option.bind_eq_some_iff.mp hstep
      obtain ⟨-, heq⟩ := Option.ite_none_right_eq_some.mp hend
      cases heq
      exact absurd hreturns (not_returns_setStage rfl)
  | endWait i =>
      obtain ⟨d, hget, hend⟩ := Option.bind_eq_some_iff.mp hstep
      obtain ⟨hstage, heq⟩ := Option.ite_none_right_eq_some.mp hend
      cases heq
      have hpending := hs.waiting d (List.mem_of_getElem? hget) (by simp [hstage])
      rw [Drain.pending, if_neg (by simp [hstage])] at hpending
      exact hkept rfl hpending

end Runs

/-! ## A task scheduled during a drain -/

section Late
variable {gracefulShutdownTimeout : Rat}

/-- Drains only take tasks that were scheduled before. -/
structure Bounded (s : State) : Prop where
  tracked : ∀ n ∈ s.toolResultTasks, n < s.tasks.length
  taken : ∀ d ∈ s.drains, ∀ n ∈ d.tasks, n < s.tasks.length

theorem Bounded.of_drains {s t : State} (h : Bounded s) (hlength : s.tasks.length ≤ t.tasks.length)
    (htracked : ∀ n ∈ t.toolResultTasks, n < t.tasks.length) (hdrains : t.drains = s.drains) :
    Bounded t := by
  refine ⟨htracked, fun d hmem n hn => ?_⟩
  rw [hdrains] at hmem
  exact Nat.lt_of_lt_of_le (h.taken d hmem n hn) hlength

theorem Bounded.cancelAll {s : State} {tasks : List Nat} (h : Bounded s) :
    Bounded (s.cancelAll tasks) := by
  have hlength : (s.cancelAll tasks).tasks.length = s.tasks.length := List.length_mapIdx
  exact ⟨by rw [hlength]; exact h.tracked, by rw [hlength]; exact h.taken⟩

theorem Bounded.enter {s : State} {tasks : List Nat} {stage : Stage} (h : Bounded s)
    (htasks : ∀ n ∈ tasks, n < s.tasks.length) : Bounded (s.enter tasks stage) := by
  refine ⟨h.tracked, fun d hmem => ?_⟩
  cases List.mem_append.mp hmem with
  | inl hold => exact h.taken d hold
  | inr hnew =>
      cases List.mem_singleton.mp hnew
      exact htasks

theorem Bounded.setStage {s : State} {i : Nat} {stage : Stage} (h : Bounded s) :
    Bounded (s.setStage i stage) := by
  refine ⟨h.tracked, forall_mem_modify h.taken fun d hget => ?_⟩
  exact h.taken d (List.mem_of_getElem? hget)

theorem Bounded.step {s t : State} {a : Action} (h : Bounded s)
    (hstep : step gracefulShutdownTimeout s a = some t) : Bounded t := by
  cases a with
  | schedule =>
      cases hstep
      have hlength : s.schedule.tasks.length = s.tasks.length + 1 := List.length_append
      refine h.of_drains (by omega) (fun n hn => ?_) rfl
      rw [hlength]
      cases List.mem_append.mp hn with
      | inl hold => exact Nat.lt_succ_of_lt (h.tracked n hold)
      | inr hnew => exact Nat.lt_succ_of_le (Nat.le_of_eq (List.mem_singleton.mp hnew))
  | finish n | requestCancel n =>
      obtain ⟨task, -, hbody⟩ := Option.bind_eq_some_iff.mp hstep
      obtain ⟨-, heq⟩ := Option.ite_none_left_eq_some.mp hbody
      cases heq
      exact h.of_drains (by simp [State.modifyTask]) (by simpa [State.modifyTask] using h.tracked)
        rfl
  | discard n =>
      obtain ⟨task, -, hbody⟩ := Option.bind_eq_some_iff.mp hstep
      obtain ⟨-, heq⟩ := Option.ite_none_right_eq_some.mp hbody
      cases heq
      exact h.of_drains (Nat.le_refl _) (fun m hm => h.tracked m (List.mem_of_mem_filter hm)) rfl
  | cleanup =>
      cases hstep
      rw [startCleanup]
      split
      · exact h.enter fun _ hn => absurd hn List.not_mem_nil
      · split
        · exact h.enter h.tracked
        · exact h.cancelAll.enter h.cancelAll.tracked
  | endGrace i =>
      obtain ⟨d, -, hend⟩ := Option.bind_eq_some_iff.mp hstep
      obtain ⟨-, heq⟩ := Option.ite_none_right_eq_some.mp hend
      cases heq
      exact h.cancelAll.setStage
  | endWait i =>
      obtain ⟨d, -, hend⟩ := Option.bind_eq_some_iff.mp hstep
      obtain ⟨-, heq⟩ := Option.ite_none_right_eq_some.mp hend
      cases heq
      exact ⟨fun _ hn => absurd hn List.not_mem_nil, h.setStage.taken⟩

theorem bounded_of_run {past : List Action} {s : State}
    (h : Run (step gracefulShutdownTimeout) {} past s) : Bounded s :=
  h.invariant (I := fun _ s => Bounded s)
    ⟨fun _ hn => absurd hn List.not_mem_nil, fun _ hd => absurd hd List.not_mem_nil⟩
    fun _ _ _ _ hs hstep => hs.step hstep

/-- A drain that cancelled returns without another look at the tasks. -/
theorem returns_unsettled (gracefulShutdownTimeout : Rat) {s : State} {i m : Nat} {d : Drain}
    (hget : s.drains[i]? = some d) (hstage : d.stage = .cancelled)
    (hm : s.tasks[m]? = some {}) :
    ∃ t, step gracefulShutdownTimeout s (.endWait i) = some t ∧ Returns s t ∧ ¬ Settled t := by
  refine ⟨{ s.setStage i .returned with toolResultTasks := [] }, ?_, ?_, fun hsettled => ?_⟩
  · simp [step, hget, hstage]
  · refine ⟨i, { d with stage := .returned }, ?_, rfl, fun d' hd' => ?_⟩
    · exact getElem?_modify_eq_some.mpr ⟨d, hget, (if_pos rfl).symm⟩
    · rw [hget] at hd'
      cases hd'
      simp [hstage]
  · exact absurd (hsettled _ (List.mem_of_getElem? hm)) (by decide)

theorem late_schedule {past : List Action} {s : State}
    (hrun : Run (step gracefulShutdownTimeout) {} past s) (hwaits : idle s = false) :
    ∃ more a t u, Run (step gracefulShutdownTimeout) s (.schedule :: more) t ∧
      step gracefulShutdownTimeout t a = some u ∧ Returns t u ∧ ¬ Settled u := by
  obtain ⟨d, hmem, hstage⟩ : ∃ d ∈ s.drains, d.stage ≠ .returned := by
    simpa [idle] using hwaits
  obtain ⟨i, hget⟩ := List.mem_iff_getElem?.mp hmem
  have hschedule : Run (step gracefulShutdownTimeout) s [.schedule] s.schedule := .single rfl
  have hnew : s.schedule.tasks[s.tasks.length]? = some {} := List.getElem?_concat_length
  cases h : d.stage with
  | returned => exact absurd h hstage
  | cancelled =>
      obtain ⟨u, hlast⟩ := returns_unsettled gracefulShutdownTimeout (s := s.schedule) hget h hnew
      exact ⟨[], _, _, u, hschedule, hlast⟩
  | graceful =>
      -- the new task is not among those the drain cancels
      have hlate : s.tasks.length ∉ d.tasks := fun hn =>
        Nat.lt_irrefl _ ((bounded_of_run hrun).taken d hmem _ hn)
      have hend : step gracefulShutdownTimeout s.schedule (.endGrace i) =
          some ((s.schedule.cancelAll d.tasks).setStage i .cancelled) := by
        simp [step, State.schedule, hget, h]
      have hget' : ((s.schedule.cancelAll d.tasks).setStage i .cancelled).drains[i]? =
          some { d with stage := .cancelled } :=
        getElem?_modify_eq_some.mpr ⟨d, hget, (if_pos rfl).symm⟩
      have hnew' : ((s.schedule.cancelAll d.tasks).setStage i .cancelled).tasks[s.tasks.length]? =
          some {} := by
        simp [State.setStage, State.cancelAll, List.getElem?_mapIdx, hnew, hlate]
      obtain ⟨u, hlast⟩ := returns_unsettled gracefulShutdownTimeout hget' rfl hnew'
      exact ⟨[.endGrace i], _, _, u, .snoc hschedule hend, hlast⟩

end Late

/-- A drain leaves every task settled if none is scheduled while it waits, and may lose
one that is. -/
theorem drain_settles (gracefulShutdownTimeout : Rat) :
    (∀ past s t a, Run (restrict quiet (step gracefulShutdownTimeout)) {} past s →
      restrict quiet (step gracefulShutdownTimeout) s a = some t → Returns s t → Settled t) ∧
    (∀ past s, Run (step gracefulShutdownTimeout) {} past s → idle s = false →
      ∃ more a t u, Run (step gracefulShutdownTimeout) s (.schedule :: more) t ∧
        step gracefulShutdownTimeout t a = some u ∧ Returns t u ∧ ¬ Settled u) :=
  ⟨fun _ _ _ _ hrun hstep hreturns =>
      settled_of_returns (invariant_of_run hrun) (restrict_eq_some.mp hstep).2 hreturns,
    fun _ _ hrun hwaits => late_schedule hrun hwaits⟩

/-- Two tasks, of which one ends while the drain waits for them and the other is cancelled. -/
theorem drain_settles_pair :
    ∃ s t, Run (restrict quiet (step 1)) {} [.schedule, .schedule, .cleanup, .finish 0,
        .endGrace 0] s ∧
      restrict quiet (step 1) s (.endWait 0) = some t ∧ Returns s t ∧ Settled t := by
  have hrun : Run (restrict quiet (step 1)) {} [.schedule, .schedule, .cleanup, .finish 0,
      .endGrace 0] ⟨[⟨true, false⟩, ⟨false, true⟩], [0, 1], [⟨[0, 1], .cancelled⟩]⟩ :=
    Run.of_foldlM rfl
  have hstep : restrict quiet (step 1)
      ⟨[⟨true, false⟩, ⟨false, true⟩], [0, 1], [⟨[0, 1], .cancelled⟩]⟩ (.endWait 0) =
        some ⟨[⟨true, false⟩, ⟨false, true⟩], [], [⟨[0, 1], .returned⟩]⟩ := rfl
  have hreturns : Returns ⟨[⟨true, false⟩, ⟨false, true⟩], [0, 1], [⟨[0, 1], .cancelled⟩]⟩
      ⟨[⟨true, false⟩, ⟨false, true⟩], [], [⟨[0, 1], .returned⟩]⟩ := by
    refine ⟨0, _, rfl, rfl, fun d hd => ?_⟩
    cases hd
    decide
  exact ⟨_, _, hrun, hstep, hreturns, (drain_settles 1).1 _ _ _ _ hrun hstep hreturns⟩

/-- A task whose stream schedules another one while the drain waits for it. -/
theorem nested_tool_lost :
    ∃ s t, Run (step 1) {} [.schedule, .cleanup, .schedule, .finish 0, .endGrace 0] s ∧
      step 1 s (.endWait 0) = some t ∧ Returns s t ∧ ¬ Settled t := by
  refine ⟨_, _, Run.of_foldlM rfl, rfl, ⟨0, ⟨[0], .returned⟩, rfl, rfl, fun d hd => ?_⟩,
    fun hsettled => ?_⟩
  · cases hd
    decide
  · exact absurd (hsettled {} (List.mem_of_getElem? (i := 1) rfl)) (by decide)

end DualeAI.ToolDrain
