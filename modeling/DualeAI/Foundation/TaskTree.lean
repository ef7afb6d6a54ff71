import DualeAI.Foundation.Indexed

/-!
Tasks that start tasks and gather them.

A task starts further tasks and awaits `asyncio.gather` on them. Where that raises, it
cancels them all, awaits them with a `gather` that returns exceptions, and raises. The
future of a `gather` is settled by a child that failed, or by the last one that ended;
until then a cancellation of the task is passed on to its children, and afterwards it is
delivered when the task is resumed. `job` is what a task works on.
-/
namespace Foundation

/-- Where a task waits: for its first step, for something of its own, or for its children. -/
inductive TaskPhase where
  | created
  | working
  | gathering (children : List Nat) (settled : Bool)
  | draining (children : List Nat) (settled : Bool)
  | ended (returned : Bool)
deriving DecidableEq, Repr

/-- It waits for its children. -/
def TaskPhase.gathers : TaskPhase → Bool
  | .gathering _ _ | .draining _ _ => true
  | .created | .working | .ended _ => false

/-- What a task does in a stretch: it goes on with a job and waits for something, or for
the children it creates for further jobs, or it ends. -/
inductive Stretch (κ : Type) where
  | await (job : κ)
  | gather (job : κ) (jobs : List κ)
  | finish (returned : Bool)

structure TreeTask (κ : Type) where
  job : κ
  parent : Option Nat := none
  phase : TaskPhase := .created
  cancelRequested : Bool := false

namespace TreeTask
variable {κ : Type}

def running (t : TreeTask κ) : Bool :=
  match t.phase with
  | .ended _ => false
  | _ => true

def failed (t : TreeTask κ) : Bool :=
  match t.phase with
  | .ended returned => !returned
  | _ => false

def children (t : TreeTask κ) : List Nat :=
  match t.phase with
  | .gathering children _ | .draining children _ => children
  | _ => []

/-- The tasks that a cancellation of this one is passed on to. -/
def forwards (t : TreeTask κ) : List Nat :=
  match t.phase with
  | .gathering children false | .draining children false => children
  | _ => []

/-- It has ended, or does nothing any more but await what it cancelled. -/
def closing (t : TreeTask κ) : Bool :=
  match t.phase with
  | .draining _ _ | .ended _ => true
  | _ => false

def mark (asked : Bool) (t : TreeTask κ) : TreeTask κ :=
  { t with cancelRequested := t.cancelRequested || asked }

section Mark
variable (asked : Bool) (t : TreeTask κ)

@[simp] theorem phase_mark : (t.mark asked).phase = t.phase := rfl

@[simp] theorem parent_mark : (t.mark asked).parent = t.parent := rfl

@[simp] theorem running_mark : (t.mark asked).running = t.running := rfl

@[simp] theorem failed_mark : (t.mark asked).failed = t.failed := rfl

@[simp] theorem children_mark : (t.mark asked).children = t.children := rfl

end Mark

theorem running_of_child {t : TreeTask κ} {c : Nat} (h : c ∈ t.children) : t.running = true := by
  rw [children] at h
  rw [running]
  split at h
  · next hphase => rw [hphase]
  · next hphase => rw [hphase]
  · cases h

theorem running_of_working {t : TreeTask κ} (h : t.phase = .working) : t.running = true := by
  rw [running, h]

theorem not_running_of_failed {t : TreeTask κ} (h : t.failed = true) : t.running = false := by
  rw [failed] at h
  rw [running]
  split at h
  · next hphase => simp
  · cases h

end TreeTask

namespace TaskTree
variable {κ : Type}

def endedAt (tasks : List (TreeTask κ)) (i : Nat) : Bool := tasks[i]?.any fun t => !t.running

def failedAt (tasks : List (TreeTask κ)) (i : Nat) : Bool := tasks[i]?.any TreeTask.failed

/-- Nothing is raised where the task waits. -/
def goesOn (tasks : List (TreeTask κ)) (t : TreeTask κ) : Bool :=
  match t.phase with
  | .created | .working => !t.cancelRequested
  | .gathering children true => !(t.cancelRequested || children.any (failedAt tasks))
  | _ => false

/-- What is raised where the task waits ends it. -/
def raises (t : TreeTask κ) : Bool :=
  match t.phase with
  | .created | .working => t.cancelRequested
  | .draining _ true => true
  | _ => false

def run (i : Nat) (stretch : Stretch κ) (tasks : List (TreeTask κ)) :
    Option (List (TreeTask κ)) :=
  match tasks[i]? with
  | none => none
  | some t =>
      match stretch with
      | .await job =>
          if goesOn tasks t then some (tasks.set i { t with job := job, phase := .working })
          else none
      | .gather job jobs =>
          if goesOn tasks t then
            some (tasks.set i { t with
                job := job
                phase := .gathering (List.range' tasks.length jobs.length) false } ++
              jobs.map fun job => { job := job, parent := some i })
          else none
      | .finish returned =>
          if goesOn tasks t || (raises t && !returned) then
            some (tasks.set i { t with phase := .ended returned })
          else none

/-- The callbacks of the children have settled the future of the `gather`. -/
def settle (i : Nat) (tasks : List (TreeTask κ)) : Option (List (TreeTask κ)) :=
  match tasks[i]? with
  | none => none
  | some t =>
      match t.phase with
      | .gathering children false =>
          if children.any (failedAt tasks) || children.all (endedAt tasks) then
            some (tasks.set i { t with phase := .gathering children true })
          else none
      | .draining children false =>
          if children.all (endedAt tasks) then
            some (tasks.set i { t with phase := .draining children true })
          else none
      | _ => none

/-- The tasks that a cancellation of `tasks` comes to, `depth` levels down. -/
def asked (tasks : List (TreeTask κ)) : (depth : Nat) → List Nat → List Nat
  | 0, is => is
  | depth + 1, is =>
      is ++ asked tasks depth (is.flatMap fun i => (tasks[i]?.map TreeTask.forwards).getD [])

def cancel (is : List Nat) (tasks : List (TreeTask κ)) : List (TreeTask κ) :=
  tasks.mapIdx fun i t => t.mark (t.running && (asked tasks tasks.length is).contains i)

/-- The `gather` raises: the task cancels its children and awaits them. -/
def drain (i : Nat) (tasks : List (TreeTask κ)) : Option (List (TreeTask κ)) :=
  match tasks[i]? with
  | none => none
  | some t =>
      match t.phase with
      | .gathering children true =>
          if t.cancelRequested || children.any (failedAt tasks) then
            some ((cancel children tasks).modify i fun t =>
              { t with phase := .draining children false })
          else none
      | _ => none

/-! ## What holds of the tree -/

/-- A task that runs is awaited by the one that started it, and a task that drains its
children has cancelled them. -/
structure Sound (tasks : List (TreeTask κ)) : Prop where
  awaited : ∀ (j : Nat) (t : TreeTask κ) (p : Nat), tasks[j]? = some t → t.running = true →
    t.parent = some p → ∃ s, tasks[p]? = some s ∧ j ∈ s.children
  child : ∀ (i : Nat) (s : TreeTask κ) (c : Nat), tasks[i]? = some s → c ∈ s.children →
    i < c ∧ c < tasks.length
  parent_lt : ∀ (j : Nat) (t : TreeTask κ) (p : Nat), tasks[j]? = some t → t.parent = some p →
    p < j
  gathered : ∀ (i : Nat) (s : TreeTask κ) (cs : List Nat), tasks[i]? = some s →
    s.phase = .gathering cs true →
      (∃ c ∈ cs, failedAt tasks c = true) ∨ ∀ c ∈ cs, endedAt tasks c = true
  drained : ∀ (i : Nat) (s : TreeTask κ) (cs : List Nat), tasks[i]? = some s →
    s.phase = .draining cs true → ∀ c ∈ cs, endedAt tasks c = true
  cancelled : ∀ (i : Nat) (s : TreeTask κ) (cs : List Nat) (settled : Bool),
    tasks[i]? = some s → s.phase = .draining cs settled → ∀ c ∈ cs, ∀ t, tasks[c]? = some t →
      t.running = true → t.cancelRequested = true

variable {tasks after : List (TreeTask κ)} {i j : Nat} {s t : TreeTask κ}

theorem endedAt_eq (h : tasks[i]? = some t) : endedAt tasks i = !t.running := by
  rw [endedAt, h]
  rfl

theorem failedAt_eq (h : tasks[i]? = some t) : failedAt tasks i = t.failed := by
  rw [failedAt, h]
  rfl

theorem endedAt_iff : endedAt tasks i = true ↔ ∃ t, tasks[i]? = some t ∧ t.running = false := by
  simp [endedAt, Option.any_eq_true]

/-- What a running task may become. -/
structure Becomes (tasks : List (TreeTask κ)) (s t : TreeTask κ) : Prop where
  running : s.running = true
  parent : t.parent = s.parent
  flag : s.cancelRequested = true → t.cancelRequested = true
  fewer : ∀ c ∈ t.children, c ∈ s.children
  left : ∀ c ∈ s.children, c ∈ t.children ∨ endedAt tasks c = true
  gathered : ∀ cs, t.phase = .gathering cs true →
    (∃ c ∈ cs, failedAt tasks c = true) ∨ ∀ c ∈ cs, endedAt tasks c = true
  drained : ∀ cs, t.phase = .draining cs true → ∀ c ∈ cs, endedAt tasks c = true
  cancelled : ∀ cs settled, t.phase = .draining cs settled → ∀ c ∈ cs, ∀ u,
    tasks[c]? = some u → u.running = true → u.cancelRequested = true

theorem endedAt_set (hget : tasks[i]? = some s) (hs : s.running = true)
    (h : endedAt tasks j = true) : endedAt (tasks.set i t) j = true := by
  rw [endedAt, List.getElem?_set_ne, ← endedAt]
  · exact h
  · rintro rfl
    rw [endedAt_eq hget, hs] at h
    cases h

theorem failedAt_set (hget : tasks[i]? = some s) (hs : s.running = true)
    (h : failedAt tasks j = true) : failedAt (tasks.set i t) j = true := by
  rw [failedAt, List.getElem?_set_ne, ← failedAt]
  · exact h
  · rintro rfl
    rw [failedAt_eq hget] at h
    rw [TreeTask.not_running_of_failed h] at hs
    cases hs

theorem settled_set (hget : tasks[i]? = some s) (hs : s.running = true) {cs : List Nat}
    (h : (∃ c ∈ cs, failedAt tasks c = true) ∨ ∀ c ∈ cs, endedAt tasks c = true) :
    (∃ c ∈ cs, failedAt (tasks.set i t) c = true) ∨
      ∀ c ∈ cs, endedAt (tasks.set i t) c = true := by
  cases h with
  | inl h =>
      obtain ⟨c, hc, hfailed⟩ := h
      exact .inl ⟨c, hc, failedAt_set hget hs hfailed⟩
  | inr h => exact .inr fun c hc => endedAt_set hget hs (h c hc)

theorem Sound.set (h : Sound tasks) (hget : tasks[i]? = some s) (hst : Becomes tasks s t) :
    Sound (tasks.set i t) := by
  have hrunning := hst.running
  have hlt := (List.getElem?_eq_some_iff.mp hget).1
  have hself : (tasks.set i t)[i]? = some t := List.getElem?_set_self hlt
  refine ⟨fun j u p hj hu hp => ?_, fun k u c hk hc => ?_, fun j u p hj hp => ?_,
    fun k u cs hk hphase => ?_, fun k u cs hk hphase => ?_,
    fun k u cs settled hk hphase c hc v hv hrun => ?_⟩
  · -- the parent is the task itself, or is as it was
    have hold : ∃ s', tasks[p]? = some s' ∧ j ∈ s'.children := by
      cases getElem?_set_eq_some hj with
      | inl heq =>
          obtain ⟨rfl, rfl⟩ := heq
          exact h.awaited j s p hget hrunning (hst.parent ▸ hp)
      | inr hother => exact h.awaited j u p hother.2 hu hp
    obtain ⟨s', hs', hmem⟩ := hold
    by_cases hpi : p = i
    · subst hpi
      cases hget.symm.trans hs'
      cases hst.left j hmem with
      | inl hkept => exact ⟨t, hself, hkept⟩
      | inr hended =>
          have hne : j ≠ p := fun heq => Nat.lt_irrefl _ (heq ▸ (h.child p s j hget hmem).1)
          rw [List.getElem?_set_ne (Ne.symm hne)] at hj
          rw [endedAt_eq hj, hu] at hended
          cases hended
    · exact ⟨s', (List.getElem?_set_ne (Ne.symm hpi)).trans hs', hmem⟩
  · rw [List.length_set]
    cases getElem?_set_eq_some hk with
    | inl heq =>
        obtain ⟨rfl, rfl⟩ := heq
        exact h.child k s c hget (hst.fewer c hc)
    | inr hother => exact h.child k u c hother.2 hc
  · cases getElem?_set_eq_some hj with
    | inl heq =>
        obtain ⟨rfl, rfl⟩ := heq
        exact h.parent_lt j s p hget (hst.parent ▸ hp)
    | inr hother => exact h.parent_lt j u p hother.2 hp
  · apply settled_set hget hrunning
    cases getElem?_set_eq_some hk with
    | inl heq =>
        obtain ⟨rfl, rfl⟩ := heq
        exact hst.gathered cs hphase
    | inr hother => exact h.gathered k u cs hother.2 hphase
  · intro c hc
    apply endedAt_set hget hrunning
    cases getElem?_set_eq_some hk with
    | inl heq =>
        obtain ⟨rfl, rfl⟩ := heq
        exact hst.drained cs hphase c hc
    | inr hother => exact h.drained k u cs hother.2 hphase c hc
  · have hold : ∀ w, tasks[c]? = some w → w.running = true → w.cancelRequested = true := by
      cases getElem?_set_eq_some hk with
      | inl heq =>
          obtain ⟨rfl, rfl⟩ := heq
          exact hst.cancelled cs settled hphase c hc
      | inr hother => exact h.cancelled k u cs settled hother.2 hphase c hc
    cases getElem?_set_eq_some hv with
    | inl heq =>
        obtain ⟨rfl, rfl⟩ := heq
        exact hst.flag (hold s hget hrunning)
    | inr hother => exact hold v hother.2 hrun

/-- The children of the task are done with. -/
theorem becomes_childless (job : κ) {phase : TaskPhase} (hs : s.running = true)
    (hleft : ∀ c ∈ s.children, endedAt tasks c = true)
    (hphase : ∀ cs settled, phase ≠ .gathering cs settled ∧ phase ≠ .draining cs settled) :
    Becomes tasks s { s with job := job, phase := phase } where
  running := hs
  parent := rfl
  flag := id
  fewer := by
    intro c hc
    rw [TreeTask.children] at hc
    split at hc
    · next hgathering => exact absurd hgathering (hphase _ _).1
    · next hdraining => exact absurd hdraining (hphase _ _).2
    · cases hc
  left := fun c hc => .inr (hleft c hc)
  gathered := fun cs h => absurd h (hphase cs true).1
  drained := fun cs h => absurd h (hphase cs true).2
  cancelled := fun cs settled h => absurd h (hphase cs settled).2

/-- The task waits for the same children. -/
theorem becomes_waiting {phase : TaskPhase} {cs : List Nat} (hs : s.running = true)
    (hbefore : s.children = cs) (hafter : TreeTask.children { s with phase := phase } = cs)
    (hgathered : phase = .gathering cs true →
      (∃ c ∈ cs, failedAt tasks c = true) ∨ ∀ c ∈ cs, endedAt tasks c = true)
    (hdrained : phase = .draining cs true → ∀ c ∈ cs, endedAt tasks c = true)
    (hcancelled : ∀ settled, phase = .draining cs settled → ∀ c ∈ cs, ∀ u,
      tasks[c]? = some u → u.running = true → u.cancelRequested = true) :
    Becomes tasks s { s with phase := phase } where
  running := hs
  parent := rfl
  flag := id
  fewer := fun c hc => hbefore ▸ hafter ▸ hc
  left := fun c hc => .inl (hafter.symm ▸ hbefore ▸ hc)
  gathered := by
    rintro cs' rfl
    cases hafter
    exact hgathered rfl
  drained := by
    rintro cs' rfl
    cases hafter
    exact hdrained rfl
  cancelled := by
    rintro cs' settled rfl
    cases hafter
    exact hcancelled settled rfl

/-! ## Cancellation -/

theorem getElem?_cancel {is : List Nat} (h : (cancel is tasks)[j]? = some t) :
    ∃ s flag, tasks[j]? = some s ∧ t = s.mark flag := by
  rw [cancel, List.getElem?_mapIdx] at h
  obtain ⟨s, hs, rfl⟩ := Option.map_eq_some_iff.mp h
  exact ⟨s, _, hs, rfl⟩

theorem cancel_getElem? (is : List Nat) (h : tasks[j]? = some s) :
    ∃ flag, (cancel is tasks)[j]? = some (s.mark flag) := by
  rw [cancel, List.getElem?_mapIdx, h]
  exact ⟨_, rfl⟩

theorem length_cancel (is : List Nat) : (cancel is tasks).length = tasks.length :=
  List.length_mapIdx

theorem mem_asked {is : List Nat} (h : i ∈ is) (depth : Nat) : i ∈ asked tasks depth is := by
  cases depth with
  | zero => exact h
  | succ depth => exact List.mem_append_left _ h

/-- Whom a cancellation is for is asked, if it still runs. -/
theorem cancelRequested_cancel {is : List Nat} (hi : i ∈ is)
    (h : (cancel is tasks)[i]? = some t) (hrunning : t.running = true) :
    t.cancelRequested = true := by
  rw [cancel, List.getElem?_mapIdx] at h
  obtain ⟨s, hs, rfl⟩ := Option.map_eq_some_iff.mp h
  rw [TreeTask.running_mark] at hrunning
  simp [TreeTask.mark, hrunning, mem_asked hi]

theorem endedAt_cancel (is : List Nat) : endedAt (cancel is tasks) j = endedAt tasks j := by
  rw [endedAt, endedAt, cancel, List.getElem?_mapIdx]
  cases tasks[j]? with
  | none => rfl
  | some t => rfl

theorem failedAt_cancel (is : List Nat) : failedAt (cancel is tasks) j = failedAt tasks j := by
  rw [failedAt, failedAt, cancel, List.getElem?_mapIdx]
  cases tasks[j]? with
  | none => rfl
  | some t => rfl

theorem Sound.cancel (h : Sound tasks) (is : List Nat) : Sound (cancel is tasks) where
  awaited := by
    intro j t p hj ht hp
    obtain ⟨b, flag, hb, rfl⟩ := getElem?_cancel hj
    obtain ⟨s, hs, hmem⟩ := h.awaited j b p hb ht hp
    obtain ⟨flag', hs'⟩ := cancel_getElem? is hs
    exact ⟨_, hs', hmem⟩
  child := by
    intro i s c hi hc
    rw [length_cancel]
    obtain ⟨b, flag, hb, rfl⟩ := getElem?_cancel hi
    exact h.child i b c hb hc
  parent_lt := by
    intro j t p hj hp
    obtain ⟨b, flag, hb, rfl⟩ := getElem?_cancel hj
    exact h.parent_lt j b p hb hp
  gathered := by
    intro i s cs hi hphase
    simp only [endedAt_cancel, failedAt_cancel]
    obtain ⟨b, flag, hb, rfl⟩ := getElem?_cancel hi
    exact h.gathered i b cs hb hphase
  drained := by
    intro i s cs hi hphase
    simp only [endedAt_cancel]
    obtain ⟨b, flag, hb, rfl⟩ := getElem?_cancel hi
    exact h.drained i b cs hb hphase
  cancelled := by
    intro i s cs settled hi hphase c hc t ht hrunning
    obtain ⟨b, flag, hb, rfl⟩ := getElem?_cancel hi
    obtain ⟨u, flag', hu, rfl⟩ := getElem?_cancel ht
    have hasked := h.cancelled i b cs settled hb hphase c hc u hu hrunning
    simp [TreeTask.mark, hasked]

/-! ## The operations -/

section Operations
variable (h : Sound tasks)
include h

/-- A task that goes on, or ends by what is raised, has no child left that runs. -/
theorem Sound.left (hget : tasks[i]? = some s) (hs : goesOn tasks s = true ∨ raises s = true) :
    s.running = true ∧ ∀ c ∈ s.children, endedAt tasks c = true := by
  cases hphase : s.phase with
  | created | working => simp [TreeTask.running, TreeTask.children, hphase]
  | gathering cs settled =>
      refine ⟨by simp [TreeTask.running, hphase], ?_⟩
      rw [TreeTask.children, hphase]
      cases settled with
      | false => simp [goesOn, raises, hphase] at hs
      | true =>
          cases h.gathered i s cs hget hphase with
          | inl hfailed =>
              have hany := List.any_eq_true.mpr hfailed
              simp [goesOn, raises, hphase, hany] at hs
          | inr hended => exact hended
  | draining cs settled =>
      refine ⟨by simp [TreeTask.running, hphase], ?_⟩
      rw [TreeTask.children, hphase]
      cases settled with
      | false => simp [goesOn, raises, hphase] at hs
      | true => exact h.drained i s cs hget hphase
  | ended returned => simp [goesOn, raises, hphase] at hs

omit h in
theorem settle_eq_some (hstep : settle i tasks = some after) :
    ∃ s phase, tasks[i]? = some s ∧ s.phase.gathers = true ∧ phase.gathers = true ∧
      after = tasks.set i { s with phase := phase } := by
  rw [TaskTree.settle] at hstep
  split at hstep
  · cases hstep
  · next s hget =>
      split at hstep
      · next cs hphase =>
          obtain ⟨-, heq⟩ := Option.ite_none_right_eq_some.mp hstep
          cases heq
          exact ⟨s, .gathering cs true, hget, hphase ▸ rfl, rfl, rfl⟩
      · next cs hphase =>
          obtain ⟨-, heq⟩ := Option.ite_none_right_eq_some.mp hstep
          cases heq
          exact ⟨s, .draining cs true, hget, hphase ▸ rfl, rfl, rfl⟩
      · cases hstep

omit h in
theorem drain_eq_some (hstep : drain i tasks = some after) :
    ∃ s cs flag, tasks[i]? = some s ∧ s.phase = .gathering cs true ∧
      (TaskTree.cancel cs tasks)[i]? = some (s.mark flag) ∧
      after =
        (TaskTree.cancel cs tasks).set i { s.mark flag with phase := .draining cs false } := by
  rw [TaskTree.drain] at hstep
  split at hstep
  · cases hstep
  · next s hget =>
      split at hstep
      · next cs hphase =>
          obtain ⟨-, heq⟩ := Option.ite_none_right_eq_some.mp hstep
          cases heq
          obtain ⟨flag, hmarked⟩ := cancel_getElem? cs hget
          refine ⟨s, cs, flag, hget, hphase, hmarked, ?_⟩
          rw [List.modify_eq_set_getElem?, hmarked]
          rfl
      · cases hstep

theorem Sound.settle (hstep : settle i tasks = some after) : Sound after := by
  rw [TaskTree.settle] at hstep
  split at hstep
  · cases hstep
  · next s hget =>
      split at hstep
      · next cs hphase =>
          obtain ⟨hsettled, heq⟩ := Option.ite_none_right_eq_some.mp hstep
          cases heq
          simp only [Bool.or_eq_true, List.any_eq_true, List.all_eq_true] at hsettled
          exact h.set hget (becomes_waiting (by simp [TreeTask.running, hphase])
            (by simp [TreeTask.children, hphase]) rfl (fun _ => hsettled) nofun nofun)
      · next cs hphase =>
          obtain ⟨hsettled, heq⟩ := Option.ite_none_right_eq_some.mp hstep
          cases heq
          refine h.set hget (becomes_waiting (by simp [TreeTask.running, hphase])
            (by simp [TreeTask.children, hphase]) rfl nofun (fun _ => ?_) fun settled _ => ?_)
          · exact List.all_eq_true.mp hsettled
          · exact h.cancelled i s cs false hget hphase
      · cases hstep

theorem Sound.drain (hstep : drain i tasks = some after) : Sound after := by
  obtain ⟨s, cs, flag, hget, hphase, hmarked, rfl⟩ := drain_eq_some hstep
  refine (h.cancel cs).set hmarked (becomes_waiting (by simp [TreeTask.running, hphase])
    (by simp [TreeTask.children, hphase]) rfl nofun nofun ?_)
  exact fun _ _ c hc u hu hrunning => cancelRequested_cancel hc hu hrunning

omit h in
theorem getElem?_spawned {jobs : List κ} {u : TreeTask κ}
    (hget : (tasks.set i t ++ jobs.map fun job => { job := job, parent := some i })[j]? = some u) :
    j = i ∧ u = t ∨ j ≠ i ∧ tasks[j]? = some u ∨
      tasks.length ≤ j ∧ j < tasks.length + jobs.length ∧ u.parent = some i ∧
        u.phase = .created := by
  cases Nat.lt_or_ge j (tasks.set i t).length with
  | inl hlt =>
      rw [List.getElem?_append_left hlt] at hget
      cases getElem?_set_eq_some hget with
      | inl hsame => exact .inl hsame
      | inr hother => exact .inr (.inl hother)
  | inr hge =>
      rw [List.getElem?_append_right hge, List.getElem?_map] at hget
      obtain ⟨job, hjob, rfl⟩ := Option.map_eq_some_iff.mp hget
      have hlt := (List.getElem?_eq_some_iff.mp hjob).1
      rw [List.length_set] at hge hlt
      exact .inr (.inr ⟨hge, by omega, rfl, rfl⟩)

omit h in
theorem spawned_getElem? {added : List (TreeTask κ)} {u : TreeTask κ} (hne : j ≠ i)
    (hget : tasks[j]? = some u) : (tasks.set i t ++ added)[j]? = some u := by
  have hlt := (List.getElem?_eq_some_iff.mp hget).1
  rw [List.getElem?_append_left (by rwa [List.length_set]), List.getElem?_set_ne (Ne.symm hne)]
  exact hget

theorem Sound.adopt (hget : tasks[i]? = some s) (hrunning : s.running = true)
    (hleft : ∀ c ∈ s.children, endedAt tasks c = true) (job : κ) (jobs : List κ) :
    Sound (tasks.set i { s with
        job := job
        phase := .gathering (List.range' tasks.length jobs.length) false } ++
      jobs.map fun job => { job := job, parent := some i }) := by
  have hlt := (List.getElem?_eq_some_iff.mp hget).1
  have hended {added : List (TreeTask κ)} {t : TreeTask κ} {c : Nat}
      (hc : endedAt tasks c = true) : endedAt (tasks.set i t ++ added) c = true := by
    obtain ⟨u, hu, hover⟩ := endedAt_iff.mp hc
    refine endedAt_iff.mpr ⟨u, spawned_getElem? ?_ hu, hover⟩
    rintro rfl
    cases hget.symm.trans hu
    rw [hrunning] at hover
    cases hover
  have hparent {j p : Nat} {t u : TreeTask κ} (hj : tasks[j]? = some t)
      (ht : t.running = true) (hp : tasks[p]? = some u) (hmem : j ∈ u.children) : p ≠ i := by
    rintro rfl
    cases hget.symm.trans hp
    have hover := hleft j hmem
    rw [endedAt_eq hj, ht] at hover
    cases hover
  refine ⟨fun j u p hj hu hp => ?_, fun k u c hk hc => ?_, fun j u p hj hp => ?_,
    fun k u cs hk hphase => ?_, fun k u cs hk hphase c hc => ?_,
    fun k u cs settled hk hphase c hc v hv hrun => ?_⟩
  · rcases getElem?_spawned hj with ⟨rfl, rfl⟩ | ⟨hne, hold⟩ | ⟨hge, hbound, hnew, -⟩
    · obtain ⟨s', hs', hmem⟩ := h.awaited j s p hget hrunning hp
      exact ⟨s', spawned_getElem? (hparent hget hrunning hs' hmem) hs', hmem⟩
    · obtain ⟨s', hs', hmem⟩ := h.awaited j u p hold hu hp
      exact ⟨s', spawned_getElem? (hparent hold hu hs' hmem) hs', hmem⟩
    · cases hnew.symm.trans hp
      refine ⟨{ s with
        job := job
        phase := .gathering (List.range' tasks.length jobs.length) false }, ?_,
        List.mem_range'_1.mpr ⟨hge, hbound⟩⟩
      rw [List.getElem?_append_left (by rwa [List.length_set]), List.getElem?_set_self hlt]
  · rw [List.length_append, List.length_set, List.length_map]
    rcases getElem?_spawned hk with ⟨rfl, rfl⟩ | ⟨hne, hold⟩ | ⟨-, -, -, hcreated⟩
    · obtain ⟨hge, hbound⟩ := List.mem_range'_1.mp hc
      exact ⟨by omega, hbound⟩
    · obtain ⟨hless, hbound⟩ := h.child k u c hold hc
      exact ⟨hless, by omega⟩
    · rw [TreeTask.children, hcreated] at hc
      cases hc
  · rcases getElem?_spawned hj with ⟨rfl, rfl⟩ | ⟨hne, hold⟩ | ⟨hge, -, hnew, -⟩
    · exact h.parent_lt j s p hget hp
    · exact h.parent_lt j u p hold hp
    · cases hnew.symm.trans hp
      omega
  · rcases getElem?_spawned hk with ⟨rfl, rfl⟩ | ⟨hne, hold⟩ | ⟨-, -, -, hcreated⟩
    · cases hphase
    · cases h.gathered k u cs hold hphase with
      | inl hfailed =>
          obtain ⟨c, hc, hfailed⟩ := hfailed
          refine .inl ⟨c, hc, ?_⟩
          obtain ⟨v, hv, hvfailed⟩ := (Option.any_eq_true _ _).mp hfailed
          rw [failedAt, spawned_getElem? ?_ hv]
          · exact hvfailed
          · rintro rfl
            cases hget.symm.trans hv
            rw [TreeTask.not_running_of_failed hvfailed] at hrunning
            cases hrunning
      | inr hall => exact .inr fun c hc => hended (hall c hc)
    · rw [hcreated] at hphase
      cases hphase
  · rcases getElem?_spawned hk with ⟨rfl, rfl⟩ | ⟨hne, hold⟩ | ⟨-, -, -, hcreated⟩
    · cases hphase
    · exact hended (h.drained k u cs hold hphase c hc)
    · rw [hcreated] at hphase
      cases hphase
  · rcases getElem?_spawned hk with ⟨rfl, rfl⟩ | ⟨hne, hold⟩ | ⟨-, -, -, hcreated⟩
    · cases hphase
    · have hcs := h.cancelled k u cs settled hold hphase c hc
      have hbound := (h.child k u c hold (by rw [TreeTask.children, hphase]; exact hc)).2
      rcases getElem?_spawned hv with ⟨rfl, rfl⟩ | ⟨-, hold'⟩ | ⟨hge, -, -, -⟩
      · exact hcs s hget hrunning
      · exact hcs v hold' hrun
      · omega
    · rw [hcreated] at hphase
      cases hphase

omit h in
theorem run_await {job : κ} (hstep : run i (.await job) tasks = some after) :
    ∃ s, tasks[i]? = some s ∧ goesOn tasks s = true ∧
      after = tasks.set i { s with job := job, phase := .working } := by
  rw [TaskTree.run] at hstep
  split at hstep
  · cases hstep
  · next s hget =>
      obtain ⟨hs, heq⟩ := Option.ite_none_right_eq_some.mp hstep
      cases heq
      exact ⟨s, hget, hs, rfl⟩

omit h in
theorem run_gather {job : κ} {jobs : List κ} (hstep : run i (.gather job jobs) tasks = some after) :
    ∃ s, tasks[i]? = some s ∧ goesOn tasks s = true ∧
      after = tasks.set i { s with
          job := job
          phase := .gathering (List.range' tasks.length jobs.length) false } ++
        jobs.map fun job => { job := job, parent := some i } := by
  rw [TaskTree.run] at hstep
  split at hstep
  · cases hstep
  · next s hget =>
      obtain ⟨hs, heq⟩ := Option.ite_none_right_eq_some.mp hstep
      cases heq
      exact ⟨s, hget, hs, rfl⟩

omit h in
theorem run_finish {returned : Bool} (hstep : run i (.finish returned) tasks = some after) :
    ∃ s, tasks[i]? = some s ∧ (goesOn tasks s = true ∨ raises s = true) ∧
      after = tasks.set i { s with phase := .ended returned } := by
  rw [TaskTree.run] at hstep
  split at hstep
  · cases hstep
  · next s hget =>
      obtain ⟨hs, heq⟩ := Option.ite_none_right_eq_some.mp hstep
      cases heq
      simp only [Bool.or_eq_true, Bool.and_eq_true] at hs
      exact ⟨s, hget, hs.imp_right And.left, rfl⟩

theorem Sound.run {stretch : Stretch κ} (hstep : run i stretch tasks = some after) :
    Sound after := by
  cases stretch with
  | await job =>
      obtain ⟨s, hget, hs, rfl⟩ := run_await hstep
      obtain ⟨hrunning, hleft⟩ := h.left hget (.inl hs)
      exact h.set hget (becomes_childless job hrunning hleft (by simp))
  | gather job jobs =>
      obtain ⟨s, hget, hs, rfl⟩ := run_gather hstep
      obtain ⟨hrunning, hleft⟩ := h.left hget (.inl hs)
      exact h.adopt hget hrunning hleft job jobs
  | finish returned =>
      obtain ⟨s, hget, hs, rfl⟩ := run_finish hstep
      obtain ⟨hrunning, hleft⟩ := h.left hget hs
      exact h.set hget (becomes_childless s.job hrunning hleft (by simp))

end Operations

/-- A single task, which works. -/
theorem sound_root (job : κ) : Sound [({ job := job, phase := .working } : TreeTask κ)] := by
  have hget {i : Nat} {s : TreeTask κ}
      (h : [({ job := job, phase := .working } : TreeTask κ)][i]? = some s) :
      s = { job := job, phase := .working } := List.mem_singleton.mp (List.mem_of_getElem? h)
  refine ⟨fun j t p h _ hp => ?_, fun i s c h hc => ?_, fun j t p h hp => ?_,
    fun i s cs h hphase => ?_, fun i s cs h hphase => ?_, fun i s cs settled h hphase => ?_⟩
  · rw [hget h] at hp
    cases hp
  · rw [hget h] at hc
    cases hc
  · rw [hget h] at hp
    cases hp
  · rw [hget h] at hphase
    cases hphase
  · rw [hget h] at hphase
    cases hphase
  · rw [hget h] at hphase
    cases hphase

/-! ## What follows -/

theorem not_goesOn_of_closing (hs : s.closing = true) : goesOn tasks s = false := by
  rw [TreeTask.closing] at hs
  split at hs
  · next hphase => simp [goesOn, hphase]
  · next hphase => simp [goesOn, hphase]
  · cases hs

theorem run_closing {stretch : Stretch κ} (hstep : run i stretch tasks = some after)
    (hget : tasks[j]? = some s) (hs : s.closing = true) :
    ∃ t, after[j]? = some t ∧ t.closing = true := by
  have hother {u : TreeTask κ} (hu : tasks[i]? = some u) (h : goesOn tasks u = true) : j ≠ i := by
    rintro rfl
    cases hget.symm.trans hu
    rw [not_goesOn_of_closing hs] at h
    cases h
  cases stretch with
  | await job =>
      obtain ⟨u, hu, hon, rfl⟩ := run_await hstep
      exact ⟨s, (List.getElem?_set_ne (Ne.symm (hother hu hon))).trans hget, hs⟩
  | gather job jobs =>
      obtain ⟨u, hu, hon, rfl⟩ := run_gather hstep
      exact ⟨s, spawned_getElem? (hother hu hon) hget, hs⟩
  | finish returned =>
      obtain ⟨u, hu, -, rfl⟩ := run_finish hstep
      by_cases hj : j = i
      · subst hj
        exact ⟨_, List.getElem?_set_self (List.getElem?_eq_some_iff.mp hget).1, rfl⟩
      · exact ⟨s, (List.getElem?_set_ne (Ne.symm hj)).trans hget, hs⟩

theorem cancel_closing (is : List Nat) (hget : tasks[j]? = some s) (hs : s.closing = true) :
    ∃ t, (cancel is tasks)[j]? = some t ∧ t.closing = true := by
  obtain ⟨flag, hmarked⟩ := cancel_getElem? is hget
  exact ⟨_, hmarked, hs⟩

theorem settle_closing (hstep : settle i tasks = some after) (hget : tasks[j]? = some s)
    (hs : s.closing = true) : ∃ t, after[j]? = some t ∧ t.closing = true := by
  rw [settle] at hstep
  split at hstep
  · cases hstep
  · next u hu =>
      split at hstep
      · next cs hphase =>
          obtain ⟨-, heq⟩ := Option.ite_none_right_eq_some.mp hstep
          cases heq
          refine ⟨s, (List.getElem?_set_ne ?_).trans hget, hs⟩
          rintro rfl
          cases hget.symm.trans hu
          rw [TreeTask.closing, hphase] at hs
          cases hs
      · obtain ⟨-, heq⟩ := Option.ite_none_right_eq_some.mp hstep
        cases heq
        by_cases hj : j = i
        · subst hj
          exact ⟨_, List.getElem?_set_self (List.getElem?_eq_some_iff.mp hget).1, rfl⟩
        · exact ⟨s, (List.getElem?_set_ne (Ne.symm hj)).trans hget, hs⟩
      · cases hstep

theorem drain_closing (hstep : drain i tasks = some after) (hget : tasks[j]? = some s)
    (hs : s.closing = true) : ∃ t, after[j]? = some t ∧ t.closing = true := by
  obtain ⟨u, cs, flag, -, -, hmarked, rfl⟩ := drain_eq_some hstep
  by_cases hj : j = i
  · subst hj
    exact ⟨_, List.getElem?_set_self (List.getElem?_eq_some_iff.mp hmarked).1, rfl⟩
  · obtain ⟨flag', hother⟩ := cancel_getElem? cs hget
    exact ⟨_, (List.getElem?_set_ne (Ne.symm hj)).trans hother, hs⟩

/-- A child of a task that closes has been asked to cancel, if it still runs. -/
theorem Sound.cancelRequested (h : Sound tasks) (hget : tasks[i]? = some s)
    (hs : s.closing = true) (hchild : tasks[j]? = some t) (hparent : t.parent = some i)
    (ht : t.running = true) : t.cancelRequested = true := by
  obtain ⟨s', hs', hmem⟩ := h.awaited j t i hchild ht hparent
  cases hget.symm.trans hs'
  rw [TreeTask.closing] at hs
  rw [TreeTask.children] at hmem
  split at hs
  · next cs settled hphase =>
      rw [hphase] at hmem
      exact h.cancelled i s cs settled hget hphase j hmem t hchild ht
  · next hphase =>
      rw [hphase] at hmem
      cases hmem
  · cases hs

/-- Once every task without a parent has ended, all have. -/
theorem Sound.all_ended (h : Sound tasks)
    (hroots : ∀ t ∈ tasks, t.parent = none → t.running = false) :
    ∀ t ∈ tasks, t.running = false := by
  intro t hmem
  obtain ⟨j, hget⟩ := List.mem_iff_getElem?.mp hmem
  induction j using Nat.strongRecOn generalizing t with
  | ind j ih =>
      cases hparent : t.parent with
      | none => exact hroots t hmem hparent
      | some p =>
          by_contra hrunning
          rw [Bool.not_eq_false] at hrunning
          obtain ⟨s, hs, hchild⟩ := h.awaited j t p hget hrunning hparent
          have hended := ih p (h.parent_lt j t p hget hparent) s (List.mem_of_getElem? hs) hs
          rw [TreeTask.running_of_child hchild] at hended
          cases hended

/-- What a task may do where nothing is raised. -/
theorem run_of_goesOn (hget : tasks[i]? = some s) (hs : goesOn tasks s = true)
    (stretch : Stretch κ) : ∃ after, run i stretch tasks = some after := by
  cases stretch <;> simp [run, hget, hs]

theorem goesOn_of_working (hphase : s.phase = .working) (hflag : s.cancelRequested = false) :
    goesOn tasks s = true := by
  simp [goesOn, hphase, hflag]

theorem run_of_raises (hget : tasks[i]? = some s) (hs : raises s = true) :
    ∃ after, run i (.finish false) tasks = some after := by
  simp [run, hget, hs]

/-- A task whose children have all ended goes on behind them. -/
theorem gathers_moves (hget : tasks[i]? = some s) (hs : s.phase.gathers = true)
    (hleft : ∀ c ∈ s.children, endedAt tasks c = true) :
    (∃ after, settle i tasks = some after) ∨ (∃ after, drain i tasks = some after) ∨
      (∃ cs, s.phase = .gathering cs true) ∧ goesOn tasks s = true ∨
      (∃ cs, s.phase = .draining cs true) ∧ raises s = true := by
  cases hphase : s.phase with
  | created | working | ended _ => rw [hphase] at hs; cases hs
  | gathering cs settled =>
      have hall : cs.all (endedAt tasks) = true := by
        rw [List.all_eq_true]
        rwa [TreeTask.children, hphase] at hleft
      cases settled with
      | false => exact .inl (by simp [settle, hget, hphase, hall])
      | true =>
          cases hraise : s.cancelRequested || cs.any (failedAt tasks) with
          | true => exact .inr (.inl (by simp [drain, hget, hphase, hraise]))
          | false =>
              exact .inr (.inr (.inl ⟨⟨cs, rfl⟩, by simp only [goesOn, hphase, hraise]; rfl⟩))
  | draining cs settled =>
      have hall : cs.all (endedAt tasks) = true := by
        rw [List.all_eq_true]
        rwa [TreeTask.children, hphase] at hleft
      cases settled with
      | false => exact .inl (by simp [settle, hget, hphase, hall])
      | true => exact .inr (.inr (.inr ⟨⟨cs, rfl⟩, by simp only [raises, hphase]⟩))

/-- While a task runs, some task does not wait for another one. -/
theorem Sound.ready (h : Sound tasks) (hget : tasks[i]? = some t) (ht : t.running = true) :
    ∃ (j : Nat) (s : TreeTask κ), tasks[j]? = some s ∧ s.running = true ∧
      ∀ c ∈ s.children, endedAt tasks c = true := by
  generalize hn : tasks.length - i = n
  induction n using Nat.strongRecOn generalizing i t with
  | ind n ih =>
      by_cases hall : ∀ c ∈ t.children, endedAt tasks c = true
      · exact ⟨i, t, hget, ht, hall⟩
      · push Not at hall
        obtain ⟨c, hc, hrunning⟩ := hall
        obtain ⟨hlt, hlength⟩ := h.child i t c hget hc
        have hchild := List.getElem?_eq_getElem hlength
        rw [endedAt_eq hchild, Ne, Bool.not_eq_true', Bool.not_eq_false] at hrunning
        exact ih (tasks.length - c) (by omega) hchild hrunning rfl

end TaskTree
end Foundation
