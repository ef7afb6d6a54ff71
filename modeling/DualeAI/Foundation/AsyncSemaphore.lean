import DualeAI.Foundation.Indexed
import DualeAI.Foundation.Transition
import Mathlib.Data.List.Nodup
import Mathlib.Data.List.Pairwise

/-!
`asyncio.Semaphore`, and the tasks that enter and leave it.

A task that finds no free permit, or somebody who still waits for one, waits on a
future of its own, behind those that wait already. A wake-up hands the first of them
its permit before it runs again; one that is cancelled in between gives the permit
back. Each task keeps its seat, so that it can enter again after it left.
-/
namespace Foundation

/-- Where a task stands. A future that is done was given its permit, and the task may
have been cancelled since, or it was cancelled itself. -/
inductive Seat where
  | outside
  | pending
  | granted (cancelled : Bool)
  | withdrawn
  | inside
deriving DecidableEq, Repr

namespace Seat

def permits : Seat → Nat
  | .granted _ | .inside => 1
  | .outside | .pending | .withdrawn => 0

/-- Its future is registered. -/
def waits : Seat → Bool
  | .pending | .granted _ | .withdrawn => true
  | .outside | .inside => false

/-- Its future is done, and the task runs next. -/
def woken : Seat → Bool
  | .granted _ | .withdrawn => true
  | .outside | .pending | .inside => false

/-- What a task sees of its seat. -/
inductive Stage where
  | outside
  | waiting
  | inside
deriving DecidableEq, Repr

def stage : Seat → Stage
  | .outside => .outside
  | .pending | .granted _ | .withdrawn => .waiting
  | .inside => .inside

theorem waits_eq (seat : Seat) : seat.waits = decide (seat.stage = .waiting) := by
  cases seat <;> rfl

end Seat

structure AsyncSemaphore where
  value : Nat
  /-- The tasks whose futures are registered, in the order they came. -/
  waiters : List Nat := []
  seats : List Seat := []

namespace AsyncSemaphore

def setSeat (i : Nat) (seat : Seat) (s : AsyncSemaphore) : AsyncSemaphore :=
  { s with seats := s.seats.modify i fun _ => seat }

/-- A further task, which has not asked for a permit. -/
def join (s : AsyncSemaphore) : AsyncSemaphore := { s with seats := s.seats ++ [.outside] }

def locked (s : AsyncSemaphore) : Bool :=
  s.value == 0 || s.waiters.any fun i => s.seats[i]? != some .withdrawn

/-- `_wake_up_next`, where there is somebody to wake up. -/
def wakeUpNext (s : AsyncSemaphore) : Option AsyncSemaphore :=
  match s.waiters.find? fun i => s.seats[i]? == some .pending with
  | none => none
  | some i => some (setSeat i (.granted false) { s with value := s.value - 1 })

/-- `while self._value > 0`, where each wake-up takes one off the value. -/
def wakeUpWhile : Nat → AsyncSemaphore → AsyncSemaphore
  | 0, s => s
  | k + 1, s =>
      match s.wakeUpNext with
      | none => s
      | some t => wakeUpWhile k t

def wakeUpAll (s : AsyncSemaphore) : AsyncSemaphore := wakeUpWhile s.value s

/-- `acquire()` up to its first await. -/
def acquire (i : Nat) (s : AsyncSemaphore) : Option AsyncSemaphore :=
  if s.seats[i]? = some .outside then
    if s.locked then some (setSeat i .pending { s with waiters := s.waiters ++ [i] })
    else some (setSeat i .inside { s with value := s.value - 1 })
  else none

/-- The task leaves the queue, with a permit or with a `CancelledError`. -/
def leaveQueue (i : Nat) (seat : Seat) (s : AsyncSemaphore) : AsyncSemaphore :=
  wakeUpAll (setSeat i seat { s with waiters := s.waiters.erase i })

/-- `acquire()` behind its await. -/
def resume (i : Nat) (s : AsyncSemaphore) : Option AsyncSemaphore :=
  match s.seats[i]? with
  | some (.granted false) => some (s.leaveQueue i .inside)
  | some (.granted true) => some ({ s with value := s.value + 1 }.leaveQueue i .outside)
  | some .withdrawn => some (s.leaveQueue i .outside)
  | _ => none

/-- `cancel()` of a task that waits. -/
def cancel (i : Nat) (s : AsyncSemaphore) : Option AsyncSemaphore :=
  match s.seats[i]? with
  | some .pending => some (s.setSeat i .withdrawn)
  | some (.granted _) => some (s.setSeat i (.granted true))
  | some .withdrawn => some s
  | _ => none

def release (i : Nat) (s : AsyncSemaphore) : Option AsyncSemaphore :=
  if s.seats[i]? = some .inside then
    let t := setSeat i .outside { s with value := s.value + 1 }
    some (t.wakeUpNext.getD t)
  else none

/-- Further tasks, one seat for each. -/
def joinMany : Nat → AsyncSemaphore → AsyncSemaphore
  | 0, s => s
  | k + 1, s => joinMany k s.join

/-- `cancel()` of several tasks, of which not all may wait here. -/
def cancelAll (is : List Nat) (s : AsyncSemaphore) : AsyncSemaphore :=
  is.foldl (fun s i => (s.cancel i).getD s) s

/-- What tasks do with a semaphore, between two of their suspensions. -/
inductive Call where
  | join
  | acquire (i : Nat)
  | resume (i : Nat)
  | cancel (i : Nat)
  | release (i : Nat)

def step (s : AsyncSemaphore) : Call → Option AsyncSemaphore
  | .join => some s.join
  | .acquire i => s.acquire i
  | .resume i => s.resume i
  | .cancel i => s.cancel i
  | .release i => s.release i

def Call.acquiring : Call → Option Nat
  | .acquire i => some i
  | .join | .resume _ | .cancel _ | .release _ => none

def stages (s : AsyncSemaphore) : List Seat.Stage := s.seats.map Seat.stage

/-- How many tasks are inside. -/
def inside (s : AsyncSemaphore) : Nat := s.stages.count .inside

/-- Every permit is free or with a task. -/
structure WellFormed (capacity : Nat) (s : AsyncSemaphore) : Prop where
  conserved : s.value + (s.seats.map Seat.permits).sum = capacity
  mem_waiters : ∀ i, i ∈ s.waiters ↔ s.stages[i]? = some .waiting
  nodup : s.waiters.Nodup

/-- No wake-up is lost: where a permit is free and a task waits for one, a woken task
runs next, and it hands on what is free. -/
def Heard (s : AsyncSemaphore) : Prop :=
  0 < s.value → .pending ∈ s.seats → ∃ seat ∈ s.seats, seat.woken = true

variable {capacity i j : Nat} {s t : AsyncSemaphore} {seat before : Seat}

/-! ## One seat changes -/

theorem getElem?_setSeat (h : s.seats[i]? = some before) :
    (s.setSeat i seat).seats[j]? = if i = j then some seat else s.seats[j]? := by
  rw [setSeat, List.getElem?_modify]
  by_cases hj : i = j
  · subst hj
    simp [h]
  · simp [hj]

theorem permits_setSeat (seat : Seat) (h : s.seats[i]? = some before) :
    ((s.setSeat i seat).seats.map Seat.permits).sum + before.permits =
      (s.seats.map Seat.permits).sum + seat.permits :=
  sum_map_modify (fun _ => seat) Seat.permits h

theorem stages_setSeat : (s.setSeat i seat).stages = s.stages.set i seat.stage := by
  apply List.ext_getElem?
  intro j
  simp only [stages, setSeat, List.getElem?_map, List.getElem?_modify, List.getElem?_set,
    List.length_map]
  by_cases hj : i = j
  · subst hj
    cases hget : s.seats[i]? with
    | none => simp [List.getElem?_eq_none_iff.mp hget]
    | some before => simp [(List.getElem?_eq_some_iff.mp hget).1]
  · simp [hj]

theorem getElem?_stages_set {stage now : Seat.Stage} (h : t.stages = s.stages.set i stage)
    (hget : s.stages[i]? = some now) : t.stages[i]? = some stage := by
  rw [h, List.getElem?_set_self (List.getElem?_eq_some_iff.mp hget).1]

/-- A change of seat that is no change of stage. -/
theorem stages_setSeat_same (h : s.seats[i]? = some before) (hstage : seat.stage = before.stage) :
    (s.setSeat i seat).stages = s.stages := by
  rw [stages_setSeat]
  refine set_eq_self ?_
  rw [stages, List.getElem?_map, h, hstage]
  rfl

theorem stages_eq_some : s.stages[i]? = some .waiting ↔
    ∃ seat, s.seats[i]? = some seat ∧ seat.waits = true := by
  rw [stages, List.getElem?_map, Option.map_eq_some_iff]
  simp only [Seat.waits_eq, decide_eq_true_eq]

/-- The queue stays as it is. -/
theorem WellFormed.setSeat (hs : WellFormed capacity s) (hget : s.seats[i]? = some before)
    (seat : Seat) (value : Nat) (hstage : seat.stage = before.stage)
    (hvalue : value + seat.permits = s.value + before.permits) :
    WellFormed capacity (AsyncSemaphore.setSeat i seat { s with value := value }) := by
  have hsum := permits_setSeat seat hget
  have hconserved := hs.conserved
  have hstages := stages_setSeat_same hget hstage
  refine ⟨?_, fun j => ?_, hs.nodup⟩
  · simp only [AsyncSemaphore.setSeat] at hsum ⊢
    omega
  · exact (hs.mem_waiters j).trans (by rw [← hstages]; rfl)

/-! ## Wake-ups -/

theorem wakeUpNext_eq_none (hs : WellFormed capacity s) (h : s.wakeUpNext = none) :
    .pending ∉ s.seats := by
  intro hmem
  obtain ⟨i, hget⟩ := List.mem_iff_getElem?.mp hmem
  have hwaits : i ∈ s.waiters := (hs.mem_waiters i).mpr (by simp [stages, hget, Seat.stage])
  rw [wakeUpNext] at h
  split at h
  · next hfind => exact absurd hget (by simpa using List.find?_eq_none.mp hfind i hwaits)
  · cases h

/-- The first one that is pending is woken. -/
theorem wakeUpNext_eq_some (h : s.wakeUpNext = some t) :
    ∃ i front back, s.waiters = front ++ i :: back ∧ s.seats[i]? = some .pending ∧
      (∀ j ∈ front, s.seats[j]? ≠ some .pending) ∧
      t = setSeat i (.granted false) { s with value := s.value - 1 } := by
  rw [wakeUpNext] at h
  split at h
  · cases h
  · next i hfind =>
      cases h
      obtain ⟨hget, front, back, hsplit, hfront⟩ := List.find?_eq_some_iff_append.mp hfind
      refine ⟨i, front, back, hsplit, by simpa using hget, ?_, rfl⟩
      intro j hj
      simpa using hfront j hj

theorem WellFormed.wakeUpNext (hs : WellFormed capacity s) (hvalue : 0 < s.value)
    (h : s.wakeUpNext = some t) : WellFormed capacity t := by
  obtain ⟨i, -, -, -, hget, -, rfl⟩ := wakeUpNext_eq_some h
  refine hs.setSeat hget (.granted false) (s.value - 1) rfl ?_
  simp only [Seat.permits]
  omega

theorem wakeUpNext_stages (h : s.wakeUpNext = some t) : t.stages = s.stages := by
  obtain ⟨i, -, -, -, hget, -, rfl⟩ := wakeUpNext_eq_some h
  exact stages_setSeat_same (s := { s with value := s.value - 1 }) hget rfl

theorem wakeUpWhile_stages (k : Nat) (s : AsyncSemaphore) :
    (wakeUpWhile k s).stages = s.stages := by
  induction k generalizing s with
  | zero => rfl
  | succ k ih =>
      rw [wakeUpWhile]
      split
      · rfl
      · next t h => rw [ih, wakeUpNext_stages h]

/-- The loop ends with no free permit, or with nobody who waits for one. -/
theorem WellFormed.wakeUpWhile (hs : WellFormed capacity s) {k : Nat} (hk : s.value = k) :
    WellFormed capacity (wakeUpWhile k s) ∧
      ((wakeUpWhile k s).value = 0 ∨ .pending ∉ (AsyncSemaphore.wakeUpWhile k s).seats) := by
  induction k generalizing s with
  | zero => exact ⟨hs, .inl hk⟩
  | succ k ih =>
      rw [AsyncSemaphore.wakeUpWhile]
      split
      · next h => exact ⟨hs, .inr (wakeUpNext_eq_none hs h)⟩
      · next t h =>
          refine ih (hs.wakeUpNext (by omega) h) ?_
          obtain ⟨i, -, -, -, -, -, rfl⟩ := wakeUpNext_eq_some h
          simp only [AsyncSemaphore.setSeat]
          omega

/-! ## The operations -/

/-- What a task does that enters or leaves: its stage changes, and nobody else's. -/
structure Sound (capacity : Nat) (s : AsyncSemaphore) : Prop where
  wellFormed : WellFormed capacity s
  heard : Heard s

theorem heard_of_free (h : s.value = 0 ∨ .pending ∉ s.seats) : Heard s := by
  intro hvalue hmem
  cases h with
  | inl hzero => exact absurd hvalue (by omega)
  | inr hnone => exact absurd hmem hnone

theorem sound_init (capacity : Nat) : Sound capacity { value := capacity } where
  wellFormed := {
    conserved := by simp
    mem_waiters := by simp [stages]
    nodup := List.nodup_nil }
  heard := fun _ hmem => by cases hmem

theorem stages_join : s.join.stages = s.stages ++ [.outside] := List.map_append

theorem WellFormed.notMem_waiters (hs : WellFormed capacity s) (hget : s.seats[i]? = some before)
    (hstage : before.stage ≠ .waiting) : i ∉ s.waiters := by
  rw [hs.mem_waiters, stages, List.getElem?_map, hget]
  simpa using hstage

/-- A task takes another seat, at the end of the queue where it waits. -/
theorem WellFormed.reseat (hs : WellFormed capacity s) (hget : s.seats[i]? = some before)
    (seat : Seat) (value : Nat) (queue : List Nat)
    (hvalue : value + seat.permits = s.value + before.permits)
    (hqueue : seat.stage = .waiting ∧ queue = s.waiters.erase i ++ [i] ∨
      seat.stage ≠ .waiting ∧ queue = s.waiters.erase i) :
    WellFormed capacity (AsyncSemaphore.setSeat i seat ⟨value, queue, s.seats⟩) := by
  have hlt := (List.getElem?_eq_some_iff.mp hget).1
  have hrest {j : Nat} : j ∈ s.waiters.erase i ↔ j ≠ i ∧ s.stages[j]? = some .waiting := by
    rw [hs.nodup.mem_erase_iff, hs.mem_waiters]
  have hstages : (AsyncSemaphore.setSeat i seat ⟨value, queue, s.seats⟩).stages =
      s.stages.set i seat.stage := stages_setSeat (s := s)
  refine ⟨?_, fun j => ?_, ?_⟩
  · have hsum := permits_setSeat seat hget
    have hconserved := hs.conserved
    simp only [AsyncSemaphore.setSeat] at hsum ⊢
    omega
  · rw [hstages, List.getElem?_set]
    have hlength : i < s.stages.length := by rwa [stages, List.length_map]
    cases hqueue with
    | inl hqueue =>
        by_cases hj : i = j
        · simp [← hj, hlength, hqueue, AsyncSemaphore.setSeat]
        · simp [hj, Ne.symm hj, hqueue.2, hrest, AsyncSemaphore.setSeat]
    | inr hqueue =>
        by_cases hj : i = j
        · simp [← hj, hlength, hqueue, hrest, AsyncSemaphore.setSeat]
        · simp [hj, Ne.symm hj, hqueue.2, hrest, AsyncSemaphore.setSeat]
  · cases hqueue with
    | inl hqueue =>
        refine hqueue.2 ▸ List.nodup_append.mpr ⟨hs.nodup.erase i, List.nodup_singleton i, ?_⟩
        intro j hj k hk
        rw [List.mem_singleton.mp hk]
        exact (hrest.mp hj).1
    | inr hqueue => exact hqueue.2 ▸ hs.nodup.erase i

section Operations
variable (hs : Sound capacity s)
include hs

theorem Sound.join : Sound capacity s.join := by
  refine ⟨⟨?_, fun j => ?_, hs.wellFormed.nodup⟩, fun hvalue hmem => ?_⟩
  · have hconserved := hs.wellFormed.conserved
    simpa [AsyncSemaphore.join, Seat.permits] using hconserved
  · rw [stages_join, show s.join.waiters = s.waiters from rfl, hs.wellFormed.mem_waiters]
    constructor
    · intro hget
      rwa [List.getElem?_append_left (List.getElem?_eq_some_iff.mp hget).1]
    · intro hget
      cases getElem?_concat_eq_some hget with
      | inl hget => exact hget
      | inr hlast => cases hlast.2
  · have hpending : .pending ∈ s.seats := by simpa [AsyncSemaphore.join] using hmem
    obtain ⟨seat, hseat, hwoken⟩ := hs.heard hvalue hpending
    exact ⟨seat, List.mem_append_left _ hseat, hwoken⟩

omit hs in
/-- A woken task is not the one that comes or goes. -/
theorem woken_setSeat (hget : s.seats[i]? = some before) (hbefore : before.woken = false)
    (seat : Seat) (h : ∃ a ∈ s.seats, a.woken = true) :
    ∃ a ∈ (setSeat i seat s).seats, a.woken = true := by
  obtain ⟨a, hmem, hwoken⟩ := h
  obtain ⟨j, hj⟩ := List.mem_iff_getElem?.mp hmem
  refine ⟨a, List.mem_iff_getElem?.mpr ⟨j, (getElem?_setSeat hget).trans ?_⟩, hwoken⟩
  rw [if_neg, hj]
  rintro rfl
  rw [hget] at hj
  cases hj
  rw [hbefore] at hwoken
  cases hwoken

omit hs in
theorem pending_setSeat (hget : s.seats[i]? = some before) (seat : Seat) (hseat : seat ≠ .pending)
    (h : .pending ∈ (setSeat i seat s).seats) : .pending ∈ s.seats := by
  obtain ⟨j, hj⟩ := List.mem_iff_getElem?.mp h
  rw [getElem?_setSeat hget] at hj
  split at hj
  · exact absurd (Option.some.inj hj) hseat
  · exact List.mem_iff_getElem?.mpr ⟨j, hj⟩

/-- Who finds the semaphore locked finds no free permit, or somebody who runs next. -/
theorem Sound.woken_of_locked (h : s.locked = true) (hvalue : 0 < s.value) :
    ∃ seat ∈ s.seats, seat.woken = true := by
  simp only [locked, Bool.or_eq_true, beq_iff_eq, List.any_eq_true, bne_iff_ne] at h
  cases h with
  | inl hzero => exact absurd hvalue (by omega)
  | inr hwaiter =>
      obtain ⟨k, hk, hne⟩ := hwaiter
      obtain ⟨seat, hget, hwaits⟩ := stages_eq_some.mp ((hs.wellFormed.mem_waiters k).mp hk)
      have hmem := List.mem_iff_getElem?.mpr ⟨k, hget⟩
      cases seat with
      | pending => exact hs.heard hvalue hmem
      | granted cancelled => exact ⟨_, hmem, rfl⟩
      | withdrawn => exact absurd hget hne
      | outside | inside => cases hwaits

theorem Sound.acquire (h : s.acquire i = some t) :
    Sound capacity t ∧ s.stages[i]? = some .outside ∧
      ∃ stage, t.stages = s.stages.set i stage ∧ (stage = .waiting ∨ stage = .inside) := by
  rw [AsyncSemaphore.acquire] at h
  obtain ⟨hget, h⟩ := Option.ite_none_right_eq_some.mp h
  have hstage : s.stages[i]? = some .outside := by rw [stages, List.getElem?_map, hget]; rfl
  have hqueue := List.erase_of_not_mem (hs.wellFormed.notMem_waiters hget nofun)
  cases hlocked : s.locked with
  | true =>
      rw [hlocked] at h
      cases h
      refine ⟨⟨hs.wellFormed.reseat hget .pending s.value (s.waiters ++ [i]) rfl
        (.inl ⟨rfl, by rw [hqueue]⟩), fun hvalue _ => ?_⟩, hstage, _, stages_setSeat (s := s),
        .inl rfl⟩
      exact woken_setSeat hget rfl .pending (hs.woken_of_locked hlocked hvalue)
  | false =>
      rw [hlocked] at h
      cases h
      have hfree : 0 < s.value := by
        rw [locked, Bool.or_eq_false_iff, beq_eq_false_iff_ne] at hlocked
        exact Nat.pos_of_ne_zero hlocked.1
      refine ⟨⟨hs.wellFormed.reseat hget .inside (s.value - 1) s.waiters ?_
        (.inr ⟨nofun, hqueue.symm⟩), fun _ hmem => ?_⟩, hstage, _, stages_setSeat (s := s),
        .inr rfl⟩
      · simp only [Seat.permits]
        omega
      · exact woken_setSeat hget rfl .inside (hs.heard hfree
          (pending_setSeat hget .inside nofun hmem))

theorem Sound.leaveQueue (hget : s.seats[i]? = some before) (seat : Seat) (value : Nat)
    (hseat : seat.stage ≠ .waiting) (hvalue : value + seat.permits = s.value + before.permits) :
    Sound capacity (AsyncSemaphore.leaveQueue i seat { s with value := value }) ∧
      (AsyncSemaphore.leaveQueue i seat { s with value := value }).stages =
        s.stages.set i seat.stage := by
  have hleft := hs.wellFormed.reseat hget seat value (s.waiters.erase i) hvalue
    (.inr ⟨hseat, rfl⟩)
  obtain ⟨hwellFormed, hfree⟩ := hleft.wakeUpWhile rfl
  exact ⟨⟨hwellFormed, heard_of_free hfree⟩,
    (wakeUpWhile_stages _ _).trans (stages_setSeat (s := s))⟩

theorem Sound.resume (h : s.resume i = some t) :
    Sound capacity t ∧ s.stages[i]? = some .waiting ∧
      ∃ stage, t.stages = s.stages.set i stage ∧ (stage = .inside ∨ stage = .outside) := by
  have hstage {before : Seat} (hget : s.seats[i]? = some before) :
      s.stages[i]? = some before.stage := by rw [stages, List.getElem?_map, hget]; rfl
  rw [AsyncSemaphore.resume] at h
  split at h
  · next hget =>
      cases h
      obtain ⟨hsound, hstages⟩ := hs.leaveQueue hget .inside s.value nofun rfl
      exact ⟨hsound, hstage hget, _, hstages, .inl rfl⟩
  · next hget =>
      cases h
      obtain ⟨hsound, hstages⟩ := hs.leaveQueue hget .outside (s.value + 1) nofun rfl
      exact ⟨hsound, hstage hget, _, hstages, .inr rfl⟩
  · next hget =>
      cases h
      obtain ⟨hsound, hstages⟩ := hs.leaveQueue hget .outside s.value nofun rfl
      exact ⟨hsound, hstage hget, _, hstages, .inr rfl⟩
  · cases h

theorem Sound.cancel (h : s.cancel i = some t) : Sound capacity t ∧ t.stages = s.stages := by
  have hchange {before : Seat} (hget : s.seats[i]? = some before) (seat : Seat)
      (hstage : seat.stage = before.stage) (hpermits : seat.permits = before.permits)
      (hwoken : seat.woken = true) :
      Sound capacity (s.setSeat i seat) ∧ (s.setSeat i seat).stages = s.stages := by
    have hset : (s.setSeat i seat).seats[i]? = some seat :=
      (getElem?_setSeat hget).trans (if_pos rfl)
    exact ⟨⟨hs.wellFormed.setSeat hget seat s.value hstage (by rw [hpermits]),
      fun _ _ => ⟨seat, List.mem_iff_getElem?.mpr ⟨i, hset⟩, hwoken⟩⟩,
      stages_setSeat_same hget hstage⟩
  rw [AsyncSemaphore.cancel] at h
  split at h
  · next hget => cases h; exact hchange hget .withdrawn rfl rfl rfl
  · next hget => cases h; exact hchange hget (.granted true) rfl rfl rfl
  · cases h; exact ⟨hs, rfl⟩
  · cases h

omit hs in
theorem stages_joinMany (k : Nat) (s : AsyncSemaphore) :
    (joinMany k s).stages = s.stages ++ List.replicate k .outside := by
  induction k generalizing s with
  | zero => exact (List.append_nil _).symm
  | succ k ih => rw [joinMany, ih, stages_join, List.append_assoc, List.replicate_succ]; rfl

theorem Sound.joinMany (k : Nat) : Sound capacity (joinMany k s) := by
  induction k generalizing s with
  | zero => exact hs
  | succ k ih => exact ih hs.join

theorem Sound.cancelAll (is : List Nat) :
    Sound capacity (cancelAll is s) ∧ (cancelAll is s).stages = s.stages := by
  induction is generalizing s with
  | nil => exact ⟨hs, rfl⟩
  | cons i is ih =>
      rw [AsyncSemaphore.cancelAll, List.foldl_cons]
      cases hcancel : s.cancel i with
      | none => exact ih hs
      | some t =>
          obtain ⟨ht, hstages⟩ := hs.cancel hcancel
          obtain ⟨hsound, hsame⟩ := ih ht
          exact ⟨hsound, hsame.trans hstages⟩

theorem Sound.release (h : s.release i = some t) :
    Sound capacity t ∧ s.stages[i]? = some .inside ∧ t.stages = s.stages.set i .outside := by
  rw [AsyncSemaphore.release] at h
  obtain ⟨hget, h⟩ := Option.ite_none_right_eq_some.mp h
  have hqueue := List.erase_of_not_mem (hs.wellFormed.notMem_waiters hget nofun)
  have hleft := hs.wellFormed.reseat hget .outside (s.value + 1) s.waiters rfl
    (.inr ⟨nofun, hqueue.symm⟩)
  have hstages : (setSeat i .outside { s with value := s.value + 1 }).stages =
      s.stages.set i .outside := stages_setSeat (s := s)
  refine ⟨?_, by rw [stages, List.getElem?_map, hget]; rfl, ?_⟩
  · cases hwake : (setSeat i .outside { s with value := s.value + 1 }).wakeUpNext with
    | none =>
        simp only [hwake, Option.getD_none, Option.some.injEq] at h
        subst h
        exact ⟨hleft, heard_of_free (.inr (wakeUpNext_eq_none hleft hwake))⟩
    | some u =>
        simp only [hwake, Option.getD_some, Option.some.injEq] at h
        subst h
        refine ⟨hleft.wakeUpNext (Nat.succ_pos _) hwake, fun _ _ => ?_⟩
        obtain ⟨k, -, -, -, hk, -, rfl⟩ := wakeUpNext_eq_some hwake
        exact ⟨_, List.mem_iff_getElem?.mpr ⟨k, (getElem?_setSeat (s := setSeat i .outside s)
          hk).trans (if_pos rfl)⟩, rfl⟩
  · cases hwake : (setSeat i .outside { s with value := s.value + 1 }).wakeUpNext with
    | none =>
        simp only [hwake, Option.getD_none, Option.some.injEq] at h
        exact h ▸ hstages
    | some u =>
        simp only [hwake, Option.getD_some, Option.some.injEq] at h
        exact h ▸ (wakeUpNext_stages hwake).trans hstages

/-! ## What a sound semaphore promises -/

omit hs in
theorem count_inside_le (seats : List Seat) :
    (seats.map Seat.stage).count .inside ≤ (seats.map Seat.permits).sum := by
  induction seats with
  | nil => exact Nat.le_refl _
  | cons seat seats ih =>
      rw [List.map_cons, List.map_cons, List.sum_cons, List.count_cons]
      cases seat <;> simp [Seat.stage, Seat.permits] <;> omega

omit hs in
theorem count_inside_eq {seats : List Seat} (h : ∀ seat ∈ seats, seat.woken = false) :
    (seats.map Seat.stage).count .inside = (seats.map Seat.permits).sum := by
  induction seats with
  | nil => rfl
  | cons seat seats ih =>
      have hrest := ih fun a ha => h a (List.mem_cons_of_mem seat ha)
      have hfirst := h seat List.mem_cons_self
      rw [List.map_cons, List.map_cons, List.sum_cons, List.count_cons, hrest]
      cases seat with
      | granted _ | withdrawn => cases hfirst
      | outside | pending | inside => simp [Seat.stage, Seat.permits]; try omega

omit hs in
theorem inside_of_enters {now : Seat.Stage} (h : t.stages = s.stages.set i .inside)
    (hget : s.stages[i]? = some now) (hnow : now ≠ .inside) : t.inside = s.inside + 1 := by
  obtain ⟨hlt, rfl⟩ := List.getElem?_eq_some_iff.mp hget
  rw [inside, h, List.count_set hlt, inside, beq_false_of_ne hnow]
  simp

theorem Sound.inside_le : s.inside ≤ capacity := by
  have hconserved := hs.wellFormed.conserved
  have hle : s.inside ≤ (s.seats.map Seat.permits).sum := count_inside_le s.seats
  omega

/-- Where a task waits for a permit and no woken one is to run, every permit is taken. -/
theorem Sound.inside_of_pending (hpending : .pending ∈ s.seats)
    (hwoken : ∀ seat ∈ s.seats, seat.woken = false) : s.inside = capacity := by
  have hzero : s.value = 0 := by
    refine Nat.eq_zero_of_not_pos fun hvalue => ?_
    obtain ⟨seat, hmem, h⟩ := hs.heard hvalue hpending
    rw [hwoken seat hmem] at h
    cases h
  have hconserved := hs.wellFormed.conserved
  have heq : s.inside = (s.seats.map Seat.permits).sum := count_inside_eq hwoken
  omega

/-- While a task waits for a permit, another one runs next or has one. -/
theorem Sound.moves (hcapacity : 0 < capacity) (hpending : .pending ∈ s.seats) :
    ∃ (i : Nat) (seat : Seat), s.seats[i]? = some seat ∧ (seat.woken = true ∨ seat = .inside) := by
  by_cases hwoken : ∀ seat ∈ s.seats, seat.woken = false
  · have hinside := hs.inside_of_pending hpending hwoken
    have hmem : .inside ∈ s.seats.map Seat.stage := by
      rw [← List.count_pos_iff]
      change 0 < s.inside
      rwa [hinside]
    obtain ⟨seat, hseat, hstage⟩ := List.mem_map.mp hmem
    obtain ⟨i, hget⟩ := List.mem_iff_getElem?.mp hseat
    refine ⟨i, seat, hget, .inr ?_⟩
    cases seat <;> first | rfl | cases hstage
  · simp only [not_forall, Bool.not_eq_false] at hwoken
    obtain ⟨seat, hseat, hwoken⟩ := hwoken
    obtain ⟨i, hget⟩ := List.mem_iff_getElem?.mp hseat
    exact ⟨i, seat, hget, .inl hwoken⟩

omit hs in
theorem acquire_of_outside (h : s.stages[i]? = some .outside) : ∃ t, s.acquire i = some t := by
  rw [stages, List.getElem?_map, Option.map_eq_some_iff] at h
  obtain ⟨seat, hget, hstage⟩ := h
  cases seat with
  | outside =>
      rw [AsyncSemaphore.acquire, if_pos hget]
      split
      · exact ⟨_, rfl⟩
      · exact ⟨_, rfl⟩
  | pending | granted _ | withdrawn | inside => cases hstage

omit hs in
theorem resume_of_woken (hget : s.seats[i]? = some before) (h : before.woken = true) :
    ∃ t, s.resume i = some t := by
  cases before with
  | granted cancelled => cases cancelled <;> simp [AsyncSemaphore.resume, hget]
  | withdrawn => simp [AsyncSemaphore.resume, hget]
  | outside | pending | inside => cases h

omit hs in
theorem release_of_inside (hget : s.seats[i]? = some .inside) : ∃ t, s.release i = some t := by
  simp [AsyncSemaphore.release, hget]

/-- With nobody in the queue or inside, every permit is free. -/
theorem Sound.value_eq (h : ∀ stage ∈ s.stages, stage = .outside) : s.value = capacity := by
  have hzero : (s.seats.map Seat.permits).sum = 0 := by
    refine List.sum_eq_zero fun permits hmem => ?_
    obtain ⟨seat, hseat, rfl⟩ := List.mem_map.mp hmem
    have hstage := h _ (List.mem_map_of_mem hseat)
    cases seat <;> first | rfl | cases hstage
  have hconserved := hs.wellFormed.conserved
  omega

end Operations

theorem sound_of_run {calls : List Call} (h : Run step { value := capacity } calls s) :
    Sound capacity s := by
  refine h.invariant (I := fun _ s => Sound capacity s) (sound_init capacity) ?_
  intro _ s c t hs hstep
  cases c with
  | join => cases hstep; exact hs.join
  | acquire i => exact (hs.acquire hstep).1
  | resume i => exact (hs.resume hstep).1
  | cancel i => exact (hs.cancel hstep).1
  | release i => exact (hs.release hstep).1

/-! ## First come, first served -/

/-- Task `j` has no permit while `i` still waits for one. -/
def Yields (s : AsyncSemaphore) (i j : Nat) : Prop :=
  s.seats[i]? = some .pending → ∀ seat ∈ s.seats[j]?, seat.permits = 0

/-- Tasks in the order of their last calls. -/
def lastCalls (calls : List Nat) : List Nat := calls.foldl (fun order i => order.erase i ++ [i]) []

/-- `arrivals` are the tasks in the order of their last calls of `acquire`. -/
structure Served (arrivals : List Nat) (s : AsyncSemaphore) : Prop where
  nodup : arrivals.Nodup
  queue : s.waiters = arrivals.filter fun i => s.stages[i]? == some .waiting
  served : arrivals.Pairwise s.Yields

variable {arrivals : List Nat}

theorem Yields.setSeat {k : Nat} (h : s.Yields i j) (hget : s.seats[k]? = some before) (seat : Seat)
    (value : Nat) (queue : List Nat) (hpending : seat ≠ .pending)
    (hpermits : j = k → seat.permits ≤ before.permits) :
    (AsyncSemaphore.setSeat k seat ⟨value, queue, s.seats⟩).Yields i j := by
  have hseats (m : Nat) : (AsyncSemaphore.setSeat k seat ⟨value, queue, s.seats⟩).seats[m]? =
      if k = m then some seat else s.seats[m]? := getElem?_setSeat (s := s) hget
  intro hi a ha
  rw [hseats] at hi ha
  split at hi
  · exact absurd (Option.some.inj hi) hpending
  · split at ha
    · next heq =>
        cases ha
        have hle := hpermits heq.symm
        rw [h hi before (heq ▸ hget)] at hle
        exact Nat.le_zero.mp hle
    · exact h hi a ha

/-- The others keep their seats. -/
theorem Yields.setSeat_of_ne {k : Nat} (h : s.Yields i j) (hget : s.seats[k]? = some before)
    (seat : Seat) (value : Nat) (queue : List Nat) (hi : i ≠ k) (hj : j ≠ k) :
    (AsyncSemaphore.setSeat k seat ⟨value, queue, s.seats⟩).Yields i j := by
  have hseats {m : Nat} (hm : m ≠ k) :
      (AsyncSemaphore.setSeat k seat ⟨value, queue, s.seats⟩).seats[m]? = s.seats[m]? :=
    (getElem?_setSeat (s := s) hget).trans (if_neg hm.symm)
  rw [Yields, hseats hi, hseats hj]
  exact h

theorem served_init (capacity : Nat) : Served [] { value := capacity } :=
  ⟨List.nodup_nil, rfl, List.Pairwise.nil⟩

theorem Served.wakeUpNext (hs : Served arrivals s) (h : s.wakeUpNext = some t) :
    Served arrivals t := by
  have hstages := wakeUpNext_stages h
  have hpick : arrivals.find? (fun i => s.seats[i]? == some .pending) =
      s.waiters.find? fun i => s.seats[i]? == some .pending := by
    rw [hs.queue, List.find?_filter]
    congr 1
    funext i
    cases hget : s.seats[i]? with
    | none => simp
    | some seat => cases seat <;> simp [stages, hget, Seat.stage]
  rw [AsyncSemaphore.wakeUpNext, ← hpick] at h
  split at h
  · cases h
  · next i hfind =>
      cases h
      obtain ⟨hget, front, back, hsplit, hfront⟩ := List.find?_eq_some_iff_append.mp hfind
      rw [beq_iff_eq] at hget
      refine ⟨hs.nodup, hstages ▸ hs.queue, ?_⟩
      have hnodup := hsplit ▸ hs.nodup
      simp only [List.nodup_append, List.nodup_cons, List.mem_cons] at hnodup
      have hfrontNe {j : Nat} (hmem : j ∈ front) : j ≠ i := hnodup.2.2 j hmem i (.inl rfl)
      have hbackNe {j : Nat} (hmem : j ∈ back) : j ≠ i := fun heq => hnodup.2.1.1 (heq ▸ hmem)
      obtain ⟨hfirst, hrest, -⟩ := List.pairwise_append.mp (hsplit ▸ hs.served)
      have hkeep {j k : Nat} (hk : k ≠ i) (hyields : s.Yields j k) :=
        hyields.setSeat hget (.granted false) (s.value - 1) s.waiters nofun
          fun heq => absurd heq hk
      rw [hsplit]
      refine List.pairwise_append.mpr ⟨?_, List.pairwise_cons.mpr ⟨?_, ?_⟩, ?_⟩
      · exact hfirst.imp_of_mem fun _ hmem hyields => hkeep (hfrontNe hmem) hyields
      · intro k hmem
        exact hkeep (hbackNe hmem) ((List.pairwise_cons.mp hrest).1 k hmem)
      · exact (List.pairwise_cons.mp hrest).2.imp_of_mem fun _ hmem hyields =>
          hkeep (hbackNe hmem) hyields
      · intro j hj k _ hpending
        have hseat : (setSeat i (.granted false) { s with value := s.value - 1 }).seats[j]? =
            s.seats[j]? := (getElem?_setSeat (s := s) hget).trans (if_neg (hfrontNe hj).symm)
        exact absurd (hseat ▸ hpending) (by simpa using hfront j hj)

theorem Served.wakeUpWhile (hs : Served arrivals s) (k : Nat) :
    Served arrivals (AsyncSemaphore.wakeUpWhile k s) := by
  induction k generalizing s with
  | zero => exact hs
  | succ k ih =>
      rw [AsyncSemaphore.wakeUpWhile]
      split
      · exact hs
      · next t h => exact ih (hs.wakeUpNext h)

/-- A task that asked before takes another seat. -/
theorem Served.reseat (hs : Served arrivals s) (hget : s.seats[i]? = some before) (seat : Seat)
    (value : Nat) (queue : List Nat) (hpending : seat ≠ .pending)
    (hpermits : seat.permits ≤ before.permits)
    (hqueue : queue = arrivals.filter fun j =>
      (s.stages.set i seat.stage)[j]? == some .waiting) :
    Served arrivals (AsyncSemaphore.setSeat i seat ⟨value, queue, s.seats⟩) := by
  refine ⟨hs.nodup, ?_, ?_⟩
  · rw [stages_setSeat]
    exact hqueue
  · exact hs.served.imp fun hyields =>
      hyields.setSeat hget seat value queue hpending fun _ => hpermits

theorem Served.join (hs : Served arrivals s) : Served arrivals s.join := by
  have hseats {k : Nat} {seat : Seat} (h : s.join.seats[k]? = some seat) :
      s.seats[k]? = some seat ∨ seat = .outside := by
    cases getElem?_concat_eq_some h with
    | inl hold => exact .inl hold
    | inr hlast => exact .inr hlast.2
  refine ⟨hs.nodup, ?_, hs.served.imp fun {i j} hyields hi seat hj => ?_⟩
  · rw [show s.join.waiters = s.waiters from rfl, hs.queue, stages_join]
    refine List.filter_congr fun k _ => ?_
    rw [List.getElem?_append]
    split
    · rfl
    · next hlt =>
        rw [List.getElem?_eq_none (Nat.le_of_not_lt hlt)]
        cases k - s.stages.length <;> rfl
  · cases hseats hj with
    | inl hold =>
        cases hseats hi with
        | inl hpending => exact hyields hpending seat hold
        | inr hout => cases hout
    | inr hout => rw [hout]; rfl

theorem filter_set_erase {stages : List Seat.Stage} {stage : Seat.Stage} (hnodup : arrivals.Nodup)
    (hstage : stage ≠ .waiting) :
    (arrivals.filter fun j => (stages.set i stage)[j]? == some .waiting) =
      (arrivals.filter fun j => stages[j]? == some .waiting).erase i := by
  rw [(hnodup.filter _).erase_eq_filter, List.filter_filter]
  refine List.filter_congr fun j _ => ?_
  rw [List.getElem?_set]
  by_cases hj : i = j
  · subst hj
    by_cases hlt : i < stages.length <;> simp [hlt, hstage]
  · simp [hj, Ne.symm hj]

section Operations
variable (hs : Served arrivals s)
include hs

theorem Served.leaveQueue (hget : s.seats[i]? = some before) (seat : Seat) (value : Nat)
    (hstage : seat.stage ≠ .waiting) (hpermits : seat.permits ≤ before.permits) :
    Served arrivals (AsyncSemaphore.leaveQueue i seat { s with value := value }) := by
  refine Served.wakeUpWhile (hs.reseat hget seat value (s.waiters.erase i) ?_ hpermits ?_) _
  · rintro rfl
    exact hstage rfl
  · rw [hs.queue, filter_set_erase hs.nodup hstage]

theorem Served.resume (h : s.resume i = some t) : Served arrivals t := by
  rw [AsyncSemaphore.resume] at h
  split at h
  · next hget => cases h; exact hs.leaveQueue hget .inside s.value nofun (Nat.le_refl 1)
  · next hget => cases h; exact hs.leaveQueue hget .outside (s.value + 1) nofun (Nat.zero_le 1)
  · next hget => cases h; exact hs.leaveQueue hget .outside s.value nofun (Nat.le_refl 0)
  · cases h

theorem Served.cancel (h : s.cancel i = some t) : Served arrivals t := by
  have hchange {before : Seat} (hget : s.seats[i]? = some before) (seat : Seat)
      (hpending : seat ≠ .pending) (hstage : seat.stage = before.stage)
      (hpermits : seat.permits = before.permits) : Served arrivals (s.setSeat i seat) := by
    refine hs.reseat hget seat s.value s.waiters hpending (Nat.le_of_eq hpermits) ?_
    rw [← stages_setSeat, stages_setSeat_same hget hstage]
    exact hs.queue
  rw [AsyncSemaphore.cancel] at h
  split at h
  · next hget => cases h; exact hchange hget .withdrawn nofun rfl rfl
  · next hget => cases h; exact hchange hget (.granted true) nofun rfl rfl
  · cases h; exact hs
  · cases h

theorem Served.release (h : s.release i = some t) : Served arrivals t := by
  rw [AsyncSemaphore.release] at h
  obtain ⟨hget, h⟩ := Option.ite_none_right_eq_some.mp h
  have hleft : Served arrivals (setSeat i .outside { s with value := s.value + 1 }) := by
    refine hs.reseat hget .outside (s.value + 1) s.waiters nofun (Nat.zero_le 1) ?_
    have hout : Seat.outside.stage ≠ .waiting := nofun
    rw [filter_set_erase hs.nodup hout, ← hs.queue, List.erase_of_not_mem]
    rw [hs.queue, List.mem_filter]
    simp [stages, hget, Seat.stage]
  cases hwake : (setSeat i .outside { s with value := s.value + 1 }).wakeUpNext with
  | none =>
      simp only [hwake, Option.getD_none, Option.some.injEq] at h
      exact h ▸ hleft
  | some u =>
      simp only [hwake, Option.getD_some, Option.some.injEq] at h
      exact h ▸ hleft.wakeUpNext hwake

/-- A call of `acquire` is the last one. -/
theorem Served.acquire (h : s.acquire i = some t) : Served (arrivals.erase i ++ [i]) t := by
  rw [AsyncSemaphore.acquire] at h
  obtain ⟨hget, h⟩ := Option.ite_none_right_eq_some.mp h
  have hne {j : Nat} (hj : j ∈ arrivals.erase i) : j ≠ i := (hs.nodup.mem_erase_iff.mp hj).1
  have hlt : i < s.stages.length := by
    rw [stages, List.length_map]
    exact (List.getElem?_eq_some_iff.mp hget).1
  have hnodup : (arrivals.erase i ++ [i]).Nodup :=
    List.nodup_append.mpr ⟨hs.nodup.erase i, List.nodup_singleton i,
      fun j hj k hk => List.mem_singleton.mp hk ▸ hne hj⟩
  have hrest {stage : Seat.Stage} : ((arrivals.erase i).filter fun j =>
      (s.stages.set i stage)[j]? == some .waiting) = s.waiters := by
    rw [hs.queue, hs.nodup.erase_eq_filter, List.filter_filter]
    refine List.filter_congr fun j _ => ?_
    by_cases hj : i = j
    · simp [← hj, stages, hget, Seat.stage]
    · simp [hj, Ne.symm hj]
  have hothers (seat : Seat) (value : Nat) (queue : List Nat) :
      (arrivals.erase i).Pairwise (setSeat i seat ⟨value, queue, s.seats⟩).Yields :=
    (hs.served.sublist List.erase_sublist).imp_of_mem fun hj hk hyields =>
      hyields.setSeat_of_ne hget seat value queue (hne hj) (hne hk)
  have hlast (seat : Seat) (value : Nat) (queue : List Nat)
      (h : ∀ j ∈ arrivals.erase i, (setSeat i seat ⟨value, queue, s.seats⟩).Yields j i) :
      (arrivals.erase i ++ [i]).Pairwise (setSeat i seat ⟨value, queue, s.seats⟩).Yields :=
    List.pairwise_append.mpr ⟨hothers seat value queue, List.pairwise_singleton _ i,
      fun j hj k hk => List.mem_singleton.mp hk ▸ h j hj⟩
  have hseat (seat : Seat) (value : Nat) (queue : List Nat) (j : Nat) :
      (setSeat i seat ⟨value, queue, s.seats⟩).seats[j]? = if i = j then some seat else
        s.seats[j]? := getElem?_setSeat (s := s) hget
  cases hlocked : s.locked with
  | true =>
      rw [hlocked] at h
      cases h
      refine ⟨hnodup, ?_, hlast .pending s.value (s.waiters ++ [i]) fun j _ _ seat hmem => ?_⟩
      · rw [stages_setSeat, List.filter_append]
        have hself :
            [i].filter (fun j => (s.stages.set i .waiting)[j]? == some .waiting) = [i] := by
          simp [hlt]
        exact (congrArg₂ (· ++ ·) hrest hself).symm
      · rw [hseat, if_pos rfl] at hmem
        cases hmem
        rfl
  | false =>
      rw [hlocked] at h
      cases h
      refine ⟨hnodup, ?_, hlast .inside (s.value - 1) s.waiters fun j hj hpending => ?_⟩
      · rw [stages_setSeat, List.filter_append]
        have hself : [i].filter (fun j => (s.stages.set i .inside)[j]? == some .waiting) = [] := by
          simp [hlt]
        exact ((congrArg₂ (· ++ ·) hrest hself).trans (List.append_nil _)).symm
      -- Somebody who waits for a permit locks the semaphore.
      · rw [hseat, if_neg (hne hj).symm] at hpending
        have hwaits : j ∈ s.waiters := by
          rw [hs.queue, List.mem_filter]
          exact ⟨List.mem_of_mem_erase hj, by simp [stages, hpending, Seat.stage]⟩
        have hfree := (Bool.or_eq_false_iff.mp hlocked).2
        have hwithdrawn : s.seats[j]? = some .withdrawn := by
          simpa using List.any_eq_false.mp hfree j hwaits
        rw [hwithdrawn] at hpending
        cases hpending

end Operations

theorem served_of_run {calls : List Call} (h : Run step { value := capacity } calls s) :
    Served (lastCalls (calls.filterMap Call.acquiring)) s := by
  refine h.invariant (I := fun calls s => Served (lastCalls (calls.filterMap Call.acquiring)) s)
    (served_init capacity) ?_
  intro calls s c t hs hstep
  rw [List.filterMap_append, lastCalls, List.foldl_append]
  cases c with
  | join => cases hstep; exact hs.join
  | acquire i => exact hs.acquire hstep
  | resume i => exact hs.resume hstep
  | cancel i => exact hs.cancel hstep
  | release i => exact hs.release hstep

theorem lastCalls_of_nodup {calls : List Nat} (h : calls.Nodup) : lastCalls calls = calls := by
  induction calls using List.reverseRecOn with
  | nil => rfl
  | append_singleton calls i ih =>
      obtain ⟨hcalls, -, hne⟩ := List.nodup_append.mp h
      rw [lastCalls, List.foldl_append]
      have hbefore : calls.foldl (fun order i => order.erase i ++ [i]) [] = calls := ih hcalls
      have hnew : i ∉ calls := fun hmem => hne i hmem i (List.mem_singleton_self i) rfl
      rw [hbefore, List.foldl_cons, List.erase_of_not_mem hnew]
      rfl

end AsyncSemaphore
end Foundation
