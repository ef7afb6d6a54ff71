import DualeAI.Foundation.AsyncSemaphore

/-!
`asyncio.Lock`, and the tasks that enter and leave it.

A release wakes the first task of the queue and leaves the lock free; that task locks
it when it runs. One that comes in between waits behind the queue, unless everybody in
it was cancelled. A task that was cancelled in the queue hands the wake-up on. The seats
are those of a semaphore.
-/
namespace Foundation

structure AsyncLock where
  locked : Bool := false
  /-- The tasks whose futures are registered, in the order they came. -/
  waiters : List Nat := []
  seats : List Seat := []

namespace AsyncLock

def setSeat (i : Nat) (seat : Seat) (s : AsyncLock) : AsyncLock :=
  { s with seats := s.seats.set i seat }

/-- A further task, which has not asked for the lock. -/
def join (s : AsyncLock) : AsyncLock := { s with seats := s.seats ++ [.outside] }

/-- `_wake_up_first`. -/
def wakeUpFirst (s : AsyncLock) : AsyncLock :=
  match s.waiters.head? with
  | none => s
  | some i => if s.seats[i]? = some .pending then s.setSeat i (.granted false) else s

/-- `acquire()` up to its first await. -/
def acquire (i : Nat) (s : AsyncLock) : Option AsyncLock :=
  if s.seats[i]? = some .outside then
    if !s.locked && s.waiters.all fun j => s.seats[j]? == some .withdrawn then
      some (setSeat i .inside { s with locked := true })
    else some (setSeat i .pending { s with waiters := s.waiters ++ [i] })
  else none

/-- A cancelled task leaves the queue. -/
def withdraw (i : Nat) (s : AsyncLock) : AsyncLock :=
  let t := setSeat i .outside { s with waiters := s.waiters.erase i }
  if t.locked then t else t.wakeUpFirst

/-- `acquire()` behind its await. -/
def resume (i : Nat) (s : AsyncLock) : Option AsyncLock :=
  match s.seats[i]? with
  | some (.granted false) =>
      some (setSeat i .inside { s with locked := true, waiters := s.waiters.erase i })
  | some (.granted true) | some .withdrawn => some (s.withdraw i)
  | _ => none

/-- `cancel()` of a task that waits. -/
def cancel (i : Nat) (s : AsyncLock) : Option AsyncLock :=
  match s.seats[i]? with
  | some .pending => some (s.setSeat i .withdrawn)
  | some (.granted _) => some (s.setSeat i (.granted true))
  | some .withdrawn => some s
  | _ => none

def release (i : Nat) (s : AsyncLock) : Option AsyncLock :=
  if s.seats[i]? = some .inside then
    some (setSeat i .outside { s with locked := false }).wakeUpFirst
  else none

def stages (s : AsyncLock) : List Seat.Stage := s.seats.map Seat.stage

/-- Up to the wake-up of the first waiter. -/
structure WellFormed (s : AsyncLock) : Prop where
  inside : s.seats.countP (· == .inside) = s.locked.toNat
  mem_waiters : ∀ i, i ∈ s.waiters ↔ ∃ seat, s.seats[i]? = some seat ∧ seat.waits = true
  nodup : s.waiters.Nodup
  /-- A task is woken up only to find the lock free and itself the first. -/
  granted : ∀ (i : Nat) (cancelled : Bool), s.seats[i]? = some (.granted cancelled) →
    s.locked = false ∧ s.waiters.head? = some i

/-- Nobody waits at the head of the queue of a free lock who was not woken up. -/
structure Sound (s : AsyncLock) : Prop where
  wellFormed : WellFormed s
  heard : s.locked = false → ∀ i, s.waiters.head? = some i → s.seats[i]? ≠ some .pending

variable {s t : AsyncLock} {i j : Nat} {before : Seat}

theorem sound_init : Sound {} where
  wellFormed := {
    inside := rfl
    mem_waiters := by simp
    nodup := List.nodup_nil
    granted := by simp }
  heard := by simp

/-! ## One task changes its seat -/

theorem not_inside_of_waits {seat : Seat} (h : seat.waits = true) : (seat == .inside) = false := by
  cases seat with
  | outside | inside => cases h
  | pending | granted _ | withdrawn => rfl

theorem WellFormed.notMem_waiters (hs : WellFormed s) (hget : s.seats[i]? = some before)
    (hwaits : before.waits = false) : i ∉ s.waiters := by
  intro hmem
  obtain ⟨seat, hseat, hw⟩ := (hs.mem_waiters i).mp hmem
  rw [hget] at hseat
  cases hseat
  rw [hwaits] at hw
  cases hw

theorem head?_erase {l : List Nat} (h : l.head? = some j) (hne : j ≠ i) :
    (l.erase i).head? = some j := by
  cases l with
  | nil => cases h
  | cons k l =>
      cases h
      rw [List.erase_cons_tail (by simpa using hne)]
      rfl

theorem head?_concat {l : List Nat} (h : l.head? = some j) : (l ++ [i]).head? = some j := by
  rw [List.head?_append, h]
  rfl

/-- A task takes another seat, at the end of the queue where it begins to wait. -/
theorem WellFormed.reseat (hs : WellFormed s) (hget : s.seats[i]? = some before) (seat : Seat)
    (locked : Bool) (queue : List Nat)
    (hlocked : locked.toNat + (before == .inside).toNat =
      s.locked.toNat + (seat == .inside).toNat)
    (hqueue : seat.waits = true ∧
        (before.waits = true ∧ queue = s.waiters ∨
          before.waits = false ∧ queue = s.waiters ++ [i]) ∨
      seat.waits = false ∧ queue = s.waiters.erase i)
    (hgranted : ∀ (j : Nat) (cancelled : Bool),
      (s.seats.set i seat)[j]? = some (.granted cancelled) →
        locked = false ∧ queue.head? = some j) :
    WellFormed (setSeat i seat ⟨locked, queue, s.seats⟩) := by
  have hlt := (List.getElem?_eq_some_iff.mp hget).1
  have hself : i ∈ s.waiters ↔ before.waits = true := by
    rw [hs.mem_waiters, hget]
    simp
  refine ⟨?_, fun j => ?_, ?_, hgranted⟩
  · have hcount := countP_set (· == .inside) seat hget
    have hinside := hs.inside
    simp only [setSeat]
    omega
  · have hother : j ≠ i → (j ∈ queue ↔ j ∈ s.waiters) := by
      intro hne
      rcases hqueue with ⟨-, ⟨-, hqueue⟩ | ⟨-, hqueue⟩⟩ | ⟨-, hqueue⟩
      · rw [hqueue]
      · simp [hqueue, hne]
      · rw [hqueue, List.mem_erase_of_ne hne]
    by_cases hj : j = i
    · subst hj
      have hmem : j ∈ queue ↔ seat.waits = true := by
        rcases hqueue with ⟨hwaits, ⟨hbefore, hqueue⟩ | ⟨-, hqueue⟩⟩ | ⟨hwaits, hqueue⟩
        · simp [hqueue, hself, hbefore, hwaits]
        · simp [hqueue, hwaits]
        · simp [hqueue, hwaits, hs.nodup.mem_erase_iff]
      simp [setSeat, hmem, List.getElem?_set_self hlt]
    · simp only [setSeat, List.getElem?_set_ne (Ne.symm hj)]
      exact (hother hj).trans (hs.mem_waiters j)
  · rcases hqueue with ⟨-, ⟨-, hqueue⟩ | ⟨hbefore, hqueue⟩⟩ | ⟨-, hqueue⟩
    · exact hqueue ▸ hs.nodup
    · refine hqueue ▸ List.nodup_append.mpr ⟨hs.nodup, List.nodup_singleton i, ?_⟩
      intro j hj k hk
      rw [List.mem_singleton.mp hk]
      rintro rfl
      rw [hself.mp hj] at hbefore
      cases hbefore
    · exact hqueue ▸ hs.nodup.erase i

theorem locked_of_inside (hs : WellFormed s) (hget : s.seats[i]? = some .inside) :
    s.locked = true := by
  have hinside := hs.inside
  have hpos : 0 < s.seats.countP (· == .inside) :=
    List.countP_pos_iff.mpr ⟨_, List.mem_of_getElem? hget, rfl⟩
  cases hlocked : s.locked with
  | true => rfl
  | false =>
      rw [hlocked] at hinside
      exact absurd hinside (by simpa using Nat.ne_of_gt hpos)

/-- The first of the queue waits. -/
theorem WellFormed.first (hs : WellFormed s) (hhead : s.waiters.head? = some i) :
    ∃ seat, s.seats[i]? = some seat ∧ seat.waits = true :=
  (hs.mem_waiters i).mp (List.mem_of_head? hhead)

/-- Waking up the first of the queue of a free lock. -/
theorem WellFormed.wakeUpFirst (hs : WellFormed s) (hfree : s.locked = false) :
    Sound s.wakeUpFirst := by
  rw [AsyncLock.wakeUpFirst]
  split
  · next hhead => exact ⟨hs, fun _ i hi => by rw [hhead] at hi; cases hi⟩
  · next i hhead =>
      split
      · next hpending =>
          refine ⟨hs.reseat hpending (.granted false) s.locked s.waiters rfl
            (.inl ⟨rfl, .inl ⟨rfl, rfl⟩⟩) fun j cancelled hj => ⟨hfree, ?_⟩, fun _ j hj => ?_⟩
          · cases getElem?_set_eq_some hj with
            | inl hself => exact hself.1 ▸ hhead
            | inr hother => exact (hs.granted j cancelled hother.2).2
          · cases hhead.symm.trans hj
            have hlt := (List.getElem?_eq_some_iff.mp hpending).1
            simp [setSeat, List.getElem?_set_self hlt]
      · next hnot =>
          refine ⟨hs, fun _ j hj => ?_⟩
          cases hhead.symm.trans hj
          exact hnot

section Operations
variable (hs : Sound s)
include hs

theorem Sound.join : Sound s.join := by
  have hget {j : Nat} {seat : Seat} : s.join.seats[j]? = some seat →
      s.seats[j]? = some seat ∨ seat = .outside := by
    intro hj
    cases getElem?_concat_eq_some hj with
    | inl hold => exact .inl hold
    | inr hnew => exact .inr hnew.2
  refine ⟨⟨?_, fun j => ?_, hs.wellFormed.nodup, fun j cancelled hj => ?_⟩,
    fun hfree j hj hget' => ?_⟩
  · have hinside := hs.wellFormed.inside
    simpa [AsyncLock.join] using hinside
  · rw [show s.join.waiters = s.waiters from rfl, hs.wellFormed.mem_waiters]
    constructor
    · rintro ⟨seat, hseat, hwaits⟩
      refine ⟨seat, ?_, hwaits⟩
      rwa [AsyncLock.join, List.getElem?_append_left (List.getElem?_eq_some_iff.mp hseat).1]
    · rintro ⟨seat, hseat, hwaits⟩
      cases hget hseat with
      | inl hold => exact ⟨seat, hold, hwaits⟩
      | inr hnew => rw [hnew] at hwaits; cases hwaits
  · cases hget hj with
    | inl hold => exact hs.wellFormed.granted j cancelled hold
    | inr hnew => cases hnew
  · cases hget hget' with
    | inl hold => exact hs.heard hfree j hj hold
    | inr hnew => cases hnew

theorem Sound.acquire (h : s.acquire i = some t) : Sound t := by
  rw [AsyncLock.acquire] at h
  obtain ⟨hget, h⟩ := Option.ite_none_right_eq_some.mp h
  have hnot := hs.wellFormed.notMem_waiters hget rfl
  split at h
  · next hfree =>
      cases h
      obtain ⟨hunlocked, hall⟩ := (Bool.and_eq_true _ _).mp hfree
      rw [Bool.not_eq_true'] at hunlocked
      have hqueue : s.waiters = s.waiters.erase i := (List.erase_of_not_mem hnot).symm
      refine ⟨hs.wellFormed.reseat hget .inside true s.waiters (by rw [hunlocked]; rfl)
        (.inr ⟨rfl, hqueue⟩) fun j cancelled hj => ?_, nofun⟩
      cases getElem?_set_eq_some hj with
      | inl hself => cases hself.2
      | inr hother =>
          -- everybody who waits was cancelled
          have hhead := (hs.wellFormed.granted j cancelled hother.2).2
          have hwithdrawn := List.all_eq_true.mp hall j (List.mem_of_head? hhead)
          rw [hother.2] at hwithdrawn
          cases hwithdrawn
  · next hbusy =>
      cases h
      refine ⟨hs.wellFormed.reseat hget .pending s.locked (s.waiters ++ [i]) rfl
        (.inl ⟨rfl, .inr ⟨rfl, rfl⟩⟩) fun j cancelled hj => ?_, fun hfree j hj hpending => ?_⟩
      · cases getElem?_set_eq_some hj with
        | inl hself => cases hself.2
        | inr hother =>
            obtain ⟨hfree, hhead⟩ := hs.wellFormed.granted j cancelled hother.2
            exact ⟨hfree, head?_concat hhead⟩
      · -- the queue was empty only if somebody holds the lock
        cases hhead : s.waiters.head? with
        | none =>
            have hnil : s.waiters = [] := List.head?_eq_none_iff.mp hhead
            have hunlocked : s.locked = false := hfree
            rw [hunlocked, hnil] at hbusy
            exact hbusy rfl
        | some k =>
            obtain rfl : k = j := Option.some.inj ((head?_concat hhead).symm.trans hj)
            cases getElem?_set_eq_some hpending with
            | inl hself => exact hnot (hself.1 ▸ List.mem_of_head? hhead)
            | inr hother => exact hs.heard hfree k hhead hother.2

theorem Sound.withdraw (hget : s.seats[i]? = some before) (hwaits : before.waits = true) :
    Sound (s.withdraw i) := by
  have hformed : WellFormed (setSeat i .outside { s with waiters := s.waiters.erase i }) := by
    refine hs.wellFormed.reseat hget .outside s.locked _
      (by rw [not_inside_of_waits hwaits]; rfl) (.inr ⟨rfl, rfl⟩) fun j cancelled hj => ?_
    cases getElem?_set_eq_some hj with
    | inl hself => cases hself.2
    | inr hother =>
        obtain ⟨hfree, hhead⟩ := hs.wellFormed.granted j cancelled hother.2
        exact ⟨hfree, head?_erase hhead hother.1⟩
  rw [AsyncLock.withdraw]
  split
  · next hlocked =>
      refine ⟨hformed, fun hfree => ?_⟩
      rw [hlocked] at hfree
      cases hfree
  · next hfree => exact hformed.wakeUpFirst (by simpa using hfree)

theorem Sound.resume (h : s.resume i = some t) : Sound t := by
  rw [AsyncLock.resume] at h
  split at h
  · next hget =>
      cases h
      obtain ⟨hfree, hhead⟩ := hs.wellFormed.granted i false hget
      refine ⟨hs.wellFormed.reseat hget .inside true _ (by rw [hfree]; rfl) (.inr ⟨rfl, rfl⟩)
        fun j cancelled hj => ?_, nofun⟩
      cases getElem?_set_eq_some hj with
      | inl hself => cases hself.2
      | inr hother =>
          -- only the first of the queue was woken up
          have hj := (hs.wellFormed.granted j cancelled hother.2).2
          cases hhead.symm.trans hj
          exact absurd rfl hother.1
  · next hget => cases h; exact hs.withdraw hget rfl
  · next hget => cases h; exact hs.withdraw hget rfl
  · cases h

/-- A seat in the queue changes to one that is no longer pending. -/
theorem Sound.mark (hget : s.seats[i]? = some before) (hwaits : before.waits = true) (seat : Seat)
    (hseat : seat.waits = true) (hpending : seat ≠ .pending)
    (hgranted : ∀ cancelled, seat = .granted cancelled → ∃ c, before = .granted c) :
    Sound (s.setSeat i seat) := by
  have hkept : ∀ (j : Nat) (cancelled : Bool),
      (s.seats.set i seat)[j]? = some (.granted cancelled) →
        s.locked = false ∧ s.waiters.head? = some j := by
    intro j cancelled hj
    cases getElem?_set_eq_some hj with
    | inl hself =>
        obtain ⟨c, hc⟩ := hgranted cancelled hself.2.symm
        exact hself.1 ▸ hs.wellFormed.granted i c (hc ▸ hget)
    | inr hother => exact hs.wellFormed.granted j cancelled hother.2
  refine ⟨hs.wellFormed.reseat hget seat s.locked s.waiters ?_
    (.inl ⟨hseat, .inl ⟨hwaits, rfl⟩⟩) hkept, fun hfree j hj hget' => ?_⟩
  · rw [not_inside_of_waits hwaits, not_inside_of_waits hseat]
  · cases getElem?_set_eq_some hget' with
    | inl hself => exact hpending hself.2.symm
    | inr hother => exact hs.heard hfree j hj hother.2

theorem Sound.cancel (h : s.cancel i = some t) : Sound t := by
  rw [AsyncLock.cancel] at h
  split at h
  · next hget =>
      cases h
      exact hs.mark hget rfl .withdrawn rfl (by simp) (by simp)
  · next hget =>
      cases h
      exact hs.mark hget rfl (.granted true) rfl (by simp) fun _ _ => ⟨_, rfl⟩
  · cases h
    exact hs
  · cases h

theorem Sound.release (h : s.release i = some t) : Sound t := by
  rw [AsyncLock.release] at h
  obtain ⟨hget, h⟩ := Option.ite_none_right_eq_some.mp h
  cases h
  have hlocked := locked_of_inside hs.wellFormed hget
  have hnot := hs.wellFormed.notMem_waiters hget rfl
  refine WellFormed.wakeUpFirst (hs.wellFormed.reseat hget .outside false s.waiters
    (by rw [hlocked]; rfl) (.inr ⟨rfl, (List.erase_of_not_mem hnot).symm⟩)
    fun j cancelled hj => ?_) rfl
  cases getElem?_set_eq_some hj with
  | inl hself => cases hself.2
  | inr hother =>
      have hfree := (hs.wellFormed.granted j cancelled hother.2).1
      rw [hlocked] at hfree
      cases hfree

/-! ## Exclusion and progress -/

theorem Sound.alone (hi : s.seats[i]? = some .inside) (hj : s.seats[j]? = some .inside) :
    i = j := by
  by_contra hne
  have hcount := countP_set (· == .inside) .outside hi
  have hset : (s.seats.set i .outside)[j]? = some .inside := by
    rw [List.getElem?_set_ne hne]
    exact hj
  have hpos : 0 < (s.seats.set i .outside).countP (· == .inside) :=
    List.countP_pos_iff.mpr ⟨_, List.mem_of_getElem? hset, rfl⟩
  have hinside := hs.wellFormed.inside
  rw [locked_of_inside hs.wellFormed hi] at hinside
  rw [hinside] at hcount
  simp only [beq_self_eq_true, Bool.toNat_true, show (Seat.outside == Seat.inside) = false from rfl,
    Bool.toNat_false] at hcount
  omega

/-- Whoever waits, waits for somebody who can go on. -/
theorem Sound.moves (h : s.seats[i]? = some before) (hwaits : before.waits = true) :
    ∃ (j : Nat) (seat : Seat), s.seats[j]? = some seat ∧ (seat.woken = true ∨ seat = .inside) := by
  cases hlocked : s.locked with
  | true =>
      have hinside := hs.wellFormed.inside
      have hpos : 0 < s.seats.countP (· == .inside) := by rw [hinside, hlocked]; decide
      obtain ⟨seat, hmem, hseat⟩ := List.countP_pos_iff.mp hpos
      obtain ⟨j, hj⟩ := List.mem_iff_getElem?.mp hmem
      exact ⟨j, seat, hj, .inr (beq_iff_eq.mp hseat)⟩
  | false =>
      have hmem := (hs.wellFormed.mem_waiters i).mpr ⟨before, h, hwaits⟩
      cases hhead : s.waiters.head? with
      | none => rw [List.head?_eq_none_iff.mp hhead] at hmem; cases hmem
      | some j =>
          obtain ⟨seat, hj, hseat⟩ := hs.wellFormed.first hhead
          have hnot := hs.heard hlocked j hhead
          rw [hj] at hnot
          refine ⟨j, seat, hj, .inl ?_⟩
          cases seat with
          | outside | inside => cases hseat
          | pending => exact absurd rfl hnot
          | granted _ | withdrawn => rfl

end Operations

/-! ## What a task sees -/

theorem stages_setSeat (seat : Seat) : (s.setSeat i seat).stages = s.stages.set i seat.stage :=
  List.map_set

theorem stages_wakeUpFirst : s.wakeUpFirst.stages = s.stages := by
  rw [wakeUpFirst]
  split
  · rfl
  · split
    · next hpending =>
        rw [stages_setSeat]
        refine set_eq_self ?_
        rw [stages, List.getElem?_map, hpending]
        rfl
    · rfl

theorem stages_join : s.join.stages = s.stages ++ [.outside] := List.map_append

theorem stages_acquire (h : s.acquire i = some t) :
    t.stages = s.stages.set i .inside ∨ t.stages = s.stages.set i .waiting := by
  rw [acquire] at h
  obtain ⟨-, h⟩ := Option.ite_none_right_eq_some.mp h
  split at h
  · cases h; exact .inl (stages_setSeat _)
  · cases h; exact .inr (stages_setSeat _)

theorem stages_withdraw : (s.withdraw i).stages = s.stages.set i .outside := by
  rw [withdraw]
  split
  · exact stages_setSeat _
  · exact stages_wakeUpFirst.trans (stages_setSeat _)

theorem stages_resume (h : s.resume i = some t) :
    t.stages = s.stages.set i .inside ∨ t.stages = s.stages.set i .outside := by
  rw [resume] at h
  split at h
  · cases h; exact .inl (stages_setSeat _)
  · cases h; exact .inr stages_withdraw
  · cases h; exact .inr stages_withdraw
  · cases h

theorem stages_cancel (h : s.cancel i = some t) : t.stages = s.stages := by
  have hmarked {before seat : Seat} (hget : s.seats[i]? = some before)
      (hsame : seat.stage = before.stage) : (s.setSeat i seat).stages = s.stages := by
    rw [stages_setSeat, hsame]
    refine set_eq_self ?_
    rw [stages, List.getElem?_map, hget]
    rfl
  rw [cancel] at h
  split at h
  · next hget => cases h; exact hmarked hget rfl
  · next hget => cases h; exact hmarked hget rfl
  · cases h; rfl
  · cases h

theorem stages_release (h : s.release i = some t) : t.stages = s.stages.set i .outside := by
  rw [release] at h
  obtain ⟨-, h⟩ := Option.ite_none_right_eq_some.mp h
  cases h
  exact stages_wakeUpFirst.trans (stages_setSeat _)

theorem seat_of_stage {stage : Seat.Stage} (h : s.stages[i]? = some stage) :
    ∃ seat, s.seats[i]? = some seat ∧ seat.stage = stage := by
  rwa [stages, List.getElem?_map, Option.map_eq_some_iff] at h

theorem acquire_of_outside (h : s.stages[i]? = some .outside) : ∃ t, s.acquire i = some t := by
  obtain ⟨seat, hget, hseat⟩ := seat_of_stage h
  have houtside : seat = .outside := by cases seat <;> first | rfl | cases hseat
  rw [acquire, if_pos (houtside ▸ hget)]
  split
  · exact ⟨_, rfl⟩
  · exact ⟨_, rfl⟩

theorem inside_of_stage (h : s.stages[i]? = some .inside) : s.seats[i]? = some .inside := by
  obtain ⟨seat, hget, hseat⟩ := seat_of_stage h
  cases seat with
  | inside => exact hget
  | outside | pending | granted _ | withdrawn => cases hseat

theorem release_of_inside (h : s.stages[i]? = some .inside) : ∃ t, s.release i = some t :=
  ⟨_, if_pos (inside_of_stage h)⟩

/-- A task that is woken up goes on, with the lock or without it. -/
theorem resume_of_woken {seat : Seat} (h : s.seats[i]? = some seat) (hwoken : seat.woken = true) :
    ∃ t, s.resume i = some t := by
  rw [resume, h]
  cases seat with
  | outside | pending | inside => cases hwoken
  | granted cancelled => cases cancelled <;> exact ⟨_, rfl⟩
  | withdrawn => exact ⟨_, rfl⟩

end AsyncLock
end Foundation
