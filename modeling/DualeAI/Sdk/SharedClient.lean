import DualeAI.Foundation.AsyncLock

/-!
`_ensure_events_client` against itself and against `cleanup`, over the lock they share.

A call that finds a connected client returns it without the lock. Any other call, and the
part of `cleanup` about the client, runs in the lock's block: between its two ends it may
wait for `connect()` or for `disconnect()`, and other tasks take their turns. The clients
make transports of their own, so that none but the SDK disconnects them; a client is
disconnected as soon as `disconnect()` runs, before it waits for its sessions to close.
-/
namespace DualeAI.SharedClient
open Foundation

inductive Purpose where
  | ensure
  | cleanup
deriving DecidableEq, Repr

/-- Where a call stands: it waits for the lock, or for client `n` to connect or disconnect.
`_ensure_events_client` returned client `n` when `losses` connections had been closed. -/
inductive Stage where
  | starting
  | locking
  | calling (n : Nat)
  | handed (n losses : Nat)
  | left
  | raised
deriving DecidableEq, Repr

/-- What the lock sees of it. -/
def Stage.seat : Stage → Seat.Stage
  | .locking => .waiting
  | .calling _ => .inside
  | .starting | .handed _ _ | .left | .raised => .outside

def Stage.ended : Stage → Bool
  | .handed _ _ | .left | .raised => true
  | .starting | .locking | .calling _ => false

structure Task where
  purpose : Purpose
  stage : Stage := .starting
deriving DecidableEq, Repr

def Task.seat (task : Task) : Seat.Stage := task.stage.seat

/-- The clients ever made, with their `is_connected`, and `_events_client`. -/
structure Shared where
  clients : List Bool := []
  eventsClient : Option Nat := none
  /-- How many connections were made, and the clients whose connections were closed. -/
  connections : Nat := 0
  lost : List Nat := []

def Shared.isConnected (n : Nat) (shared : Shared) : Bool := shared.clients[n]? = some true

structure State where
  lock : AsyncLock := {}
  tasks : List Task := []
  shared : Shared := {}

inductive Action where
  | call (purpose : Purpose)
  /-- Its first step. -/
  | start (i : Nat)
  /-- It goes on behind the await of the lock. -/
  | wake (i : Nat)
  /-- `connect()` returns, or it raises. -/
  | connected (i : Nat) (returns : Bool)
  /-- `disconnect()` ends; it raises no `Exception`, but it may be cancelled. -/
  | disconnected (i : Nat) (cancelled : Bool)
  /-- `cancel()` of a task that waits for the lock. -/
  | cancel (i : Nat)

namespace State

def setStage (i : Nat) (stage : Stage) (s : State) : State :=
  { s with tasks := s.tasks.modify i fun task => { task with stage } }

/-- The end of the lock's block. -/
def leave (i : Nat) (stage : Stage) (s : State) : Option State := do
  let lock ← s.lock.release i
  some { s.setStage i stage with lock }

/-- `return self._events_client`. -/
def hand (i n : Nat) (s : State) : Option State := s.leave i (.handed n s.shared.lost.length)

/-- The block of `_ensure_events_client` up to its await, or to its end. -/
def ensureBody (i : Nat) (s : State) : Option State :=
  match s.shared.eventsClient with
  | none =>
      let n := s.shared.clients.length
      some { s.setStage i (.calling n) with
        shared := { s.shared with
          clients := s.shared.clients ++ [false]
          eventsClient := some n } }
  | some n =>
      if s.shared.isConnected n then s.hand i n
      else some (s.setStage i (.calling n))

/-- The block of `cleanup`. A client that is not connected has nothing to disconnect. -/
def cleanupBody (i : Nat) (s : State) : Option State :=
  match s.shared.eventsClient with
  | none => s.leave i .left
  | some n =>
      if s.shared.isConnected n then
        some { s.setStage i (.calling n) with
          shared := { s.shared with
            clients := s.shared.clients.set n false
            lost := s.shared.lost ++ [n] } }
      else { s with shared := { s.shared with eventsClient := none } }.leave i .left

def body (i : Nat) : Purpose → State → Option State
  | .ensure => ensureBody i
  | .cleanup => cleanupBody i

/-- `async with self._events_client_lock`. -/
def enter (i : Nat) (purpose : Purpose) (s : State) : Option State := do
  let lock ← s.lock.acquire i
  if lock.stages[i]? = some .inside then body i purpose { s with lock }
  else some { s.setStage i .locking with lock }

/-- A connected client is returned without the lock. -/
def start (i : Nat) (purpose : Purpose) (s : State) : Option State :=
  match purpose, s.shared.eventsClient with
  | .ensure, some n =>
      if s.shared.isConnected n then some (s.setStage i (.handed n s.shared.lost.length))
      else s.enter i .ensure
  | purpose, _ => s.enter i purpose

end State

def step (s : State) : Action → Option State
  | .call purpose =>
      some { s with lock := s.lock.join, tasks := s.tasks ++ [{ purpose }] }
  | .start i =>
      match s.tasks[i]? with
      | some ⟨purpose, .starting⟩ => s.start i purpose
      | _ => none
  | .wake i =>
      match s.tasks[i]? with
      | some ⟨purpose, .locking⟩ => do
          let lock ← s.lock.resume i
          if lock.stages[i]? = some .inside then State.body i purpose { s with lock }
          else some { s.setStage i .raised with lock }
      | _ => none
  | .connected i returns =>
      match s.tasks[i]? with
      | some ⟨.ensure, .calling n⟩ =>
          if returns then
            { s with shared := { s.shared with
              clients := s.shared.clients.set n true
              connections := s.shared.connections + 1 } }.hand i n
          else s.leave i .raised
      | _ => none
  | .disconnected i cancelled =>
      match s.tasks[i]? with
      | some ⟨.cleanup, .calling _⟩ =>
          if cancelled then s.leave i .raised
          else { s with shared := { s.shared with eventsClient := none } }.leave i .left
      | _ => none
  | .cancel i =>
      match s.tasks[i]? with
      | some ⟨_, .locking⟩ => do
          let lock ← s.lock.cancel i
          some { s with lock }
      | _ => none

/-- A task takes its turn, or what it waits for ends. -/
def Action.goesOn : Action → Bool
  | .start _ | .wake _ | .connected _ _ | .disconnected _ _ => true
  | .call _ | .cancel _ => false

/-- The tasks that wait for a `connect()` or a `disconnect()`. -/
def State.calling (s : State) : Nat := s.tasks.countP fun task => task.seat == .inside

/-! ## The clients -/

/-- A connected client is the SDK's own, and each connection is counted until it is closed. -/
structure Kept (shared : Shared) : Prop where
  current : ∀ n, shared.clients[n]? = some true → shared.eventsClient = some n
  known : ∀ n, shared.eventsClient = some n → n < shared.clients.length
  counted : shared.connections = shared.lost.length + shared.clients.countP id

/-- What a stage tells of the clients. -/
def Fits (shared : Shared) : Stage → Prop
  | .calling n => shared.eventsClient = some n ∧ shared.clients[n]? = some false
  | .handed n losses => shared.lost[losses]? = some n ∨
      losses = shared.lost.length ∧ shared.eventsClient = some n ∧ shared.clients[n]? = some true
  | .starting | .locking | .left | .raised => True

/-- What a task in the block does to the clients. -/
inductive Moves (before : Shared) : Shared → Prop where
  | stays : Moves before before
  | made (hnone : before.eventsClient = none) : Moves before { before with
      clients := before.clients ++ [false]
      eventsClient := some before.clients.length }
  | connects (n : Nat) (hcurrent : before.eventsClient = some n)
      (hget : before.clients[n]? = some false) : Moves before { before with
        clients := before.clients.set n true
        connections := before.connections + 1 }
  | disconnects (n : Nat) (hcurrent : before.eventsClient = some n)
      (hget : before.clients[n]? = some true) : Moves before { before with
        clients := before.clients.set n false
        lost := before.lost ++ [n] }
  | forgets (n : Nat) (hcurrent : before.eventsClient = some n)
      (hget : before.clients[n]? = some false) : Moves before { before with eventsClient := none }

section Clients
variable {before after : Shared} {stage : Stage}

/-- No other client is connected than the one that is the SDK's. -/
theorem Kept.alone (h : Kept before) {n m : Nat} (hcurrent : before.eventsClient = some n)
    (hm : before.clients[m]? = some true) : m = n := by
  have hm := h.current m hm
  rw [hcurrent] at hm
  exact (Option.some.inj hm).symm

theorem Moves.kept (hmoves : Moves before after) (h : Kept before) : Kept after := by
  have hcounted := h.counted
  cases hmoves with
  | stays => exact h
  | made hnone =>
      refine ⟨fun n hn => ?_, fun n hn => ?_, ?_⟩
      · cases getElem?_concat_eq_some hn with
        | inl hold =>
            have hcurrent := h.current n hold
            rw [hnone] at hcurrent
            cases hcurrent
        | inr hnew => cases hnew.2
      · cases hn
        rw [List.length_append]
        exact Nat.lt_succ_self _
      · rw [List.countP_append]
        exact hcounted
  | connects n hcurrent hget =>
      refine ⟨fun m hm => ?_, fun m hm => ?_, ?_⟩
      · cases getElem?_set_eq_some hm with
        | inl hself => exact hself.1 ▸ hcurrent
        | inr hother => exact h.current m hother.2
      · rw [List.length_set]
        exact h.known m hm
      · have hset := countP_set id true hget
        simp only [id, Bool.toNat_false, Bool.toNat_true] at hset
        change before.connections + 1 =
          before.lost.length + (before.clients.set n true).countP id
        omega
  | disconnects n hcurrent hget =>
      refine ⟨fun m hm => ?_, fun m hm => ?_, ?_⟩
      · cases getElem?_set_eq_some hm with
        | inl hself => cases hself.2
        | inr hother => exact h.current m hother.2
      · rw [List.length_set]
        exact h.known m hm
      · have hset := countP_set id false hget
        simp only [id, Bool.toNat_false, Bool.toNat_true] at hset
        change before.connections =
          (before.lost ++ [n]).length + (before.clients.set n false).countP id
        rw [List.length_append, List.length_singleton]
        omega
  | forgets n hcurrent hget =>
      refine ⟨fun m hm => ?_, nofun, hcounted⟩
      cases h.alone hcurrent hm
      rw [hget] at hm
      cases hm

/-- A task that is not in the block keeps what it knows. -/
theorem Fits.moves (hmoves : Moves before after) (h : Fits before stage)
    (houtside : stage.seat ≠ .inside) : Fits after stage := by
  cases stage with
  | starting | locking | left | raised => trivial
  | calling n => exact absurd rfl houtside
  | handed n losses =>
      cases h with
      | inl hlost =>
          have hlt := (List.getElem?_eq_some_iff.mp hlost).1
          cases hmoves with
          | stays | made _ | connects _ _ _ | forgets _ _ _ => exact .inl hlost
          | disconnects m _ _ => exact .inl ((List.getElem?_append_left hlt).trans hlost)
      | inr hnow =>
          obtain ⟨heq, hcurrent, hconnected⟩ := hnow
          -- the clients change only where this one is disconnected
          have hnever {m : Nat} (hm : before.eventsClient = some m)
              (hfalse : before.clients[m]? = some false) : False := by
            cases hcurrent.symm.trans hm
            cases hconnected.symm.trans hfalse
          cases hmoves with
          | stays => exact .inr ⟨heq, hcurrent, hconnected⟩
          | made hnone => cases hcurrent.symm.trans hnone
          | connects m hm hfalse => exact (hnever hm hfalse).elim
          | disconnects m hm _ =>
              cases hcurrent.symm.trans hm
              rw [heq]
              exact .inl List.getElem?_concat_length
          | forgets m hm hfalse => exact (hnever hm hfalse).elim

end Clients

/-! ## The tasks and the lock -/

structure Invariant (s : State) : Prop where
  lock : s.lock.Sound
  seats : s.lock.stages = s.tasks.map Task.seat
  kept : Kept s.shared
  fits : ∀ (i : Nat) (task : Task), s.tasks[i]? = some task → Fits s.shared task.stage

/-- Task `i` has entered the block; its stage is not yet that of its first await. -/
structure Entered (i : Nat) (s : State) : Prop where
  lock : s.lock.Sound
  known : i < s.tasks.length
  seats : s.lock.stages = (s.tasks.map Task.seat).set i .inside
  kept : Kept s.shared
  fits : ∀ (j : Nat) (task : Task), s.tasks[j]? = some task → Fits s.shared task.stage

variable {s t : State} {i : Nat}

theorem map_setStage (stage : Stage) :
    (s.setStage i stage).tasks.map Task.seat = (s.tasks.map Task.seat).set i stage.seat := by
  apply List.ext_getElem?
  intro j
  simp only [State.setStage, List.getElem?_map, List.getElem?_modify, List.getElem?_set,
    List.length_map]
  by_cases hj : i = j
  · subst hj
    cases hget : s.tasks[i]? with
    | none => simp [List.getElem?_eq_none_iff.mp hget]
    | some task => simp [(List.getElem?_eq_some_iff.mp hget).1, Task.seat]
  · simp [hj]

/-- Nobody else is in the block. -/
theorem Entered.outside (h : Entered i s) {j : Nat} {task : Task} (hj : s.tasks[j]? = some task)
    (hne : j ≠ i) : task.stage.seat ≠ .inside := by
  intro hinside
  have hstage {k : Nat} (hk : ((s.tasks.map Task.seat).set i .inside)[k]? = some .inside) :
      s.lock.seats[k]? = some .inside := AsyncLock.inside_of_stage (h.seats ▸ hk)
  refine hne (h.lock.alone (hstage ?_) (hstage ?_))
  · rw [List.getElem?_set_ne (Ne.symm hne), List.getElem?_map, hj]
    exact congrArg some hinside
  · exact List.getElem?_set_self (by simpa using h.known)

/-- It goes to its next stage, inside the block or with the lock released. -/
theorem Entered.becomes (h : Entered i s) (stage : Stage) {lock : AsyncLock} {after : Shared}
    (hlock : lock.Sound) (hstages : lock.stages = s.lock.stages.set i stage.seat)
    (hmoves : Moves s.shared after) (hfits : Fits after stage) :
    Invariant { s.setStage i stage with lock, shared := after } where
  lock := hlock
  seats := by
    rw [hstages, h.seats, List.set_set]
    exact (map_setStage stage).symm
  kept := hmoves.kept h.kept
  fits := by
    intro j task hj
    obtain ⟨task, hget, rfl⟩ := getElem?_modify_eq_some.mp hj
    split
    · exact hfits
    · next hne => exact (h.fits j task hget).moves hmoves (h.outside hget (Ne.symm hne))

theorem Entered.calls (h : Entered i s) {n : Nat} {after : Shared} (hmoves : Moves s.shared after)
    (hfits : Fits after (.calling n)) :
    Invariant { s.setStage i (.calling n) with shared := after } := by
  have hstages : s.lock.stages = s.lock.stages.set i (Stage.seat (.calling n)) := by
    rw [h.seats, List.set_set]
    rfl
  exact h.becomes (.calling n) h.lock hstages hmoves hfits

theorem Entered.leaves (h : Entered i s) (stage : Stage) {after : Shared}
    (hmoves : Moves s.shared after) (hfits : Fits after stage) (hout : stage.seat = .outside)
    (hleave : { s with shared := after }.leave i stage = some t) : Invariant t := by
  obtain ⟨lock, hrelease, heq⟩ := Option.bind_eq_some_iff.mp hleave
  cases heq
  refine h.becomes stage (h.lock.release hrelease) ?_ hmoves hfits
  rw [AsyncLock.stages_release hrelease, hout]

theorem Kept.connected_or (h : Kept s.shared) {n : Nat} (hcurrent : s.shared.eventsClient = some n)
    (hnot : s.shared.isConnected n = false) : s.shared.clients[n]? = some false := by
  have hlt := h.known n hcurrent
  rw [List.getElem?_eq_getElem hlt]
  cases hget : s.shared.clients[n] with
  | false => rfl
  | true =>
      rw [Shared.isConnected, List.getElem?_eq_getElem hlt, hget] at hnot
      cases hnot

theorem Entered.body (h : Entered i s) {purpose : Purpose} (hbody : s.body i purpose = some t) :
    Invariant t := by
  cases purpose with
  | ensure =>
      simp only [State.body, State.ensureBody] at hbody
      split at hbody
      · next hnone =>
          cases hbody
          exact h.calls (.made hnone) ⟨rfl, List.getElem?_concat_length⟩
      · next n hcurrent =>
          split at hbody
          · next hconnected =>
              exact h.leaves (.handed n s.shared.lost.length) .stays
                (.inr ⟨rfl, hcurrent, of_decide_eq_true hconnected⟩) rfl hbody
          · next hnot =>
              cases hbody
              exact h.calls .stays
                ⟨hcurrent, h.kept.connected_or hcurrent (eq_false_of_ne_true hnot)⟩
  | cleanup =>
      simp only [State.body, State.cleanupBody] at hbody
      split at hbody
      · exact h.leaves .left .stays trivial rfl hbody
      · next n hcurrent =>
          split at hbody
          · next hconnected =>
              cases hbody
              have hget := of_decide_eq_true hconnected
              refine h.calls (.disconnects n hcurrent hget) ⟨hcurrent, ?_⟩
              exact List.getElem?_set_self (List.getElem?_eq_some_iff.mp hget).1
          · next hnot =>
              have hget := h.kept.connected_or hcurrent (eq_false_of_ne_true hnot)
              exact h.leaves .left (.forgets n hcurrent hget) trivial rfl hbody

section Steps
variable (h : Invariant s)
include h

theorem Invariant.entered {lock : AsyncLock} (hlock : lock.Sound) (hlt : i < s.tasks.length)
    (hstages : lock.stages = s.lock.stages.set i .inside) : Entered i { s with lock } where
  lock := hlock
  known := hlt
  seats := hstages.trans (by rw [h.seats])
  kept := h.kept
  fits := h.fits

/-- A stage outside the block, which leaves the clients as they are. -/
theorem Invariant.setStage (stage : Stage) {lock : AsyncLock} (hlock : lock.Sound)
    (hstages : lock.stages = s.lock.stages.set i stage.seat) (hfits : Fits s.shared stage) :
    Invariant { s.setStage i stage with lock } where
  lock := hlock
  seats := by
    rw [hstages, h.seats]
    exact (map_setStage stage).symm
  kept := h.kept
  fits := by
    intro j task hj
    obtain ⟨task, hget, rfl⟩ := getElem?_modify_eq_some.mp hj
    split
    · exact hfits
    · exact h.fits j task hget

theorem Invariant.inside {task : Task} {n : Nat} (hget : s.tasks[i]? = some task)
    (hstage : task.stage = .calling n) : Entered i s := by
  have hmap : (s.tasks.map Task.seat)[i]? = some .inside := by
    rw [List.getElem?_map, hget, Option.map_some, Task.seat, hstage]
    rfl
  refine ⟨h.lock, (List.getElem?_eq_some_iff.mp hget).1, ?_, h.kept, h.fits⟩
  rw [h.seats, set_eq_self hmap]

theorem Invariant.enter (hlt : i < s.tasks.length) {purpose : Purpose}
    (henter : s.enter i purpose = some t) : Invariant t := by
  obtain ⟨lock, hacquire, henter⟩ := Option.bind_eq_some_iff.mp henter
  have hlock := h.lock.acquire hacquire
  have hlength : i < s.lock.stages.length := by rw [h.seats, List.length_map]; exact hlt
  split at henter
  · next hinside =>
      cases AsyncLock.stages_acquire hacquire with
      | inl hstages => exact (h.entered hlock hlt hstages).body henter
      | inr hstages =>
          rw [hstages, List.getElem?_set_self hlength] at hinside
          cases hinside
  · next hnot =>
      cases henter
      cases AsyncLock.stages_acquire hacquire with
      | inl hstages => exact absurd (hstages ▸ List.getElem?_set_self hlength) hnot
      | inr hstages => exact h.setStage .locking hlock hstages trivial

theorem Invariant.start (hlt : i < s.tasks.length) {purpose : Purpose}
    (hseat : s.lock.stages[i]? = some .outside) (hstart : s.start i purpose = some t) :
    Invariant t := by
  rw [State.start.eq_def] at hstart
  split at hstart
  · next n hcurrent =>
      split at hstart
      · next hconnected =>
          cases hstart
          exact h.setStage (.handed n s.shared.lost.length) h.lock (set_eq_self hseat).symm
            (.inr ⟨rfl, hcurrent, of_decide_eq_true hconnected⟩)
      · exact h.enter hlt hstart
  · exact h.enter hlt hstart

theorem Invariant.step {a : Action} (hstep : step s a = some t) : Invariant t := by
  have hlt {i : Nat} {task : Task} (hget : s.tasks[i]? = some task) : i < s.tasks.length :=
    (List.getElem?_eq_some_iff.mp hget).1
  cases a with
  | call purpose =>
      cases hstep
      refine ⟨h.lock.join, ?_, h.kept, forall_getElem?_concat h.fits trivial⟩
      rw [AsyncLock.stages_join, h.seats, List.map_append]
      rfl
  | start i =>
      simp only [SharedClient.step] at hstep
      split at hstep
      · next purpose hget =>
          refine h.start (hlt hget) ?_ hstep
          rw [h.seats, List.getElem?_map, hget]
          rfl
      · cases hstep
  | wake i =>
      simp only [SharedClient.step] at hstep
      split at hstep
      · next purpose hget =>
          obtain ⟨lock, hresume, hstep⟩ := Option.bind_eq_some_iff.mp hstep
          have hlock := h.lock.resume hresume
          have hlength : i < s.lock.stages.length := by
            rw [h.seats, List.length_map]
            exact hlt hget
          split at hstep
          · next hinside =>
              cases AsyncLock.stages_resume hresume with
              | inl hstages => exact (h.entered hlock (hlt hget) hstages).body hstep
              | inr hstages =>
                  rw [hstages, List.getElem?_set_self hlength] at hinside
                  cases hinside
          · next hnot =>
              cases hstep
              cases AsyncLock.stages_resume hresume with
              | inl hstages => exact absurd (hstages ▸ List.getElem?_set_self hlength) hnot
              | inr hstages => exact h.setStage .raised hlock hstages trivial
      · cases hstep
  | connected i returns =>
      simp only [SharedClient.step] at hstep
      split at hstep
      · next n hget =>
          have hinside := h.inside hget rfl
          obtain ⟨hcurrent, hfalse⟩ := h.fits i _ hget
          split at hstep
          · refine hinside.leaves (.handed n s.shared.lost.length) (.connects n hcurrent hfalse)
              (.inr ⟨rfl, hcurrent, ?_⟩) rfl hstep
            exact List.getElem?_set_self (List.getElem?_eq_some_iff.mp hfalse).1
          · exact hinside.leaves .raised .stays trivial rfl hstep
      · cases hstep
  | disconnected i cancelled =>
      simp only [SharedClient.step] at hstep
      split at hstep
      · next n hget =>
          have hinside := h.inside hget rfl
          obtain ⟨hcurrent, hfalse⟩ := h.fits i _ hget
          split at hstep
          · exact hinside.leaves .raised .stays trivial rfl hstep
          · exact hinside.leaves .left (.forgets n hcurrent hfalse) trivial rfl hstep
      · cases hstep
  | cancel i =>
      simp only [SharedClient.step] at hstep
      split at hstep
      · obtain ⟨lock, hcancel, heq⟩ := Option.bind_eq_some_iff.mp hstep
        cases heq
        exact ⟨h.lock.cancel hcancel, (AsyncLock.stages_cancel hcancel).trans h.seats, h.kept,
          h.fits⟩
      · cases hstep

end Steps

theorem invariant_init : Invariant {} where
  lock := AsyncLock.sound_init
  seats := rfl
  kept := ⟨by simp, nofun, rfl⟩
  fits := by simp

theorem invariant_of_run {past : List Action} (h : Run step {} past s) : Invariant s :=
  h.invariant (I := fun _ s => Invariant s) invariant_init fun _ _ _ _ hs hstep => hs.step hstep

/-! ## Nobody waits for nobody -/

section Progress

theorem leave_of_inside (h : s.lock.stages[i]? = some .inside) (stage : Stage) :
    ∃ t, s.leave i stage = some t := by
  obtain ⟨lock, hrelease⟩ := AsyncLock.release_of_inside h
  rw [State.leave, hrelease]
  exact ⟨_, rfl⟩

theorem body_of_inside (h : s.lock.stages[i]? = some .inside) (purpose : Purpose) :
    ∃ t, s.body i purpose = some t := by
  cases purpose with
  | ensure =>
      rw [State.body, State.ensureBody]
      split
      · exact ⟨_, rfl⟩
      · split
        · exact leave_of_inside h _
        · exact ⟨_, rfl⟩
  | cleanup =>
      rw [State.body, State.cleanupBody]
      split
      · exact leave_of_inside h _
      · next n _ =>
          split
          · exact ⟨_, rfl⟩
          · exact leave_of_inside (s := { s with shared := { s.shared with eventsClient := none } })
              h _

theorem enter_of_outside (h : s.lock.stages[i]? = some .outside) (purpose : Purpose) :
    ∃ t, s.enter i purpose = some t := by
  obtain ⟨lock, hacquire⟩ := AsyncLock.acquire_of_outside h
  rw [State.enter, hacquire]
  simp only [Option.bind_eq_bind, Option.bind_some]
  split
  · next hinside => exact body_of_inside (s := { s with lock }) hinside purpose
  · exact ⟨_, rfl⟩

theorem start_of_outside (h : s.lock.stages[i]? = some .outside) (purpose : Purpose) :
    ∃ t, s.start i purpose = some t := by
  rw [State.start.eq_def]
  split
  · split
    · exact ⟨_, rfl⟩
    · exact enter_of_outside h _
  · exact enter_of_outside h _

/-- A task goes on. -/
def GoesOn (s : State) : Prop := ∃ a t, a.goesOn = true ∧ step s a = some t

variable (hs : Invariant s)
include hs

theorem goesOn_of_calling {task : Task} {n : Nat} (hget : s.tasks[i]? = some task)
    (hstage : task.stage = .calling n) : GoesOn s := by
  have hinside : s.lock.stages[i]? = some .inside := by
    rw [hs.seats, List.getElem?_map, hget, Option.map_some, Task.seat, hstage]
    rfl
  obtain ⟨t, ht⟩ := leave_of_inside hinside .raised
  obtain ⟨purpose, stage⟩ := task
  cases hstage
  cases purpose with
  | ensure => exact ⟨.connected i false, t, rfl, by simpa [step, hget] using ht⟩
  | cleanup => exact ⟨.disconnected i true, t, rfl, by simpa [step, hget] using ht⟩

theorem goesOn_of_woken {seat : Seat} (hseat : s.lock.seats[i]? = some seat)
    (hwoken : seat.woken = true) : GoesOn s := by
  have hwaits : s.lock.stages[i]? = some .waiting := by
    rw [AsyncLock.stages, List.getElem?_map, hseat]
    cases seat with
    | outside | pending | inside => cases hwoken
    | granted _ | withdrawn => rfl
  rw [hs.seats, List.getElem?_map] at hwaits
  obtain ⟨⟨purpose, stage⟩, hget, hstage⟩ := Option.map_eq_some_iff.mp hwaits
  cases stage with
  | locking =>
      obtain ⟨lock, hresume⟩ := AsyncLock.resume_of_woken hseat hwoken
      have hwake : ∃ t, step s (.wake i) = some t := by
        simp only [step, hget, hresume, Option.bind_eq_bind, Option.bind_some]
        split
        · next hinside => exact body_of_inside (s := { s with lock }) hinside purpose
        · exact ⟨_, rfl⟩
      obtain ⟨t, ht⟩ := hwake
      exact ⟨.wake i, t, rfl, ht⟩
  | starting | calling _ | handed _ _ | left | raised => cases hstage

theorem goesOn_of_inside (hseat : s.lock.seats[i]? = some .inside) : GoesOn s := by
  have hinside : s.lock.stages[i]? = some .inside := by
    rw [AsyncLock.stages, List.getElem?_map, hseat]
    rfl
  rw [hs.seats, List.getElem?_map] at hinside
  obtain ⟨task, hget, hstage⟩ := Option.map_eq_some_iff.mp hinside
  cases hphase : task.stage with
  | calling n => exact goesOn_of_calling hs hget hphase
  | starting | locking | handed _ _ | left | raised =>
      rw [Task.seat, hphase] at hstage
      cases hstage

theorem goesOn_of_open {task : Task} (hmem : task ∈ s.tasks) (hopen : task.stage.ended = false) :
    GoesOn s := by
  obtain ⟨i, hget⟩ := List.mem_iff_getElem?.mp hmem
  have hseat : s.lock.stages[i]? = some task.seat := by
    rw [hs.seats, List.getElem?_map, hget]
    rfl
  obtain ⟨purpose, stage⟩ := task
  cases stage with
  | handed _ _ | left | raised => cases hopen
  | starting =>
      obtain ⟨t, ht⟩ := start_of_outside hseat purpose
      exact ⟨.start i, t, rfl, by simpa [step, hget] using ht⟩
  | calling n => exact goesOn_of_calling hs hget rfl
  | locking =>
      obtain ⟨seat, hi, hwaiting⟩ := AsyncLock.seat_of_stage hseat
      have hwaits : seat.waits = true := by
        rw [Seat.waits_eq, hwaiting]
        rfl
      obtain ⟨j, other, hj, hmoves⟩ := hs.lock.moves hi hwaits
      cases hmoves with
      | inl hwoken => exact goesOn_of_woken hs hj hwoken
      | inr hinside => exact goesOn_of_inside hs (hinside ▸ hj)

end Progress

/-! ## The client is shared -/

theorem Invariant.calling_le (h : Invariant s) : s.calling ≤ 1 := by
  have hcount : s.calling = s.lock.seats.countP (· == .inside) := by
    have hstages : s.calling = s.lock.stages.countP (· == .inside) := by
      rw [h.seats, List.countP_map]
      rfl
    rw [hstages, AsyncLock.stages, List.countP_map]
    refine List.countP_congr fun seat _ => ?_
    cases seat <;> simp [Seat.stage]
  rw [hcount, h.lock.wellFormed.inside]
  exact Bool.toNat_le _

theorem Invariant.handed (h : Invariant s) {task : Task} (hmem : task ∈ s.tasks) {n losses : Nat}
    (hn : task.stage = .handed n losses) : Fits s.shared (.handed n losses) := by
  obtain ⟨i, hi⟩ := List.mem_iff_getElem?.mp hmem
  exact hn ▸ h.fits i task hi

/-- Two calls that returned between the same two disconnections returned the same client. -/
theorem Invariant.handed_same (h : Invariant s) {task other : Task} (htask : task ∈ s.tasks)
    (hother : other ∈ s.tasks) {n m losses : Nat} (hn : task.stage = .handed n losses)
    (hm : other.stage = .handed m losses) : n = m := by
  have hpast {k : Nat} (hlost : s.shared.lost[losses]? = some k)
      (heq : losses = s.shared.lost.length) : False :=
    Nat.lt_irrefl _ (heq ▸ (List.getElem?_eq_some_iff.mp hlost).1)
  cases h.handed htask hn with
  | inl hlost =>
      cases h.handed hother hm with
      | inl hlost' => exact Option.some.inj (hlost.symm.trans hlost')
      | inr hnow => exact (hpast hlost hnow.1).elim
  | inr hnow =>
      cases h.handed hother hm with
      | inl hlost => exact (hpast hlost hnow.1).elim
      | inr hnow' => exact Option.some.inj (hnow.2.1.symm.trans hnow'.2.1)

/-- One `connect()` or `disconnect()` is under way at a time, and what is connected is the
SDK's own client. Those who get it between two disconnections share it, and it stays
connected until the next. Nobody waits for ever where calls to the transport end. -/
theorem client_shared {past : List Action} (hrun : Run step {} past s) :
    s.calling ≤ 1 ∧
    (∀ n, s.shared.clients[n]? = some true → s.shared.eventsClient = some n) ∧
    s.shared.connections = s.shared.lost.length + s.shared.clients.countP id ∧
    (∀ task ∈ s.tasks, ∀ other ∈ s.tasks, ∀ n m losses, task.stage = .handed n losses →
      other.stage = .handed m losses → n = m) ∧
    (∀ task ∈ s.tasks, ∀ n losses, task.stage = .handed n losses →
      losses = s.shared.lost.length ∧ s.shared.clients[n]? = some true ∨
        s.shared.lost[losses]? = some n) ∧
    ((∃ task ∈ s.tasks, task.stage.ended = false) → GoesOn s) := by
  have hs := invariant_of_run hrun
  refine ⟨hs.calling_le, hs.kept.current, hs.kept.counted, ?_, ?_, ?_⟩
  · intro task htask other hother n m losses hn hm
    exact hs.handed_same htask hother hn hm
  · intro task hmem n losses hn
    exact (hs.handed hmem hn).symm.imp_left fun hnow => ⟨hnow.1, hnow.2.2⟩
  · rintro ⟨task, hmem, hopen⟩
    exact goesOn_of_open hs hmem hopen

/-- Of two calls that both find no client the second waits for the first, whose `connect()`
is cancelled; it connects the client that is there, and the third returns it at once. -/
theorem client_shared_connected :
    ∃ past s, Run step {} past s ∧ s.shared.connections = 1 ∧ s.shared.clients.length = 1 ∧
      s.calling ≤ 1 := by
  have hend : (([.call .ensure, .call .ensure, .call .ensure, .start 0, .start 1,
      .connected 0 false, .wake 1, .connected 1 true, .start 2] : List Action).foldlM step
        ({} : State)).any (fun s => s.shared.connections == 1 && s.shared.clients.length == 1) =
      true := by
    decide +kernel
  obtain ⟨s, hfold, hs⟩ := (Option.any_eq_true _ _).mp hend
  have hrun := Run.of_foldlM hfold
  obtain ⟨hconnections, hclients⟩ := (Bool.and_eq_true _ _).mp hs
  exact ⟨_, s, hrun, beq_iff_eq.mp hconnections, beq_iff_eq.mp hclients, (client_shared hrun).1⟩

end DualeAI.SharedClient
