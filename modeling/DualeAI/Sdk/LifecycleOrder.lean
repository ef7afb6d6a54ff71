import DualeAI.Sdk.AgentLifecycle
import Mathlib.Logic.Relation

/-!
Who may publish when: the tasks of a manager without what they publish.

`Control` keeps of each task only its phase, and cuts `aclose` also where the
code does not wait. Where no explicit start overlaps an `aclose`, the manager
refines its moves. They keep the order that the lock, `_startup_done` and the
handles of the two background tasks impose: one task publishes at a time.
-/
namespace DualeAI.Agent
open Foundation

inductive Phase where
  | acquiring
  | starting
  | beating
  | called
  | awaitingStartup (task : Nat)
  | startupGone
  | awaitingHeartbeat (task : Nat)
  | heartbeatGone
  | deregistering
  | ended
deriving DecidableEq

namespace Phase

def inStart : Phase → Bool
  | .acquiring | .starting => true
  | _ => false

def inClose : Phase → Bool
  | .acquiring | .starting | .beating | .ended => false
  | _ => true

/-- Past the wait for the start-up task. -/
def pastStartup : Phase → Bool
  | .startupGone | .awaitingHeartbeat _ | .heartbeatGone | .deregistering => true
  | _ => false

/-- Past the wait for the heartbeat task too. -/
def pastHeartbeat : Phase → Bool
  | .heartbeatGone | .deregistering => true
  | _ => false

/-- Whether a task is at an await between messages. -/
def publishes : Phase → Bool
  | .starting | .beating | .deregistering => true
  | _ => false

theorem inClose_of_pastStartup {p : Phase} (h : p.pastStartup = true) : p.inClose = true := by
  cases p <;> first | rfl | cases h

theorem pastStartup_of_pastHeartbeat {p : Phase} (h : p.pastHeartbeat = true) :
    p.pastStartup = true := by
  cases p <;> first | rfl | cases h

end Phase

structure Control where
  startupTask : Option Nat
  heartbeatTask : Option Nat
  startupLock : Option Nat
  startupDone : Bool
  phases : List Phase

namespace Control

def put (i : Nat) (phase : Phase) (c : Control) : Control :=
  { c with phases := c.phases.set i phase }

inductive Move (c : Control) : Control → Prop where
  | startCalled (h : ∀ (i : Nat) (p : Phase), c.phases[i]? = some p → p.inClose = false) :
      Move c { c with phases := c.phases ++ [.acquiring] }
  | acloseCalled (h : ∀ (i : Nat) (p : Phase), c.phases[i]? = some p → p.inStart = true →
      c.startupTask = some i) : Move c { c with phases := c.phases ++ [.called] }
  | ended (i : Nat) (p : Phase) (hget : c.phases[i]? = some p) (h : p ≠ .starting) :
      Move c (c.put i .ended)
  | entered (i : Nat) (hget : c.phases[i]? = some .acquiring) (hlock : c.startupLock = none)
      (hdone : c.startupDone = false) :
      Move c ({ c with startupLock := some i }.put i .starting)
  | skipped (i : Nat) (done : Bool) (hget : c.phases[i]? = some .acquiring)
      (hlock : c.startupLock = none) (hdone : done = true ∨ done = c.startupDone) :
      Move c ({ c with startupDone := done }.put i .ended)
  | failed (i : Nat) (hget : c.phases[i]? = some .starting) :
      Move c ({ c with startupLock := none }.put i .ended)
  | started (i : Nat) (hget : c.phases[i]? = some .starting) :
      Move c
        ({ c with
            startupLock := none
            startupDone := true
            heartbeatTask := some c.phases.length
            phases := c.phases ++ [Phase.beating] }.put i .ended)
  | restarted (i : Nat) (hget : c.phases[i]? = some .starting) :
      Move c ({ c with startupLock := none, startupDone := true }.put i .ended)
  | awaitsStartup (i j : Nat) (hget : c.phases[i]? = some .called)
      (h : c.startupTask = some j) : Move c (c.put i (.awaitingStartup j))
  | noStartup (i : Nat) (hget : c.phases[i]? = some .called) (h : c.startupTask = none) :
      Move c (c.put i .startupGone)
  | startupEnded (i j : Nat) (hget : c.phases[i]? = some (.awaitingStartup j))
      (h : c.phases[j]? = some .ended) :
      Move c ({ c with startupTask := none }.put i .startupGone)
  | awaitsHeartbeat (i j : Nat) (hget : c.phases[i]? = some .startupGone)
      (h : c.heartbeatTask = some j) : Move c (c.put i (.awaitingHeartbeat j))
  | noHeartbeat (i : Nat) (hget : c.phases[i]? = some .startupGone)
      (h : c.heartbeatTask = none) : Move c (c.put i .heartbeatGone)
  | heartbeatEnded (i j : Nat) (hget : c.phases[i]? = some (.awaitingHeartbeat j))
      (h : c.phases[j]? = some .ended) :
      Move c ({ c with heartbeatTask := none }.put i .heartbeatGone)
  | deregisters (i : Nat) (hget : c.phases[i]? = some .heartbeatGone) :
      Move c (c.put i .deregistering)
  | closed (i : Nat) (p : Phase) (hget : c.phases[i]? = some p) (h : p.pastHeartbeat = true) :
      Move c ({ c with startupDone := false }.put i .ended)

/-! ## The order -/

/-- What the phase of a task says about the manager. -/
def Fits (c : Control) (i : Nat) : Phase → Prop
  | .starting => c.startupLock = some i ∧ c.startupDone = false
  | .beating => c.heartbeatTask = some i ∧ c.startupDone = true
  | .awaitingStartup j => j = 0
  | .awaitingHeartbeat j => ∀ k, c.heartbeatTask = some k → k = j
  | _ => True

/-- What the phase `p` of one task says about the task `j` in phase `q`. -/
structure Apart (startupTask : Option Nat) (p : Phase) (j : Nat) (q : Phase) : Prop where
  start : p.inClose = true → q.inStart = true → startupTask = some j ∧ p.pastStartup = false
  loop : p.pastHeartbeat = true → q ≠ .beating

/-- The constructor's start is task 0. -/
structure Orderly (c : Control) : Prop where
  startup : ∀ j, c.startupTask = some j → j = 0
  fits : ∀ (i : Nat) (p : Phase), c.phases[i]? = some p → c.Fits i p
  apart : ∀ (i j : Nat) (p q : Phase), c.phases[i]? = some p → c.phases[j]? = some q →
    Apart c.startupTask p j q

variable {c d : Control}

/-- A task changed its phase, and the fields of the manager changed with it. -/
theorem Orderly.put {i : Nat} {new : Phase} (hphases : d.phases = c.phases)
    (hstartup : ∀ j, d.startupTask = some j → j = 0)
    (hfits : ∀ (j : Nat) (q : Phase), j ≠ i → c.phases[j]? = some q → d.Fits j q)
    (hnew : d.Fits i new)
    (hapart : ∀ (j k : Nat) (q r : Phase), j ≠ i → k ≠ i → c.phases[j]? = some q →
      c.phases[k]? = some r → Apart d.startupTask q k r)
    (hfrom : ∀ (j : Nat) (q : Phase), j ≠ i → c.phases[j]? = some q →
      Apart d.startupTask new j q ∧ Apart d.startupTask q i new)
    (hself : Apart d.startupTask new i new) : Orderly (d.put i new) := by
  have hold (j : Nat) (q : Phase) (h : (d.put i new).phases[j]? = some q) :
      j = i ∧ q = new ∨ j ≠ i ∧ c.phases[j]? = some q := by
    rw [← hphases]
    exact getElem?_set_eq_some h
  refine ⟨hstartup, fun j q h => ?_, fun j k q r hj hk => ?_⟩
  · rcases hold j q h with ⟨rfl, rfl⟩ | ⟨hne, hq⟩
    · exact hnew
    · exact hfits j q hne hq
  · rcases hold j q hj with ⟨rfl, rfl⟩ | ⟨hne, hq⟩
    · rcases hold k r hk with ⟨rfl, rfl⟩ | ⟨hne', hr⟩
      · exact hself
      · exact (hfrom k r hne' hr).1
    · rcases hold k r hk with ⟨rfl, rfl⟩ | ⟨hne', hr⟩
      · exact (hfrom j q hne hq).2
      · exact hapart j k q r hne hne' hq hr

theorem apart_ended (startupTask : Option Nat) (p : Phase) (i j : Nat) :
    Apart startupTask .ended j p ∧ Apart startupTask p i .ended :=
  ⟨⟨nofun, nofun⟩, ⟨nofun, nofun⟩⟩

theorem Orderly.putEnded {i : Nat} (hc : Orderly c) (hphases : d.phases = c.phases)
    (hstartup : d.startupTask = c.startupTask)
    (hfits : ∀ (j : Nat) (q : Phase), j ≠ i → c.phases[j]? = some q → d.Fits j q) :
    Orderly (d.put i .ended) := by
  refine .put hphases ?_ hfits trivial ?_ (fun j q _ _ => apart_ended _ _ _ _) ⟨nofun, nofun⟩
  · rw [hstartup]
    exact hc.startup
  · intro j k q r _ _ hq hr
    rw [hstartup]
    exact hc.apart j k q r hq hr

/-- A step of an `aclose`. -/
theorem Orderly.putClosing {i : Nat} {p new : Phase} (hc : Orderly c)
    (hget : c.phases[i]? = some p) (hp : p.inClose = true) (hclose : new.inClose = true)
    (hphases : d.phases = c.phases) (hstartup : ∀ j, d.startupTask = some j → j = 0)
    (hnew : d.Fits i new)
    (hfits : ∀ (j : Nat) (q : Phase), j ≠ i → c.phases[j]? = some q → d.Fits j q)
    (hstart : ∀ (j : Nat) (q : Phase), c.phases[j]? = some q → q.inStart = true →
      d.startupTask = c.startupTask ∧ new.pastStartup = false)
    (hloop : ∀ (j : Nat), c.phases[j]? = some .beating → new.pastHeartbeat = false) :
    Orderly (d.put i new) := by
  have hstarted : new.inStart = false ∧ new ≠ .beating := by
    cases new <;> simp_all [Phase.inClose, Phase.inStart]
  have hto (q : Phase) : Apart d.startupTask q i new := by
    refine ⟨fun _ hstarting => ?_, fun _ => hstarted.2⟩
    rw [hstarted.1] at hstarting
    cases hstarting
  refine .put hphases hstartup hfits hnew ?_ (fun j q _ hq => ⟨⟨?_, ?_⟩, hto q⟩) (hto new)
  · intro j k q r _ _ hq hr
    have hapart := hc.apart j k q r hq hr
    refine ⟨fun hclosing hstarting => ?_, hapart.loop⟩
    rw [(hstart k r hr hstarting).1]
    exact hapart.start hclosing hstarting
  · intro _ hstarting
    rw [(hstart j q hq hstarting).1]
    exact ⟨((hc.apart i j p q hget hq).start hp hstarting).1, (hstart j q hq hstarting).2⟩
  · rintro hpast rfl
    rw [hloop j hq] at hpast
    cases hpast

theorem Orderly.no_start (hc : Orderly c) {i j : Nat} {p q : Phase} (hp : c.phases[i]? = some p)
    (hq : c.phases[j]? = some q) (h : p.pastStartup = true) : q.inStart = false := by
  cases hstarting : q.inStart with
  | false => rfl
  | true =>
      have hbefore := ((hc.apart i j p q hp hq).start (Phase.inClose_of_pastStartup h) hstarting).2
      rw [h] at hbefore
      cases hbefore

theorem Orderly.no_start_past (hc : Orderly c) {i : Nat} {p : Phase}
    (hp : c.phases[i]? = some p) (h : p.pastStartup = true) {P : Prop} :
    ∀ (j : Nat) (q : Phase), c.phases[j]? = some q → q.inStart = true → P := by
  intro j q hq hstarting
  rw [hc.no_start hp hq h] at hstarting
  cases hstarting

/-- A task was created. -/
theorem Orderly.push {new : Phase} (hc : Orderly c) (hnew : c.Fits c.phases.length new)
    (hfrom : ∀ (j : Nat) (q : Phase), c.phases[j]? = some q →
      Apart c.startupTask new j q ∧ Apart c.startupTask q c.phases.length new)
    (hself : Apart c.startupTask new c.phases.length new) :
    Orderly { c with phases := c.phases ++ [new] } := by
  refine ⟨hc.startup, forall_getElem?_concat hc.fits hnew, fun j k q r hq hr => ?_⟩
  rcases getElem?_concat_eq_some hq with hold | ⟨rfl, rfl⟩
  · rcases getElem?_concat_eq_some hr with hold' | ⟨rfl, rfl⟩
    · exact hc.apart j k q r hold hold'
    · exact (hfrom j q hold).2
  · rcases getElem?_concat_eq_some hr with hold' | ⟨rfl, rfl⟩
    · exact (hfrom k r hold').1
    · exact hself

/-- While a start holds the lock, no loop runs and no `aclose` is past it. -/
theorem Orderly.only_start (hc : Orderly c) {i j : Nat} {q : Phase}
    (hget : c.phases[i]? = some .starting) (hq : c.phases[j]? = some q) (hne : j ≠ i) :
    q ≠ .starting ∧ q ≠ .beating ∧ q.pastStartup = false := by
  have hown := hc.fits i _ hget
  refine ⟨?_, ?_, ?_⟩
  · rintro rfl
    have hlock := hown.1.symm.trans (hc.fits j _ hq).1
    exact hne (Option.some.inj hlock).symm
  · rintro rfl
    have hdone := hown.2.symm.trans (hc.fits j _ hq).2
    cases hdone
  · cases hpast : q.pastStartup with
    | false => rfl
    | true =>
        have hstarting := hc.no_start hq hget hpast
        cases hstarting

/-! ### A start -/

theorem Orderly.startCalled (hc : Orderly c)
    (h : ∀ (i : Nat) (p : Phase), c.phases[i]? = some p → p.inClose = false) :
    Orderly { c with phases := c.phases ++ [.acquiring] } := by
  refine hc.push trivial (fun j q hq => ⟨⟨nofun, nofun⟩, ⟨fun hclosing => ?_, fun _ => nofun⟩⟩)
    ⟨nofun, nofun⟩
  rw [h j q hq] at hclosing
  cases hclosing

theorem Orderly.entered {i : Nat} (hc : Orderly c) (hget : c.phases[i]? = some .acquiring)
    (hlock : c.startupLock = none) (hdone : c.startupDone = false) :
    Orderly ({ c with startupLock := some i }.put i .starting) := by
  refine .put rfl hc.startup ?_ ⟨rfl, hdone⟩ (fun j k q r _ _ => hc.apart j k q r) ?_ ?_
  · intro j q hne hq
    have hfits := hc.fits j q hq
    cases q with
    | starting =>
        have hheld := hlock.symm.trans hfits.1
        cases hheld
    | _ => exact hfits
  · intro j q hne hq
    have hapart := hc.apart j i q .acquiring hq hget
    exact ⟨⟨nofun, nofun⟩, hapart.1, nofun⟩
  · exact ⟨nofun, nofun⟩

theorem Orderly.skipped {i : Nat} {done : Bool} (hc : Orderly c) (hlock : c.startupLock = none)
    (hdone : done = true ∨ done = c.startupDone) :
    Orderly ({ c with startupDone := done }.put i .ended) := by
  refine hc.putEnded rfl rfl fun j q hne hq => ?_
  have hfits := hc.fits j q hq
  cases q with
  | starting =>
      have hheld := hlock.symm.trans hfits.1
      cases hheld
  | beating =>
      cases hdone with
      | inl htrue => exact ⟨hfits.1, htrue⟩
      | inr hsame => exact ⟨hfits.1, hsame.trans hfits.2⟩
  | _ => exact hfits

/-- A start gives the lock back, and leaves no loop behind. -/
theorem Orderly.leftStart {i : Nat} (hc : Orderly c) (hget : c.phases[i]? = some .starting)
    (done : Bool) :
    Orderly ({ c with startupLock := none, startupDone := done }.put i .ended) := by
  refine hc.putEnded rfl rfl fun j q hne hq => ?_
  obtain ⟨hstarting, hbeating, -⟩ := hc.only_start hget hq hne
  have hfits := hc.fits j q hq
  cases q with
  | starting => exact absurd rfl hstarting
  | beating => exact absurd rfl hbeating
  | _ => exact hfits

theorem Orderly.started {i : Nat} (hc : Orderly c) (hget : c.phases[i]? = some .starting) :
    Orderly ({ c with
      startupLock := none
      startupDone := true
      heartbeatTask := some c.phases.length
      phases := c.phases ++ [Phase.beating] }.put i .ended) := by
  have hold (j : Nat) (q : Phase) (hne : j ≠ i) (h : (c.phases ++ [Phase.beating])[j]? = some q) :
      (c.phases[j]? = some q ∧ q ≠ .starting ∧ q ≠ .beating ∧ q.pastStartup = false) ∨
        j = c.phases.length ∧ q = .beating :=
    (getElem?_concat_eq_some h).imp_left fun hq => ⟨hq, hc.only_start hget hq hne⟩
  refine .put (c := { c with phases := c.phases ++ [Phase.beating] }) rfl hc.startup ?_ trivial ?_
    (fun j q _ _ => apart_ended _ _ _ _) ⟨nofun, nofun⟩
  · intro j q hne h
    rcases hold j q hne h with ⟨hq, hstarting, hbeating, hpast⟩ | ⟨rfl, rfl⟩
    · have hfits := hc.fits j q hq
      cases q with
      | starting => exact absurd rfl hstarting
      | beating => exact absurd rfl hbeating
      | awaitingHeartbeat k => cases hpast
      | _ => exact hfits
    · exact ⟨rfl, rfl⟩
  · intro j k q r hj hk hq hr
    rcases hold j q hj hq with ⟨hq, -, -, hpast⟩ | ⟨-, rfl⟩
    · rcases hold k r hk hr with ⟨hr, -, -, -⟩ | ⟨-, rfl⟩
      · exact hc.apart j k q r hq hr
      · refine ⟨fun _ => nofun, fun h => ?_⟩
        rw [Phase.pastStartup_of_pastHeartbeat h] at hpast
        cases hpast
    · exact ⟨nofun, nofun⟩

/-! ### An `aclose` -/

theorem Orderly.acloseCalled (hc : Orderly c)
    (h : ∀ (i : Nat) (p : Phase), c.phases[i]? = some p → p.inStart = true →
      c.startupTask = some i) :
    Orderly { c with phases := c.phases ++ [.called] } :=
  hc.push trivial
    (fun j q hq =>
      ⟨⟨fun _ hstarting => ⟨h j q hq hstarting, rfl⟩, nofun⟩, ⟨fun _ => nofun, fun _ => nofun⟩⟩)
    ⟨fun _ => nofun, nofun⟩

theorem Orderly.noStartup {i : Nat} (hc : Orderly c) (hget : c.phases[i]? = some .called)
    (h : c.startupTask = none) : Orderly (c.put i .startupGone) := by
  refine hc.putClosing hget rfl rfl rfl hc.startup trivial (fun k q _ => hc.fits k q) ?_
    fun k _ => rfl
  intro k q hq hstarting
  have hscheduled := ((hc.apart i k _ q hget hq).start rfl hstarting).1
  rw [h] at hscheduled
  cases hscheduled

theorem Orderly.startupEnded {i j : Nat} (hc : Orderly c)
    (hget : c.phases[i]? = some (.awaitingStartup j)) (h : c.phases[j]? = some .ended) :
    Orderly ({ c with startupTask := none }.put i .startupGone) := by
  refine hc.putClosing hget rfl rfl rfl nofun trivial ?_ ?_ fun k _ => rfl
  · intro k q _ hq
    have hfits := hc.fits k q hq
    cases q <;> exact hfits
  · -- the start in flight would be the one that was awaited
    intro k q hq hstarting
    have hk := hc.startup k ((hc.apart i k _ q hget hq).start rfl hstarting).1
    have hj : j = 0 := hc.fits i _ hget
    rw [hk, ← hj, h] at hq
    cases hq
    cases hstarting

theorem Orderly.noHeartbeat {i : Nat} (hc : Orderly c) (hget : c.phases[i]? = some .startupGone)
    (h : c.heartbeatTask = none) : Orderly (c.put i .heartbeatGone) := by
  refine hc.putClosing hget rfl rfl rfl hc.startup trivial (fun k q _ => hc.fits k q)
    (hc.no_start_past hget rfl) ?_
  intro k hbeating
  have hhandle := (hc.fits k _ hbeating).1
  rw [h] at hhandle
  cases hhandle

theorem Orderly.heartbeatEnded {i j : Nat} (hc : Orderly c)
    (hget : c.phases[i]? = some (.awaitingHeartbeat j)) (h : c.phases[j]? = some .ended) :
    Orderly ({ c with heartbeatTask := none }.put i .heartbeatGone) := by
  -- the loop that ran would be the one that was awaited
  have hloop (k : Nat) : c.phases[k]? ≠ some .beating := by
    intro hbeating
    have hj : k = j := hc.fits i _ hget k (hc.fits k _ hbeating).1
    rw [hj, h] at hbeating
    cases hbeating
  refine hc.putClosing hget rfl rfl rfl hc.startup trivial ?_ (hc.no_start_past hget rfl)
    fun k hbeating => absurd hbeating (hloop k)
  intro k q _ hq
  have hfits := hc.fits k q hq
  cases q with
  | beating => exact absurd hq (hloop k)
  | awaitingHeartbeat l => exact nofun
  | _ => exact hfits

theorem Orderly.closed {i : Nat} {p : Phase} (hc : Orderly c) (hget : c.phases[i]? = some p)
    (h : p.pastHeartbeat = true) : Orderly ({ c with startupDone := false }.put i .ended) := by
  refine hc.putEnded rfl rfl fun j q hne hq => ?_
  have hfits := hc.fits j q hq
  cases q with
  | starting => exact ⟨hfits.1, rfl⟩
  | beating => exact absurd rfl ((hc.apart i j p _ hget hq).loop h)
  | _ => exact hfits

theorem Move.orderly (h : Move c d) (hc : Orderly c) : Orderly d := by
  cases h with
  | startCalled h => exact hc.startCalled h
  | acloseCalled h => exact hc.acloseCalled h
  | ended i p hget h => exact hc.putEnded rfl rfl fun j q _ hq => hc.fits j q hq
  | entered i hget hlock hdone => exact hc.entered hget hlock hdone
  | skipped i done hget hlock hdone => exact hc.skipped hlock hdone
  | failed i hget => exact hc.leftStart hget c.startupDone
  | started i hget => exact hc.started hget
  | restarted i hget => exact hc.leftStart hget true
  | awaitsStartup i j hget h =>
      exact hc.putClosing hget rfl rfl rfl hc.startup (hc.startup j h)
        (fun k q _ => hc.fits k q) (fun k q _ _ => ⟨rfl, rfl⟩) fun k _ => rfl
  | noStartup i hget h => exact hc.noStartup hget h
  | startupEnded i j hget h => exact hc.startupEnded hget h
  | awaitsHeartbeat i j hget h =>
      refine hc.putClosing hget rfl rfl rfl hc.startup ?_ (fun k q _ => hc.fits k q)
        (hc.no_start_past hget rfl) fun k _ => rfl
      intro k hk
      exact Option.some.inj (hk.symm.trans h)
  | noHeartbeat i hget h => exact hc.noHeartbeat hget h
  | heartbeatEnded i j hget h => exact hc.heartbeatEnded hget h
  | deregisters i hget =>
      refine hc.putClosing hget rfl rfl rfl hc.startup trivial (fun k q _ => hc.fits k q)
        (hc.no_start_past hget rfl) ?_
      intro k hbeating
      exact absurd rfl ((hc.apart i k _ _ hget hbeating).loop rfl)
  | closed i p hget h => exact hc.closed hget h

theorem orderly_of_moves (h : Relation.ReflTransGen Move c d) (hc : Orderly c) : Orderly d := by
  induction h with
  | refl => exact hc
  | tail _ hmove ih => exact hmove.orderly ih

end Control

/-! ## The manager refines the moves -/

def Task.phase : Task → Phase
  | .acquiring => .acquiring
  | .starting _ => .starting
  | .beating _ => .beating
  | .closing .called => .called
  | .closing (.startupTask task) => .awaitingStartup task
  | .closing (.heartbeatTask task) => .awaitingHeartbeat task
  | .closing (.deregistration _) => .deregistering
  | .ended _ => .ended

namespace Manager

def control (s : Manager) : Control where
  startupTask := s.startupTask
  heartbeatTask := s.heartbeatTask
  startupLock := s.startupLock
  startupDone := s.startupDone
  phases := s.tasks.map Task.phase

/-- No explicit start overlaps an `aclose`. -/
def separate (s : Manager) : Action → Bool
  | .start => s.tasks.all fun task => !task.phase.inClose
  | .aclose => s.tasks.zipIdx.all fun (task, i) => !task.phase.inStart || s.startupTask == some i
  | .registerTools _ | .resume .. => true

variable {H : Host} {s t : Manager} {i : Nat} {task : Task} {outcome : Outcome} {reading : Reading}

theorem control_phase {p : Phase} :
    s.control.phases[i]? = some p ↔ ∃ task, s.tasks[i]? = some task ∧ task.phase = p := by
  simp only [control, List.getElem?_map, Option.map_eq_some_iff]

theorem phase_of_task (h : s.tasks[i]? = some task) : s.control.phases[i]? = some task.phase :=
  control_phase.mpr ⟨task, h, rfl⟩

theorem control_suspend (i : Nat) (task : Task) (s : Manager) :
    (s.suspend i task).control = s.control.put i task.phase := by
  simp only [control, suspend, Control.put, List.map_set]

/-- A task that stays in its phase makes no move. -/
theorem control_stay {new : Task} (hget : s.tasks[i]? = some task)
    (hphase : new.phase = task.phase) : (s.suspend i new).control = s.control := by
  rw [control_suspend, Control.put, hphase, set_eq_self (phase_of_task hget)]

/-- What a step may do to the order of the tasks. -/
abbrev Moves (s t : Manager) : Prop := Relation.ReflTransGen Control.Move s.control t.control

theorem Moves.of_eq (h : t.control = s.control) : Moves s t := by
  rw [Moves, h]

section Close
variable {c : Control}

theorem put_phase {p : Phase} (hi : i < c.phases.length) (new : Phase) (h : p = new) :
    (c.put i new).phases[i]? = some p := by
  rw [h]
  exact List.getElem?_set_self hi

theorem put_put (p q : Phase) : (c.put i p).put i q = c.put i q := by
  simp only [Control.put, List.set_set]

theorem closeRegistration_moves (hi : i < s.control.phases.length) :
    Relation.ReflTransGen Control.Move (s.control.put i .heartbeatGone)
      (s.closeRegistration H i).control := by
  have hget := put_phase hi .heartbeatGone rfl
  rw [closeRegistration]
  split
  · have hmove := Control.Move.deregisters i hget
    rw [put_put] at hmove
    rw [control_suspend]
    exact .single hmove
  · have hmove := Control.Move.closed i .heartbeatGone hget rfl
    refine .single ?_
    simpa only [control, finishClose, endTask, suspend, Control.put, List.map_set, List.set_set,
      Task.phase] using hmove

theorem closeHeartbeat_moves (hi : i < s.control.phases.length) :
    Relation.ReflTransGen Control.Move (s.control.put i .startupGone)
      (s.closeHeartbeat H i).control := by
  have hget := put_phase hi .startupGone rfl
  rw [closeHeartbeat]
  split
  · next task htask =>
      have hmove := Control.Move.awaitsHeartbeat i task hget htask
      rw [put_put] at hmove
      rw [control_suspend]
      exact .single hmove
  · next hnone =>
      refine .head (.noHeartbeat i hget hnone) ?_
      rw [put_put]
      exact closeRegistration_moves hi

theorem close_moves (hget : s.control.phases[i]? = some .called) : Moves s (s.close H i) := by
  rw [close]
  split
  · next task htask =>
      refine .single ?_
      rw [control_suspend]
      exact .awaitsStartup i task hget htask
  · next hnone =>
      refine .head (.noStartup i hget hnone) ?_
      exact closeHeartbeat_moves (List.getElem?_eq_some_iff.mp hget).1

theorem endTask_moves {result : Outcome} (hget : s.tasks[i]? = some task)
    (h : task.phase ≠ .starting) : Moves s (s.endTask i result) := by
  refine .single ?_
  rw [endTask, control_suspend]
  exact .ended i task.phase (phase_of_task hget) h

theorem ended_of_taskResult {result : Outcome} (h : s.taskResult i = some result) :
    s.tasks[i]? = some (.ended result) := by
  rw [taskResult] at h
  split at h
  · next hget => cases h; exact hget
  · cases h

theorem resumeClose_moves {point : ClosePoint} (hget : s.tasks[i]? = some (.closing point))
    (h : s.resumeClose H i outcome point = some t) : Moves s t := by
  have hphase := phase_of_task hget
  have hi := (List.getElem?_eq_some_iff.mp hphase).1
  cases point with
  | called =>
      cases h
      exact close_moves hphase
  | startupTask j =>
      obtain ⟨result, hresult, rfl⟩ := Option.map_eq_some_iff.mp h
      have hended := phase_of_task (ended_of_taskResult hresult)
      split
      · refine .head (.startupEnded i j hphase hended) ?_
        exact closeHeartbeat_moves (s := { s with startupTask := none }) hi
      · exact endTask_moves hget nofun
  | heartbeatTask j =>
      obtain ⟨result, hresult, rfl⟩ := Option.map_eq_some_iff.mp h
      have hended := phase_of_task (ended_of_taskResult hresult)
      split
      · refine .head (.heartbeatEnded i j hphase hended) ?_
        exact closeRegistration_moves (s := { s with heartbeatTask := none }) hi
      · exact endTask_moves hget nofun
  | deregistration point =>
      simp only [resumeClose] at h
      split at h
      · cases h
        exact .of_eq (control_stay (s := { s with publisher := _ }) hget rfl)
      · cases h
        refine .single ?_
        rw [finishClose, endTask, control_suspend]
        exact .closed i .deregistering hphase rfl
      · cases h
        exact endTask_moves (s := { s with publisher := _ }) hget nofun

end Close

theorem enterStart_moves (hget : s.tasks[i]? = some .acquiring) (hlock : s.startupLock = none) :
    Moves s (s.enterStart H i) := by
  have hphase := phase_of_task hget
  refine .single ?_
  rw [enterStart]
  split
  · rw [endTask, control_suspend]
    exact .skipped i s.startupDone hphase hlock (.inr rfl)
  · next hdone =>
      split
      · rw [control_suspend]
        exact .entered i hphase hlock (Bool.not_eq_true _ ▸ hdone)
      · split
        · rw [endTask, control_suspend]
          exact .skipped i true hphase hlock (.inl rfl)
        · rw [endTask, control_suspend]
          exact .skipped i s.startupDone hphase hlock (.inr rfl)

theorem finishStart_moves {point : StartPoint} (hget : s.tasks[i]? = some (.starting point)) :
    Moves s (s.finishStart i) := by
  have hphase := phase_of_task hget
  refine .single ?_
  rw [finishStart]
  split
  · have hmove := Control.Move.started i hphase
    simpa only [control, releaseLock, endTask, suspend, Control.put, List.map_set, List.map_append,
      List.map_singleton, List.length_map, Task.phase] using hmove
  · have hmove := Control.Move.restarted i hphase
    simpa only [control, releaseLock, endTask, suspend, Control.put, List.map_set, Task.phase]
      using hmove

theorem resume_moves (hget : s.tasks[i]? = some task)
    (h : s.resume H i outcome reading task = some t) : Moves s t := by
  cases task with
  | acquiring =>
      simp only [resume] at h
      split at h
      · split at h
        · cases h
        · next hlock =>
            cases h
            exact enterStart_moves hget (Option.not_isSome_iff_eq_none.mp hlock)
      · cases h
        exact endTask_moves hget nofun
  | starting point =>
      simp only [resume] at h
      split at h
      · cases h
        exact .of_eq (control_stay (s := { s with publisher := _ }) hget rfl)
      · cases h
        exact finishStart_moves
          (s := { s with publisher := (resumeStart H reading s.publisher outcome point).1 }) hget
      · cases h
        refine .single ?_
        have hmove := Control.Move.failed i (phase_of_task hget)
        simpa only [control, releaseLock, endTask, suspend, Control.put, List.map_set, Task.phase]
          using hmove
  | beating point =>
      simp only [resume] at h
      split at h
      · cases h
        exact .of_eq (control_stay (s := { s with publisher := _ }) hget rfl)
      · cases h
        exact endTask_moves (s := { s with publisher := _ }) hget nofun
  | closing point => exact resumeClose_moves hget h
  | ended result => cases h

theorem step_moves {a : Action} (h : restrict separate (step H) s a = some t) : Moves s t := by
  obtain ⟨hseparate, hstep⟩ := restrict_eq_some.mp h
  cases a with
  | registerTools manifest =>
      cases hstep
      exact .refl
  | start =>
      cases hstep
      have hmove : Control.Move s.control _ := .startCalled fun i p hp => ?_
      · refine .single ?_
        simpa only [control, List.map_append, List.map_singleton, Task.phase] using hmove
      · obtain ⟨task, hget, rfl⟩ := control_phase.mp hp
        simpa using List.all_eq_true.mp hseparate task (List.mem_of_getElem? hget)
  | aclose =>
      cases hstep
      have hmove : Control.Move s.control _ := .acloseCalled fun i p hp hstarting => ?_
      · refine .single ?_
        simpa only [control, List.map_append, List.map_singleton, Task.phase] using hmove
      · obtain ⟨task, hget, rfl⟩ := control_phase.mp hp
        have hall := List.all_eq_true.mp hseparate (task, i) (List.mem_zipIdx_iff_getElem?.mpr hget)
        show s.startupTask = some i
        simpa [hstarting] using hall
  | resume i outcome reading =>
      obtain ⟨task, hget, hresume⟩ := Option.bind_eq_some_iff.mp hstep
      exact resume_moves hget hresume

abbrev Orderly (s : Manager) : Prop := s.control.Orderly

theorem orderly_created (autoStart : Bool) : (created autoStart).Orderly := by
  cases autoStart with
  | false => exact ⟨nofun, nofun, nofun⟩
  | true =>
      have hempty : Control.Orderly ⟨some 0, none, none, false, []⟩ :=
        ⟨fun j h => (Option.some.inj h).symm, nofun, nofun⟩
      exact hempty.push trivial nofun ⟨nofun, nofun⟩

theorem step_orderly {a : Action} (h : restrict separate (step H) s a = some t)
    (hs : s.Orderly) : t.Orderly :=
  Control.orderly_of_moves (step_moves h) hs

/-- While a start or a loop publishes, no other task does. -/
theorem Orderly.alone (hs : s.Orderly) {j : Nat} {other : Task} (hget : s.tasks[i]? = some task)
    (hphase : task.phase = .starting ∨ task.phase = .beating)
    (hother : s.tasks[j]? = some other) (hne : j ≠ i) : other.phase.publishes = false := by
  have hi := phase_of_task hget
  have hj := phase_of_task hother
  cases hphase with
  | inl hstarting =>
      rw [hstarting] at hi
      obtain ⟨hlock, hloop, hclose⟩ := Control.Orderly.only_start hs hi hj hne
      cases hq : other.phase with
      | starting => exact absurd hq hlock
      | beating => exact absurd hq hloop
      | deregistering => rw [hq] at hclose; cases hclose
      | _ => rfl
  | inr hbeating =>
      rw [hbeating] at hi
      have hown := hs.fits i _ hi
      cases hq : other.phase with
      | starting =>
          rw [hq] at hj
          exact absurd rfl (Control.Orderly.only_start hs hj hi hne.symm).2.1
      | beating =>
          rw [hq] at hj
          exact absurd (Option.some.inj ((hs.fits j _ hj).1.symm.trans hown.1)) hne
      | deregistering =>
          rw [hq] at hj
          exact absurd rfl ((hs.apart j i _ _ hj hi).loop rfl)
      | _ => rfl

theorem Orderly.deregistering (hs : s.Orderly) {j : Nat} {other : Task}
    (hget : s.tasks[i]? = some task) (hphase : task.phase = .deregistering)
    (hother : s.tasks[j]? = some other) (hne : j ≠ i) (hpublishes : other.phase.publishes = true) :
    other.phase = .deregistering := by
  cases hq : other.phase with
  | starting =>
      have halone := hs.alone hother (.inl hq) hget hne.symm
      rw [hphase] at halone
      cases halone
  | beating =>
      have halone := hs.alone hother (.inr hq) hget hne.symm
      rw [hphase] at halone
      cases halone
  | deregistering => rfl
  | _ => rw [hq] at hpublishes; cases hpublishes

/-- Where a start may take the lock, nothing is published. -/
theorem Orderly.free (hs : s.Orderly) (hget : s.tasks[i]? = some .acquiring)
    (hlock : s.startupLock = none) (hdone : s.startupDone = false) {j : Nat} {other : Task}
    (hother : s.tasks[j]? = some other) : other.phase.publishes = false := by
  have hj := phase_of_task hother
  cases hq : other.phase with
  | starting =>
      rw [hq] at hj
      have hheld := hlock.symm.trans (hs.fits j _ hj).1
      cases hheld
  | beating =>
      rw [hq] at hj
      have hended := hdone.symm.trans (hs.fits j _ hj).2
      cases hended
  | deregistering =>
      rw [hq] at hj
      have hstarting := Control.Orderly.no_start hs hj (phase_of_task hget) rfl
      cases hstarting
  | _ => rfl

end Manager

/-! ## Invariants of what is published -/

theorem startupFailed_holds {H : Host} {P : Publisher} {S : StartPoint → Prop} {R : Unit → Prop}
    (e : Exc) (hpoint : ∀ point, P.deregister H "startup_failed" = some point →
      S (.deregistration point e)) : (startupFailed H P e).Holds S R := by
  simp only [startupFailed]
  split
  · split
    · next point hderegister => exact hpoint point hderegister
    · trivial
  · trivial

/-- `I` is kept by the stretches of the coroutines, each taken where its task is
at a point that `At` describes. A stretch of a start or of a loop need not care
for other tasks. -/
structure Kept (H : Host) (Allowed : Task → Outcome → Prop) (I : Publisher → Prop)
    (At : Publisher → Task → Prop) : Prop where
  idle : ∀ P task, task.phase.publishes = false → At P task
  tools : ∀ P manifest, I P → I { P with manifest := manifest } ∧
    ∀ task, At P task → At { P with manifest := manifest } task
  startLifecycle : ∀ P, H.agentId.isSome = true → I P → I (startLifecycle H P).1 ∧
    At (startLifecycle H P).1 (.starting (startLifecycle H P).2)
  start : ∀ reading P outcome point, Allowed (.starting point) outcome → I P →
    At P (.starting point) → I (resumeStart H reading P outcome point).1 ∧
      (resumeStart H reading P outcome point).2.Holds
        (fun point' => At (resumeStart H reading P outcome point).1 (.starting point'))
        (fun _ => At (resumeStart H reading P outcome point).1 (.beating (.sleeping {})))
  loop : ∀ reading P outcome point, I P → At P (.beating point) →
    I (resumeLoop H reading P outcome point).1 ∧ (resumeLoop H reading P outcome point).2.Holds
      (fun point' => At (resumeLoop H reading P outcome point).1 (.beating point')) (fun _ => True)
  deregister : ∀ P point, I P → P.deregister H "shutdown" = some point →
    At P (.closing (.deregistration point))
  close : ∀ P outcome point, Allowed (.closing (.deregistration point)) outcome → I P →
    At P (.closing (.deregistration point)) → I (resumeDeregistration H P outcome point).1 ∧
      (resumeDeregistration H P outcome point).2.Holds
        (fun point' =>
          At (resumeDeregistration H P outcome point).1 (.closing (.deregistration point')))
        (fun _ => True) ∧
      ∀ task, task.phase = .deregistering → At P task →
        At (resumeDeregistration H P outcome point).1 task

namespace Kept
variable {H : Host} {Allowed : Task → Outcome → Prop} {I : Publisher → Prop}
  {At : Publisher → Task → Prop} {s t : Manager} {i : Nat} {task : Task} {outcome : Outcome}
  {reading : Reading}

/-- `I` and, for every task, `At`. -/
structure Everywhere (I : Publisher → Prop) (At : Publisher → Task → Prop) (s : Manager) :
    Prop where
  publisher : I s.publisher
  tasks : ∀ (i : Nat) (task : Task), s.tasks[i]? = some task → At s.publisher task

theorem Everywhere.suspend {P : Publisher} (hI : I P) (hnew : At P task)
    (hothers : ∀ (j : Nat) (other : Task), j ≠ i → s.tasks[j]? = some other → At P other) :
    Everywhere I At ({ s with publisher := P }.suspend i task) := by
  refine ⟨hI, fun j other hget => ?_⟩
  rcases getElem?_set_eq_some hget with ⟨-, rfl⟩ | ⟨hne, hold⟩
  · exact hnew
  · exact hothers j other hne hold

/-- A task that publishes nothing while it stands still. -/
theorem Everywhere.idle (hkept : Kept H Allowed I At) (h : Everywhere I At s)
    (hidle : task.phase.publishes = false) : Everywhere I At (s.suspend i task) :=
  Everywhere.suspend h.publisher (hkept.idle _ _ hidle) fun j other _ hget => h.tasks j other hget

theorem Everywhere.push {new : Task} (h : Everywhere I At s) (hnew : At s.publisher new) :
    Everywhere I At { s with tasks := s.tasks ++ [new] } :=
  ⟨h.publisher, forall_getElem?_concat (P := fun _ => At s.publisher) h.tasks hnew⟩

section Close
variable (hkept : Kept H Allowed I At)
include hkept

theorem closeRegistration (h : Everywhere I At s) :
    Everywhere I At (s.closeRegistration H i) := by
  rw [Manager.closeRegistration]
  split
  · next point hpoint =>
      exact Everywhere.suspend h.publisher (hkept.deregister _ point h.publisher hpoint)
        fun j other _ hget => h.tasks j other hget
  · exact Everywhere.idle (s := { s with startupDone := false }) hkept ⟨h.publisher, h.tasks⟩ rfl

theorem closeHeartbeat (h : Everywhere I At s) : Everywhere I At (s.closeHeartbeat H i) := by
  rw [Manager.closeHeartbeat]
  split
  · exact h.idle hkept rfl
  · exact hkept.closeRegistration h

theorem resumeClose {point : ClosePoint} (hs : s.Orderly) (h : Everywhere I At s)
    (hget : s.tasks[i]? = some (.closing point)) (hallowed : Allowed (.closing point) outcome)
    (hresume : s.resumeClose H i outcome point = some t) : Everywhere I At t := by
  cases point with
  | called =>
      cases hresume
      rw [Manager.close]
      split
      · exact h.idle hkept rfl
      · exact hkept.closeHeartbeat h
  | startupTask j =>
      obtain ⟨result, -, rfl⟩ := Option.map_eq_some_iff.mp hresume
      split
      · exact hkept.closeHeartbeat ⟨h.publisher, h.tasks⟩
      · exact h.idle hkept rfl
  | heartbeatTask j =>
      obtain ⟨result, -, rfl⟩ := Option.map_eq_some_iff.mp hresume
      split
      · exact hkept.closeRegistration ⟨h.publisher, h.tasks⟩
      · exact h.idle hkept rfl
  | deregistration point =>
      have hat := h.tasks i _ hget
      obtain ⟨hI, hpoint, hclosing⟩ :=
        hkept.close s.publisher outcome point hallowed h.publisher hat
      -- the other tasks that publish are deregistering too
      have hothers (j : Nat) (other : Task) (hne : j ≠ i) (hother : s.tasks[j]? = some other) :
          At (resumeDeregistration H s.publisher outcome point).1 other := by
        cases hphase : other.phase.publishes with
        | false => exact hkept.idle _ _ hphase
        | true =>
            have hphase := hs.deregistering hget rfl hother hne hphase
            exact hclosing other hphase (h.tasks j other hother)
      simp only [Manager.resumeClose] at hresume
      split at hresume
      · next point' hprogress =>
          cases hresume
          rw [hprogress] at hpoint
          exact Everywhere.suspend hI hpoint hothers
      · cases hresume
        exact Everywhere.suspend (s := { s with startupDone := false }) hI (hkept.idle _ _ rfl)
          hothers
      · cases hresume
        exact Everywhere.suspend hI (hkept.idle _ _ rfl) hothers

end Close

/-- While a start or a loop publishes, nothing is asked of the others. -/
theorem idle_others (hkept : Kept H Allowed I At) (hs : s.Orderly)
    (hget : s.tasks[i]? = some task) (hphase : task.phase = .starting ∨ task.phase = .beating)
    (P : Publisher) (j : Nat) (other : Task) (hne : j ≠ i) (hother : s.tasks[j]? = some other) :
    At P other :=
  hkept.idle P other (hs.alone hget hphase hother hne)

theorem enterStart (hkept : Kept H Allowed I At) (hs : s.Orderly) (h : Everywhere I At s)
    (hget : s.tasks[i]? = some .acquiring) (hlock : s.startupLock = none) :
    Everywhere I At (s.enterStart H i) := by
  rw [Manager.enterStart]
  split
  · exact h.idle hkept rfl
  · next hdone =>
      split
      · next agentId hagent =>
          obtain ⟨hI, hat⟩ := hkept.startLifecycle s.publisher (by rw [hagent]; rfl) h.publisher
          refine Everywhere.suspend (s := { s with startupLock := some i }) hI hat ?_
          intro j other _ hother
          exact hkept.idle _ _ (hs.free hget hlock (Bool.eq_false_of_not_eq_true hdone) hother)
      · split
        · exact Everywhere.idle (s := { s with startupDone := true }) hkept ⟨h.publisher, h.tasks⟩
            rfl
        · exact h.idle hkept rfl

theorem finishStart (hkept : Kept H Allowed I At) {P : Publisher} (hI : I P)
    (hloop : At P (.beating (.sleeping {})))
    (hothers : ∀ (j : Nat) (other : Task), j ≠ i → s.tasks[j]? = some other → At P other) :
    Everywhere I At ({ s with publisher := P }.finishStart i) := by
  have hended := hkept.idle P (.ended (.ok ())) rfl
  rw [Manager.finishStart]
  split
  · refine ⟨hI, fun j other hget => ?_⟩
    rcases getElem?_set_eq_some hget with ⟨-, rfl⟩ | ⟨hne, hold⟩
    · exact hended
    · rcases getElem?_concat_eq_some hold with hold | ⟨-, rfl⟩
      · exact hothers j other hne hold
      · exact hloop
  · refine ⟨hI, fun j other hget => ?_⟩
    rcases getElem?_set_eq_some hget with ⟨-, rfl⟩ | ⟨hne, hold⟩
    · exact hended
    · exact hothers j other hne hold

theorem resume (hkept : Kept H Allowed I At) (hs : s.Orderly) (h : Everywhere I At s)
    (hget : s.tasks[i]? = some task) (hallowed : Allowed task outcome)
    (hresume : s.resume H i outcome reading task = some t) : Everywhere I At t := by
  have hat := h.tasks i task hget
  cases task with
  | acquiring =>
      simp only [Manager.resume] at hresume
      split at hresume
      · split at hresume
        · cases hresume
        · next hlock =>
            cases hresume
            exact hkept.enterStart hs h hget (Option.not_isSome_iff_eq_none.mp hlock)
      · cases hresume
        exact h.idle hkept rfl
  | starting point =>
      obtain ⟨hI, hprogress⟩ := hkept.start reading _ outcome point hallowed h.publisher hat
      have hothers := hkept.idle_others hs hget (.inl rfl)
        (resumeStart H reading s.publisher outcome point).1
      simp only [Manager.resume] at hresume
      split at hresume
      · next point' hresult =>
          cases hresume
          rw [hresult] at hprogress
          exact Everywhere.suspend hI hprogress hothers
      · next hresult =>
          cases hresume
          rw [hresult] at hprogress
          exact hkept.finishStart hI hprogress hothers
      · cases hresume
        exact Everywhere.suspend (s := { s with startupLock := none }) hI (hkept.idle _ _ rfl)
          hothers
  | beating point =>
      obtain ⟨hI, hprogress⟩ := hkept.loop reading _ outcome point h.publisher hat
      have hothers := hkept.idle_others hs hget (.inr rfl)
        (resumeLoop H reading s.publisher outcome point).1
      simp only [Manager.resume] at hresume
      split at hresume
      · next point' hresult =>
          cases hresume
          rw [hresult] at hprogress
          exact Everywhere.suspend hI hprogress hothers
      · cases hresume
        exact Everywhere.suspend hI (hkept.idle _ _ rfl) hothers
  | closing point => exact hkept.resumeClose hs h hget hallowed hresume
  | ended result => cases hresume

/-- The rule for a step: `Allowed` says how the await of the resumed task may end. -/
theorem step {a : Action} (hkept : Kept H Allowed I At) (hs : s.Orderly) (h : Everywhere I At s)
    (hallowed : ∀ (i : Nat) (outcome : Outcome) (reading : Reading) (task : Task),
      a = .resume i outcome reading → s.tasks[i]? = some task → Allowed task outcome)
    (hstep : step H s a = some t) : Everywhere I At t := by
  cases a with
  | registerTools manifest =>
      cases hstep
      obtain ⟨hI, htasks⟩ := hkept.tools s.publisher manifest h.publisher
      exact ⟨hI, fun i task hget => htasks task (h.tasks i task hget)⟩
  | start =>
      cases hstep
      exact h.push (hkept.idle _ _ rfl)
  | aclose =>
      cases hstep
      exact h.push (hkept.idle _ _ rfl)
  | resume i outcome reading =>
      obtain ⟨task, hget, hresume⟩ := Option.bind_eq_some_iff.mp hstep
      exact hkept.resume hs h hget (hallowed i outcome reading task rfl hget) hresume

theorem created (hkept : Kept H Allowed I At) (hI : I {}) (autoStart : Bool) :
    Everywhere I At (created autoStart) := by
  have hempty (startupTask : Option Nat) : Everywhere I At { startupTask := startupTask } :=
    ⟨hI, fun i task h => nomatch h⟩
  cases autoStart with
  | false => exact hempty none
  | true => exact (hempty (some 0)).push (hkept.idle _ _ rfl)

end Kept
end DualeAI.Agent
