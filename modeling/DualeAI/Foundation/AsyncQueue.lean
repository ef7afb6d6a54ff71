import DualeAI.Foundation.Indexed
import Mathlib.Data.List.Nodup

/-!
`asyncio.Queue` without a bound, and the tasks that read from it.

A read is a task that runs `get()`. It takes the front item, or waits until a put
wakes it and tries again; a cancelled read leaves the items alone. Reads keep
their numbers, so that whoever created one can find out what became of it.
-/
namespace Foundation

inductive Read (α : Type) where
  | created
  | waiting
  | woken
  | cancelling (wasWoken : Bool)
  | took (a : α)
  | cancelled

namespace Read
variable {α : Type}

def wake : Read α → Read α
  | .waiting => .woken
  | read => read

def finished : Read α → Bool
  | .took _ | .cancelled => true
  | _ => false

def taken : Read α → List α
  | .took a => [a]
  | _ => []

def withdrawn : Read α → Bool
  | .cancelling _ | .cancelled => true
  | _ => false

@[simp] theorem finished_wake (read : Read α) : read.wake.finished = read.finished := by
  cases read <;> rfl

@[simp] theorem taken_wake (read : Read α) : read.wake.taken = read.taken := by
  cases read <;> rfl

@[simp] theorem withdrawn_wake (read : Read α) : read.wake.withdrawn = read.withdrawn := by
  cases read <;> rfl

end Read

structure AsyncQueue (α : Type) where
  items : List α := []
  /-- The reads that wait, the first to be woken in front. -/
  getters : List Nat := []
  reads : List (Read α) := []

namespace AsyncQueue
variable {α : Type}

def wakeupNext (q : AsyncQueue α) : AsyncQueue α :=
  match q.getters with
  | [] => q
  | i :: rest => { q with getters := rest, reads := q.reads.modify i Read.wake }

def putNowait (a : α) (q : AsyncQueue α) : AsyncQueue α :=
  wakeupNext { q with items := q.items ++ [a] }

def getNowait (q : AsyncQueue α) : Option (α × AsyncQueue α) :=
  match q.items with
  | [] => none
  | a :: items => some (a, { q with items := items })

def createRead (q : AsyncQueue α) : AsyncQueue α := { q with reads := q.reads ++ [.created] }

/-- `while self.empty()` registers a getter, else `get_nowait` takes the front. -/
def tryGet (i : Nat) (q : AsyncQueue α) : AsyncQueue α :=
  match q.items with
  | [] => { q with getters := q.getters ++ [i], reads := q.reads.set i .waiting }
  | a :: items => { q with items := items, reads := q.reads.set i (.took a) }

/-- The next step of read `i`, unless it waits or has finished. -/
def runRead (i : Nat) (q : AsyncQueue α) : Option (AsyncQueue α) :=
  match q.reads[i]? with
  | some .created | some .woken => some (tryGet i q)
  | some (.cancelling wasWoken) =>
      let q := { q with reads := q.reads.set i .cancelled }
      -- a read that was woken already passes its turn on
      some (if wasWoken && !q.items.isEmpty then wakeupNext q else q)
  | _ => none

/-- `cancel()` of read `i`, which takes effect when the read runs next. -/
def cancelRead (i : Nat) (q : AsyncQueue α) : AsyncQueue α :=
  match q.reads[i]? with
  | some .created => { q with reads := q.reads.set i (.cancelling false) }
  | some .waiting =>
      { q with getters := q.getters.erase i, reads := q.reads.set i (.cancelling false) }
  | some .woken => { q with reads := q.reads.set i (.cancelling true) }
  | _ => q

/-- What read `i` has taken off the queue. -/
def taken (i : Nat) (q : AsyncQueue α) : List α := ((q.reads[i]?).map Read.taken).getD []

/-- Whether read `i`, where there is one, was cancelled. -/
def withdrawn (i : Nat) (q : AsyncQueue α) : Option Bool := (q.reads[i]?).map Read.withdrawn

/-- Just the reads that wait are registered. -/
structure WellFormed (q : AsyncQueue α) : Prop where
  mem_getters : ∀ i, i ∈ q.getters ↔ q.reads[i]? = some .waiting
  nodup : q.getters.Nodup

/-- No read but this one is unfinished. -/
def Sole (current : Option Nat) (q : AsyncQueue α) : Prop :=
  ∀ i read, q.reads[i]? = some read → read.finished = true ∨ current = some i

variable {q t : AsyncQueue α} {i : Nat} {current : Option Nat}

/-! ## One read changes -/

section Set
variable {read before : Read α}

theorem taken_eq (h : q.reads[i]? = some read) : q.taken i = read.taken := by
  simp [taken, h]

theorem taken_eq_nil (h : ∀ a, q.reads[i]? ≠ some (.took a)) : q.taken i = [] := by
  rw [taken]
  cases hget : q.reads[i]? with
  | none => rfl
  | some read =>
      cases read with
      | took a => exact absurd hget (h a)
      | created | waiting | woken | cancelling _ | cancelled => rfl

theorem taken_of_withdrawn (h : q.withdrawn i = some true) : q.taken i = [] := by
  refine taken_eq_nil fun a hget => ?_
  rw [withdrawn, hget] at h
  cases h

theorem taken_set_self (hget : q.reads[i]? = some before) (getters : List Nat) (items : List α) :
    taken i ⟨items, getters, q.reads.set i read⟩ = read.taken := by
  have hlt := (List.getElem?_eq_some_iff.mp hget).1
  simp [taken, hlt]

theorem withdrawn_set_self (hget : q.reads[i]? = some before) (getters : List Nat)
    (items : List α) : withdrawn i ⟨items, getters, q.reads.set i read⟩ = some read.withdrawn := by
  have hlt := (List.getElem?_eq_some_iff.mp hget).1
  simp [withdrawn, hlt]

theorem Sole.set (h : Sole current q) (hread : read.finished = true ∨ current = some i)
    (getters : List Nat) (items : List α) :
    Sole current ⟨items, getters, q.reads.set i read⟩ := by
  intro j read' hget
  rw [List.getElem?_set] at hget
  split at hget
  · next heq =>
      split at hget
      · cases hget
        exact heq ▸ hread
      · cases hget
  · exact h j read' hget

/-- A read that neither waited nor waits. -/
theorem WellFormed.set (h : WellFormed q) (hget : q.reads[i]? = some before)
    (hbefore : before ≠ .waiting) (read : Read α) (hread : read ≠ .waiting) (items : List α) :
    WellFormed ⟨items, q.getters, q.reads.set i read⟩ := by
  refine ⟨fun j => ?_, h.nodup⟩
  rw [List.getElem?_set]
  split
  · next heq =>
      subst heq
      rw [if_pos (List.getElem?_eq_some_iff.mp hget).1, h.mem_getters, hget]
      simp [hbefore, hread]
  · exact h.mem_getters j

end Set

/-! ## Wake-ups and puts -/

@[simp] theorem wakeupNext_items (q : AsyncQueue α) : q.wakeupNext.items = q.items := by
  rw [wakeupNext]
  split <;> rfl

@[simp] theorem wakeupNext_taken (q : AsyncQueue α) (i : Nat) :
    q.wakeupNext.taken i = q.taken i := by
  rw [wakeupNext]
  split
  · rfl
  · simp only [taken, List.getElem?_modify]
    cases q.reads[i]? with
    | none => rfl
    | some read => simp [apply_ite Read.taken]

/-- Only a read that waits is woken. -/
theorem wakeupNext_keeps {read : Read α} (h : q.reads[i]? = some read) (hread : read ≠ .waiting) :
    q.wakeupNext.reads[i]? = some read := by
  have hwake : read.wake = read := by
    cases read <;> first | rfl | exact absurd rfl hread
  rw [wakeupNext]
  split
  · exact h
  · exact getElem?_modify_eq_some.mpr ⟨read, h, by simp [hwake]⟩

@[simp] theorem wakeupNext_withdrawn (q : AsyncQueue α) (i : Nat) :
    q.wakeupNext.withdrawn i = q.withdrawn i := by
  rw [wakeupNext]
  split
  · rfl
  · simp only [withdrawn, List.getElem?_modify]
    cases q.reads[i]? with
    | none => rfl
    | some read => simp [apply_ite Read.withdrawn]

theorem wakeupNext_read {read : Read α} (h : q.wakeupNext.reads[i]? = some read) :
    ∃ before, q.reads[i]? = some before ∧ before.finished = read.finished := by
  rw [wakeupNext] at h
  split at h
  · exact ⟨read, h, rfl⟩
  · obtain ⟨before, hget, rfl⟩ := getElem?_modify_eq_some.mp h
    exact ⟨before, hget, by split <;> simp⟩

theorem Sole.wakeupNext (h : Sole current q) : Sole current q.wakeupNext := by
  intro i read hget
  obtain ⟨before, hbefore, hsame⟩ := wakeupNext_read hget
  exact hsame ▸ h i before hbefore

theorem WellFormed.wakeupNext (h : WellFormed q) : WellFormed q.wakeupNext := by
  cases hgetters : q.getters with
  | nil =>
      rw [AsyncQueue.wakeupNext, hgetters]
      exact h
  | cons i rest =>
      rw [AsyncQueue.wakeupNext, hgetters]
      have hnodup := List.nodup_cons.mp (hgetters ▸ h.nodup)
      refine ⟨fun j => ?_, hnodup.2⟩
      have hmem : j = i ∨ j ∈ rest ↔ q.reads[j]? = some .waiting := by
        rw [← h.mem_getters j, hgetters, List.mem_cons]
      rw [getElem?_modify_eq_some]
      by_cases heq : i = j
      · subst heq
        simp only [hnodup.1, if_pos, false_iff]
        rintro ⟨before, -, hwake⟩
        cases before <;> cases hwake
      · simp only [if_neg heq, exists_eq_right', ← hmem, Ne.symm heq, false_or]

@[simp] theorem putNowait_items (a : α) (q : AsyncQueue α) :
    (q.putNowait a).items = q.items ++ [a] := by
  simp [putNowait]

@[simp] theorem putNowait_taken (a : α) (q : AsyncQueue α) (i : Nat) :
    (q.putNowait a).taken i = q.taken i :=
  wakeupNext_taken _ i

@[simp] theorem putNowait_withdrawn (a : α) (q : AsyncQueue α) (i : Nat) :
    (q.putNowait a).withdrawn i = q.withdrawn i :=
  wakeupNext_withdrawn _ i

theorem Sole.putNowait (h : Sole current q) (a : α) : Sole current (q.putNowait a) :=
  Sole.wakeupNext (q := { q with items := q.items ++ [a] }) h

theorem WellFormed.putNowait (h : WellFormed q) (a : α) : WellFormed (q.putNowait a) :=
  WellFormed.wakeupNext (q := { q with items := q.items ++ [a] }) ⟨h.mem_getters, h.nodup⟩

/-! ## Reads -/

theorem Sole.createRead (h : Sole none q) : Sole (some q.reads.length) q.createRead := by
  refine forall_getElem?_concat (fun i read hget => ?_) (.inr rfl)
  cases h i read hget with
  | inl hfinished => exact .inl hfinished
  | inr hnone => cases hnone

theorem WellFormed.createRead (h : WellFormed q) : WellFormed q.createRead := by
  refine ⟨fun i => ?_, h.nodup⟩
  rw [show q.createRead.getters = q.getters from rfl, h.mem_getters]
  constructor
  · intro hget
    rw [AsyncQueue.createRead, List.getElem?_append_left (List.getElem?_eq_some_iff.mp hget).1]
    exact hget
  · intro hget
    cases getElem?_concat_eq_some hget with
    | inl hold => exact hold
    | inr hlast => cases hlast.2

theorem createRead_taken (q : AsyncQueue α) : q.createRead.taken q.reads.length = [] := by
  have hlast : q.createRead.reads[q.reads.length]? = some .created := List.getElem?_concat_length
  exact taken_eq hlast

theorem createRead_withdrawn (q : AsyncQueue α) :
    q.createRead.withdrawn q.reads.length = some false := by
  simp [createRead, withdrawn, Read.withdrawn]

/-- How a read gets on: it takes the front or waits for one, or it ends. -/
theorem runRead_eq_some (h : q.runRead i = some t) :
    ∃ before, q.reads[i]? = some before ∧ before.finished = false ∧ before ≠ .waiting ∧
      (before.withdrawn = false ∧ t = q.tryGet i ∨
        before.withdrawn = true ∧ (t = { q with reads := q.reads.set i .cancelled } ∨
          t = wakeupNext { q with reads := q.reads.set i .cancelled })) := by
  rw [runRead] at h
  split at h
  · next hget => cases h; exact ⟨_, hget, rfl, nofun, .inl ⟨rfl, rfl⟩⟩
  · next hget => cases h; exact ⟨_, hget, rfl, nofun, .inl ⟨rfl, rfl⟩⟩
  · next wasWoken hget =>
      cases h
      refine ⟨_, hget, rfl, nofun, .inr ⟨rfl, ?_⟩⟩
      split
      · exact .inr rfl
      · exact .inl rfl
  · cases h

theorem tryGet_taken {before : Read α} (hget : q.reads[i]? = some before) :
    (q.tryGet i).taken i ++ (q.tryGet i).items = q.items := by
  rw [tryGet]
  split
  · next hitems => rw [taken_set_self hget, hitems]; rfl
  · next a items hitems => rw [taken_set_self hget, hitems]; rfl

theorem tryGet_withdrawn {before : Read α} (hget : q.reads[i]? = some before) :
    (q.tryGet i).withdrawn i = some false := by
  rw [tryGet]
  split
  · exact withdrawn_set_self hget _ _
  · exact withdrawn_set_self hget _ _

/-- Taking is all that a read does to the items. -/
theorem runRead_taken (h : q.runRead i = some t) :
    q.taken i = [] ∧ t.taken i ++ t.items = q.items := by
  obtain ⟨before, hget, hbefore, -, ht⟩ := runRead_eq_some h
  refine ⟨?_, ?_⟩
  · rw [taken_eq hget]
    cases before <;> first | rfl | cases hbefore
  · rcases ht with ⟨-, rfl⟩ | ⟨-, rfl | rfl⟩
    · exact tryGet_taken hget
    · rw [taken_set_self hget]
      rfl
    · rw [wakeupNext_taken, taken_set_self hget, wakeupNext_items]
      rfl

theorem runRead_withdrawn (h : q.runRead i = some t) : t.withdrawn i = q.withdrawn i := by
  obtain ⟨before, hget, -, -, ht⟩ := runRead_eq_some h
  have hsame : q.withdrawn i = some before.withdrawn := by rw [withdrawn, hget]; rfl
  rw [hsame]
  rcases ht with ⟨hlive, rfl⟩ | ⟨hwithdrawn, rfl | rfl⟩
  · rw [hlive, tryGet_withdrawn hget]
  · rw [hwithdrawn, withdrawn_set_self hget]
    rfl
  · rw [hwithdrawn, wakeupNext_withdrawn, withdrawn_set_self hget]
    rfl

theorem runRead_live (h : q.runRead i = some t) (hlive : q.withdrawn i = some false) :
    t = q.tryGet i := by
  obtain ⟨before, hget, -, -, ⟨-, ht⟩ | ⟨hwithdrawn, -⟩⟩ := runRead_eq_some h
  · exact ht
  · rw [withdrawn, hget, Option.map_some, hwithdrawn] at hlive
    cases hlive

/-- A cancelled read ends when it runs. -/
theorem runRead_cancelled (h : q.runRead i = some t) (hwithdrawn : q.withdrawn i = some true) :
    t.reads[i]? = some .cancelled := by
  obtain ⟨before, hget, -, -, ⟨hlive, -⟩ | ⟨-, ht⟩⟩ := runRead_eq_some h
  · rw [withdrawn, hget, Option.map_some, hlive] at hwithdrawn
    cases hwithdrawn
  · have hset : (q.reads.set i .cancelled)[i]? = some .cancelled :=
      List.getElem?_set_self (List.getElem?_eq_some_iff.mp hget).1
    cases ht with
    | inl ht =>
        rw [ht]
        exact hset
    | inr ht =>
        rw [ht]
        exact wakeupNext_keeps hset nofun

theorem runRead_current (h : q.runRead i = some t) (hsole : Sole current q) :
    current = some i := by
  obtain ⟨before, hget, hbefore, -⟩ := runRead_eq_some h
  cases hsole i before hget with
  | inl hfinished =>
      rw [hbefore] at hfinished
      cases hfinished
  | inr hcurrent => exact hcurrent

theorem Sole.runRead (hsole : Sole current q) (h : q.runRead i = some t) : Sole current t := by
  have hcurrent := runRead_current h hsole
  obtain ⟨before, -, -, -, ⟨-, rfl⟩ | ⟨-, rfl | rfl⟩⟩ := runRead_eq_some h
  · rw [tryGet]
    split
    · exact hsole.set (.inr hcurrent) _ _
    · exact hsole.set (.inr hcurrent) _ _
  · exact hsole.set (.inr hcurrent) _ _
  · exact (hsole.set (.inr hcurrent) _ _).wakeupNext

theorem Sole.finish {read : Read α} (h : Sole (some i) q) (hget : q.reads[i]? = some read)
    (hread : read.finished = true) : Sole none q := by
  intro j read' hget'
  cases h j read' hget' with
  | inl hfinished => exact .inl hfinished
  | inr hcurrent =>
      cases hcurrent
      rw [hget] at hget'
      cases hget'
      exact .inl hread

theorem WellFormed.tryGet (h : WellFormed q) {before : Read α} (hget : q.reads[i]? = some before)
    (hbefore : before ≠ .waiting) : WellFormed (q.tryGet i) := by
  rw [AsyncQueue.tryGet]
  split
  · have hout : i ∉ q.getters := by
      rw [h.mem_getters, hget]
      simp [hbefore]
    refine ⟨fun j => ?_, List.nodup_append.mpr ⟨h.nodup, List.nodup_singleton i, ?_⟩⟩
    · rw [List.mem_append, List.mem_singleton, List.getElem?_set]
      by_cases heq : i = j
      · subst heq
        simp [(List.getElem?_eq_some_iff.mp hget).1]
      · simp [heq, Ne.symm heq, h.mem_getters]
    · intro j hj k hk
      rw [List.mem_singleton] at hk
      exact fun heq => hout (hk ▸ heq ▸ hj)
  · exact h.set hget hbefore (.took _) nofun _

theorem WellFormed.runRead (hq : WellFormed q) (h : q.runRead i = some t) : WellFormed t := by
  obtain ⟨before, hget, -, hbefore, ⟨-, rfl⟩ | ⟨-, rfl | rfl⟩⟩ := runRead_eq_some h
  · exact hq.tryGet hget hbefore
  · exact hq.set hget hbefore .cancelled nofun _
  · exact (hq.set hget hbefore .cancelled nofun _).wakeupNext

/-- A put reaches the only read there is: that has an item, or takes one next. -/
theorem putNowait_reaches (a : α) (hq : WellFormed q) (hsole : Sole (some i) q)
    (hlive : q.withdrawn i = some false) :
    (∃ b, (q.putNowait a).taken i = [b]) ∨
      ∃ t b, (q.putNowait a).runRead i = some t ∧ t.taken i = [b] := by
  obtain ⟨read, hget, hread⟩ := Option.map_eq_some_iff.mp hlive
  have hready (h : (q.putNowait a).reads[i]? = some .created ∨
      (q.putNowait a).reads[i]? = some .woken) :
      ∃ t b, (q.putNowait a).runRead i = some t ∧ t.taken i = [b] := by
    have hrun : (q.putNowait a).runRead i = some ((q.putNowait a).tryGet i) := by
      cases h with
      | inl h => rw [AsyncQueue.runRead, h]
      | inr h => rw [AsyncQueue.runRead, h]
    obtain ⟨before, hbefore⟩ : ∃ before, (q.putNowait a).reads[i]? = some before := by
      cases h with
      | inl h => exact ⟨_, h⟩
      | inr h => exact ⟨_, h⟩
    have htaken := tryGet_taken hbefore
    cases hitems : (q.putNowait a).items with
    | nil => simp at hitems
    | cons b rest =>
        refine ⟨_, b, hrun, ?_⟩
        rw [AsyncQueue.tryGet, hitems]
        exact taken_set_self hbefore _ _
  cases read with
  | took b => exact .inl ⟨b, (putNowait_taken a q i).trans (taken_eq hget)⟩
  | created => exact .inr (hready (.inl (wakeupNext_keeps hget nofun)))
  | woken => exact .inr (hready (.inr (wakeupNext_keeps hget nofun)))
  | waiting =>
      have hmem : i ∈ q.getters := (hq.mem_getters i).mpr hget
      cases hgetters : q.getters with
      | nil => exact absurd (hgetters ▸ hmem) List.not_mem_nil
      | cons j rest =>
          have hj := (hq.mem_getters j).mp (hgetters ▸ List.mem_cons_self)
          cases hsole j .waiting hj with
          | inl hfinished => cases hfinished
          | inr hcurrent =>
              cases hcurrent
              refine .inr (hready (.inr ?_))
              simp [putNowait, wakeupNext, hgetters, hget, Read.wake]
  | cancelling _ | cancelled => cases hread

/-! ## Cancellation -/

/-- A cancelled read leaves the items alone, and what it took, if anything, stays
with it. -/
@[simp] theorem cancelRead_items (i : Nat) (q : AsyncQueue α) :
    (q.cancelRead i).items = q.items := by
  rw [cancelRead]
  split <;> rfl

/-- A read that has no item yet is cancelled. -/
theorem cancelRead_withdrawn (h : q.withdrawn i = some false)
    (htook : ∀ a, q.reads[i]? ≠ some (.took a)) : (q.cancelRead i).withdrawn i = some true := by
  obtain ⟨read, hget, hread⟩ := Option.map_eq_some_iff.mp h
  cases read with
  | created | waiting | woken =>
      rw [cancelRead, hget]
      exact withdrawn_set_self hget _ _
  | took a => exact absurd hget (htook a)
  | cancelling _ | cancelled => cases hread

theorem Sole.cancelRead (h : Sole (some i) q) : Sole (some i) (q.cancelRead i) := by
  rw [AsyncQueue.cancelRead]
  split
  · exact h.set (.inr rfl) _ _
  · exact h.set (.inr rfl) _ _
  · exact h.set (.inr rfl) _ _
  · exact h

theorem WellFormed.cancelRead (h : WellFormed q) (i : Nat) : WellFormed (q.cancelRead i) := by
  rw [AsyncQueue.cancelRead]
  split
  · next hget => exact h.set hget nofun (.cancelling _) nofun _
  · next hget =>
      refine ⟨fun j => ?_, h.nodup.erase i⟩
      rw [h.nodup.mem_erase_iff, h.mem_getters, List.getElem?_set]
      by_cases heq : i = j
      · subst heq
        simp [(List.getElem?_eq_some_iff.mp hget).1]
      · simp [heq, Ne.symm heq]
  · next hget => exact h.set hget nofun (.cancelling _) nofun _
  · exact h

end AsyncQueue
end Foundation
