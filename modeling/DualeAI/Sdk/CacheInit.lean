import DualeAI.Foundation.Indexed
import DualeAI.Foundation.Transition

/-!
`_ensure_cache` against itself and against `cleanup`.

Between the check of `_cache` and its assignment a call waits for the connection of
its new backend, and no lock is held; only the mock backend is made without a wait.
A call that has a backend in hand opens its connection again if it is closed. The
stages of a `cleanup` are those of its part about the cache.
-/
namespace DualeAI.CacheInit
open Foundation

inductive Phase where
  | opening
  | created
  | failed
deriving DecidableEq

/-- A cache backend, its connection and its cleanup loop. -/
structure Backend where
  phase : Phase
  connection : Bool
  loop : Bool

def Backend.isOpen (b : Backend) : Bool := b.phase = .created && (b.connection || b.loop)

/-- Where a `cleanup` stands: it waits for the loop of the backend it closes, then for
its connection, and then for a moment more. -/
inductive Stage where
  | stopping (n : Nat)
  | closing (n : Nat)
  | leaving
  | returned
deriving DecidableEq

structure State where
  backends : List Backend := []
  /-- `_cache`. -/
  cache : Option Nat := none
  cleanups : List Stage := []

inductive Action where
  | ensure
  | connect (n : Nat)
  | complete (n : Nat)
  | fail (n : Nat)
  | use (n : Nat)
  | cleanup
  | stopLoop (j : Nat)
  | close (j : Nat) (raises : Bool)
  | leave (j : Nat)

namespace State

def modifyBackend (n : Nat) (f : Backend → Backend) (s : State) : State :=
  { s with backends := s.backends.modify n f }

def setStage (j : Nat) (stage : Stage) (s : State) : State :=
  { s with cleanups := s.cleanups.set j stage }

/-- No cleanup is between its look at `_cache` and its return. -/
def calm (s : State) : Bool := s.cleanups.all (· = .returned)

end State

section Steps
variable (mock : Bool)

/-- `_ensure_cache` up to its first suspension. -/
def ensureCache (s : State) : State :=
  if s.cache.isSome then s
  else if mock then
    { s with backends := s.backends ++ [⟨.created, false, true⟩], cache := some s.backends.length }
  else { s with backends := s.backends ++ [⟨.opening, false, false⟩] }

def step (s : State) : Action → Option State
  | .ensure => some (ensureCache mock s)
  | .connect n => do
      let b ← s.backends[n]?
      if b.phase = .opening then some (s.modifyBackend n fun b => { b with connection := true })
      else none
  | .complete n => do
      let b ← s.backends[n]?
      if b.phase = .opening ∧ b.connection then
        some { s.modifyBackend n fun b => { b with phase := .created, loop := true } with
          cache := some n }
      else none
  | .fail n => do
      let b ← s.backends[n]?
      if b.phase = .opening then some (s.modifyBackend n fun b => { b with phase := .failed })
      else none
  | .use n => do
      let b ← s.backends[n]?
      if b.phase = .created then
        some (s.modifyBackend n fun b => { b with connection := b.connection || !mock })
      else none
  | .cleanup =>
      some { s with cleanups := s.cleanups ++ [s.cache.elim .leaving .stopping] }
  | .stopLoop j =>
      match s.cleanups[j]? with
      | some (.stopping n) =>
          some ((s.modifyBackend n fun b => { b with loop := false }).setStage j (.closing n))
      | _ => none
  | .close j raises =>
      match s.cleanups[j]? with
      | some (.closing n) =>
          let s := s.modifyBackend n fun b => { b with connection := b.connection && raises }
          some { s.setStage j .leaving with cache := none }
      | _ => none
  | .leave j => if s.cleanups[j]? = some .leaving then some (s.setStage j .returned) else none

/-- A backend is put into `_cache` only while that is empty and no cleanup is under
way, none is opened again, and closing does not raise. -/
def orderly (s : State) : Action → Bool
  | .ensure => !mock || s.cache.isSome || s.calm
  | .complete _ => s.cache.isNone && s.calm
  | .use n => (s.backends[n]?).all fun b => b.connection || mock
  | .close _ raises => !raises
  | _ => true

end Steps

/-- No backend is open but `owner`. -/
def OpenOnly (owner : Option Nat) (s : State) : Prop :=
  ∀ (n : Nat) (b : Backend), s.backends[n]? = some b → b.isOpen = true → owner = some n

/-- What a cleanup leaves open until it returns. -/
def Stage.owner : Stage → Option (Option Nat)
  | .stopping n | .closing n => some (some n)
  | .leaving => some none
  | .returned => none

structure Invariant (s : State) : Prop where
  owned : OpenOnly s.cache s
  stages : ∀ stage ∈ s.cleanups, ∀ owner, stage.owner = some owner → OpenOnly owner s
  stopped : ∀ n, .closing n ∈ s.cleanups → ∀ b, s.backends[n]? = some b → b.loop = false

/-- Backends are only closed, and loops only stopped. -/
def Closes (s t : State) : Prop :=
  ∀ (n : Nat) (b : Backend), t.backends[n]? = some b → b.isOpen = false ∧ b.loop = false ∨
    ∃ before, s.backends[n]? = some before ∧ (b.isOpen = true → before.isOpen = true) ∧
      (b.loop = true → before.loop = true)

theorem OpenOnly.closes {owner : Option Nat} {s t : State} (h : OpenOnly owner s)
    (hcloses : Closes s t) : OpenOnly owner t := by
  intro n b hget hopen
  cases hcloses n b hget with
  | inl hclosed => exact absurd hopen (by simp [hclosed.1])
  | inr hbefore =>
      obtain ⟨before, hget', hopen', -⟩ := hbefore
      exact h n before hget' (hopen' hopen)

theorem closes_modifyBackend {s : State} {n : Nat} {f : Backend → Backend}
    (hf : ∀ b, s.backends[n]? = some b → ((f b).isOpen = true → b.isOpen = true) ∧
      ((f b).loop = true → b.loop = true)) : Closes s (s.modifyBackend n f) := by
  intro m b hget
  obtain ⟨before, hbefore, rfl⟩ := getElem?_modify_eq_some.mp hget
  refine .inr ⟨before, hbefore, ?_⟩
  by_cases hm : n = m
  · subst hm
    rw [if_pos rfl]
    exact hf before hbefore
  · rw [if_neg hm]
    exact ⟨id, id⟩

theorem Invariant.closes {s t : State} (h : Invariant s) (hcloses : Closes s t)
    (hcache : t.cache = s.cache) (hcleanups : t.cleanups = s.cleanups) : Invariant t := by
  refine ⟨?_, fun stage hmem owner howner => ?_, fun n hmem b hget => ?_⟩
  · rw [hcache]
    exact h.owned.closes hcloses
  · rw [hcleanups] at hmem
    exact (h.stages stage hmem owner howner).closes hcloses
  · rw [hcleanups] at hmem
    cases hcloses n b hget with
    | inl hclosed => exact hclosed.2
    | inr hbefore =>
        obtain ⟨before, hget', -, hloop⟩ := hbefore
        rw [← Bool.not_eq_true]
        intro hb
        have hstopped := h.stopped n hmem before hget'
        rw [hloop hb] at hstopped
        cases hstopped

/-- A backend is put into an empty `_cache`. -/
theorem Invariant.install {s t : State} (h : Invariant s) (hcache : s.cache = none)
    (hcalm : s.calm = true) {n : Nat} (hinstalled : t.cache = some n)
    (hcleanups : t.cleanups = s.cleanups)
    (hothers : ∀ (m : Nat) (b : Backend), t.backends[m]? = some b → b.isOpen = true →
      m = n ∨ ∃ before, s.backends[m]? = some before ∧ before.isOpen = true) : Invariant t := by
  have hreturned : ∀ stage ∈ t.cleanups, stage = .returned := by
    rw [hcleanups]
    simpa [State.calm] using hcalm
  refine ⟨fun m b hget hopen => ?_, fun stage hmem owner howner => ?_, fun m hmem => ?_⟩
  · cases hothers m b hget hopen with
    | inl hm => rw [hinstalled, hm]
    | inr hbefore =>
        obtain ⟨before, hget', hopen'⟩ := hbefore
        have howned := h.owned m before hget' hopen'
        rw [hcache] at howned
        cases howned
  · rw [hreturned stage hmem] at howner
    cases howner
  · cases hreturned _ hmem

theorem Invariant.setStage {s : State} {j : Nat} {stage : Stage} (h : Invariant s)
    (howner : ∀ owner, stage.owner = some owner → OpenOnly owner s)
    (hstopped : ∀ n, stage = .closing n → ∀ b, s.backends[n]? = some b → b.loop = false) :
    Invariant (s.setStage j stage) := by
  refine ⟨h.owned, forall_mem_set h.stages howner, fun n hmem => ?_⟩
  · cases List.mem_or_eq_of_mem_set hmem with
    | inl hold => exact h.stopped n hold
    | inr hnew => exact hstopped n hnew.symm

section Runs
variable {mock : Bool}

theorem Invariant.ensureCache {s : State} (h : Invariant s)
    (horderly : orderly mock s .ensure = true) : Invariant (ensureCache mock s) := by
  rw [CacheInit.ensureCache]
  split
  · exact h
  · next hsome =>
      have hnone : s.cache = none := by simpa using hsome
      split
      · next hmock =>
          have hcalm : s.calm = true := by simpa [orderly, hnone, hmock] using horderly
          refine h.install hnone hcalm rfl rfl fun m b hget hopen => ?_
          cases getElem?_concat_eq_some hget with
          | inl hold => exact .inr ⟨b, hold, hopen⟩
          | inr hnew => exact .inl hnew.1
      · refine h.closes (fun m b hget => ?_) rfl rfl
        cases getElem?_concat_eq_some hget with
        | inl hold => exact .inr ⟨b, hold, id, id⟩
        | inr hnew =>
            rw [hnew.2]
            exact .inl ⟨rfl, rfl⟩

theorem Invariant.stopLoop {s : State} {j n : Nat} (h : Invariant s)
    (hstage : .stopping n ∈ s.cleanups) :
    Invariant ((s.modifyBackend n fun b => { b with loop := false }).setStage j (.closing n)) := by
  have hcloses : Closes s (s.modifyBackend n fun b => { b with loop := false }) := by
    refine closes_modifyBackend fun b _ => ⟨fun hopen => ?_, fun hloop => by cases hloop⟩
    simp only [Backend.isOpen, Bool.and_eq_true, Bool.or_false] at hopen ⊢
    simp [hopen]
  refine (h.closes hcloses rfl rfl).setStage (fun owner howner => ?_) fun m hclosing b hget => ?_
  · cases howner
    exact (h.stages _ hstage _ rfl).closes hcloses
  · cases hclosing
    obtain ⟨before, -, rfl⟩ := getElem?_modify_eq_some.mp hget
    rw [if_pos rfl]

/-- The loop had stopped, so the backend is closed and no other was open. -/
theorem Invariant.close {s : State} {j n : Nat} (h : Invariant s)
    (hstage : .closing n ∈ s.cleanups) :
    Invariant { (s.modifyBackend n fun b =>
      { b with connection := b.connection && false }).setStage j .leaving with cache := none } := by
  have hcloses : Closes s (s.modifyBackend n fun b =>
      { b with connection := b.connection && false }) := by
    refine closes_modifyBackend fun b _ => ⟨fun hopen => ?_, id⟩
    simp only [Backend.isOpen, Bool.and_eq_true, Bool.and_false, Bool.false_or] at hopen ⊢
    simp [hopen]
  have hnone : OpenOnly none (s.modifyBackend n fun b =>
      { b with connection := b.connection && false }) := by
    intro m b hget hopen
    cases (h.stages _ hstage _ rfl).closes hcloses m b hget hopen
    obtain ⟨before, hbefore, rfl⟩ := getElem?_modify_eq_some.mp hget
    rw [if_pos rfl] at hopen
    simp [Backend.isOpen, h.stopped n hstage before hbefore] at hopen
  have howned : ∀ owner, Stage.leaving.owner = some owner →
      OpenOnly owner (s.modifyBackend n fun b => { b with connection := b.connection && false }) :=
    fun owner howner => by cases howner; exact hnone
  have hset := (h.closes hcloses rfl rfl).setStage (j := j) howned fun m hclosing => by
    cases hclosing
  exact ⟨hnone, hset.stages, hset.stopped⟩

theorem not_isOpen {b : Backend} (h : b.phase ≠ .created) : b.isOpen = false := by
  simp [Backend.isOpen, h]

theorem Invariant.step {s t : State} {a : Action} (h : Invariant s)
    (hstep : restrict (orderly mock) (step mock) s a = some t) : Invariant t := by
  obtain ⟨horderly, hstep⟩ := restrict_eq_some.mp hstep
  cases a with
  | ensure =>
      cases hstep
      exact h.ensureCache horderly
  | connect n =>
      obtain ⟨b, hget, hbody⟩ := Option.bind_eq_some_iff.mp hstep
      obtain ⟨hphase, heq⟩ := Option.ite_none_right_eq_some.mp hbody
      cases heq
      refine h.closes (closes_modifyBackend fun b' hget' => ⟨fun hopen => ?_, id⟩) rfl rfl
      cases hget.symm.trans hget'
      rw [not_isOpen (by simp [hphase])] at hopen
      cases hopen
  | complete n =>
      obtain ⟨b, hget, hbody⟩ := Option.bind_eq_some_iff.mp hstep
      obtain ⟨-, heq⟩ := Option.ite_none_right_eq_some.mp hbody
      cases heq
      simp only [orderly, Bool.and_eq_true, Option.isNone_iff_eq_none] at horderly
      refine h.install horderly.1 horderly.2 rfl rfl fun m b' hget' hopen => ?_
      obtain ⟨before, hbefore, rfl⟩ := getElem?_modify_eq_some.mp hget'
      by_cases hm : n = m
      · exact .inl hm.symm
      · rw [if_neg hm] at hopen
        exact .inr ⟨before, hbefore, hopen⟩
  | fail n =>
      obtain ⟨b, -, hbody⟩ := Option.bind_eq_some_iff.mp hstep
      obtain ⟨-, heq⟩ := Option.ite_none_right_eq_some.mp hbody
      cases heq
      refine h.closes (closes_modifyBackend fun b' _ => ⟨fun hopen => ?_, id⟩) rfl rfl
      rw [not_isOpen (by simp)] at hopen
      cases hopen
  | use n =>
      obtain ⟨b, hget, hbody⟩ := Option.bind_eq_some_iff.mp hstep
      obtain ⟨-, heq⟩ := Option.ite_none_right_eq_some.mp hbody
      cases heq
      refine h.closes (closes_modifyBackend fun b' hget' => ⟨fun hopen => ?_, id⟩) rfl rfl
      -- the connection is open as it was
      have hsame : (b'.connection || !mock) = b'.connection := by
        cases hget.symm.trans hget'
        simp only [orderly, hget, Option.all_some, Bool.or_eq_true] at horderly
        cases hmock : mock <;> simp_all
      simpa only [hsame] using hopen
  | cleanup =>
      cases hstep
      have hnew : ∀ owner, (s.cache.elim Stage.leaving .stopping).owner = some owner →
          owner = s.cache := by
        intro owner howner
        cases hcache : s.cache with
        | none =>
            rw [hcache] at howner
            cases howner
            rfl
        | some n =>
            rw [hcache] at howner
            cases howner
            rfl
      refine ⟨h.owned, fun stage hmem owner howner => ?_, fun n hmem => ?_⟩
      · cases List.mem_append.mp hmem with
        | inl hold => exact h.stages stage hold owner howner
        | inr hlast =>
            rw [List.mem_singleton.mp hlast] at howner
            rw [hnew owner howner]
            exact h.owned
      · cases List.mem_append.mp hmem with
        | inl hold => exact h.stopped n hold
        | inr hlast =>
            have heq := List.mem_singleton.mp hlast
            cases hcache : s.cache <;> rw [hcache] at heq <;> cases heq
  | stopLoop j =>
      simp only [CacheInit.step] at hstep
      split at hstep
      · next n hget =>
          cases hstep
          exact h.stopLoop (List.mem_of_getElem? hget)
      · cases hstep
  | close j raises =>
      simp only [CacheInit.step] at hstep
      split at hstep
      · next n hget =>
          cases hstep
          cases raises with
          | true => cases horderly
          | false => exact h.close (List.mem_of_getElem? hget)
      · cases hstep
  | leave j =>
      obtain ⟨hget, heq⟩ := Option.ite_none_right_eq_some.mp hstep
      cases heq
      exact h.setStage (fun _ howner => by cases howner) fun _ hclosing => by cases hclosing

theorem invariant_of_run {past : List Action} {s : State}
    (h : Run (restrict (orderly mock) (step mock)) {} past s) : Invariant s := by
  refine h.invariant (I := fun _ s => Invariant s) ⟨?_, ?_, ?_⟩ fun _ _ _ _ hs hstep =>
    hs.step hstep
  · exact fun _ _ hget => by cases hget
  · exact fun _ hmem => by cases hmem
  · exact fun _ hmem => by cases hmem

end Runs
/-! ## A backend that is displaced -/

/-- The backend in `_cache` has its connection. -/
def Held (s : State) : Prop :=
  ∀ n ∈ s.cache, ∃ b, s.backends[n]? = some b ∧ b.phase = .created ∧ b.connection = true

theorem held_modifyBackend {s : State} {n : Nat} {f : Backend → Backend} (h : Held s)
    (hf : ∀ b, s.backends[n]? = some b → b.phase = .created ∧ b.connection = true →
      (f b).phase = .created ∧ (f b).connection = true) : Held (s.modifyBackend n f) := by
  intro m hm
  obtain ⟨b, hget, hcreated⟩ := h m hm
  refine ⟨_, getElem?_modify_eq_some.mpr ⟨b, hget, rfl⟩, ?_⟩
  by_cases hn : n = m
  · subst hn
    rw [if_pos rfl]
    exact hf b hget hcreated
  · rw [if_neg hn]
    exact hcreated

theorem Held.step {s t : State} {a : Action} (h : Held s)
    (hstep : restrict (orderly false) (step false) s a = some t) : Held t := by
  obtain ⟨horderly, hstep⟩ := restrict_eq_some.mp hstep
  cases a with
  | ensure =>
      cases hstep
      rw [ensureCache]
      split
      · exact h
      · next hnone => exact fun n hn => absurd (Option.isSome_of_mem hn) hnone
  | connect n =>
      obtain ⟨b, -, hbody⟩ := Option.bind_eq_some_iff.mp hstep
      obtain ⟨-, heq⟩ := Option.ite_none_right_eq_some.mp hbody
      cases heq
      exact held_modifyBackend h fun _ _ hcreated => ⟨hcreated.1, rfl⟩
  | complete n =>
      obtain ⟨b, hget, hbody⟩ := Option.bind_eq_some_iff.mp hstep
      obtain ⟨hguard, heq⟩ := Option.ite_none_right_eq_some.mp hbody
      cases heq
      intro m hm
      cases hm
      refine ⟨_, getElem?_modify_eq_some.mpr ⟨b, hget, rfl⟩, ?_⟩
      rw [if_pos rfl]
      exact ⟨rfl, hguard.2⟩
  | fail n =>
      obtain ⟨b, hget, hbody⟩ := Option.bind_eq_some_iff.mp hstep
      obtain ⟨hphase, heq⟩ := Option.ite_none_right_eq_some.mp hbody
      cases heq
      refine held_modifyBackend h fun b' hget' hcreated => ?_
      cases hget.symm.trans hget'
      rw [hphase] at hcreated
      cases hcreated.1
  | use n =>
      obtain ⟨b, -, hbody⟩ := Option.bind_eq_some_iff.mp hstep
      obtain ⟨-, heq⟩ := Option.ite_none_right_eq_some.mp hbody
      cases heq
      exact held_modifyBackend h fun _ _ hcreated => ⟨hcreated.1, by simp⟩
  | cleanup =>
      cases hstep
      exact h
  | stopLoop j =>
      simp only [CacheInit.step] at hstep
      split at hstep
      · cases hstep
        exact held_modifyBackend h fun _ _ hcreated => hcreated
      · cases hstep
  | close j raises =>
      simp only [CacheInit.step] at hstep
      split at hstep
      · cases hstep
        exact fun _ hn => by cases hn
      · cases hstep
  | leave j =>
      obtain ⟨-, heq⟩ := Option.ite_none_right_eq_some.mp hstep
      cases heq
      exact h

theorem held_of_run {past : List Action} {s : State}
    (h : Run (restrict (orderly false) (step false)) {} past s) : Held s :=
  h.invariant (I := fun _ s => Held s) (fun _ hn => by cases hn) fun _ _ _ _ hs hstep =>
    hs.step hstep

end DualeAI.CacheInit
