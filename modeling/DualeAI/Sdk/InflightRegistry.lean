import DualeAI.Foundation.Dict
import DualeAI.Foundation.Indexed
import DualeAI.Foundation.Text
import DualeAI.Foundation.Transition

/-!
The registry of task runners, `_inflight_tasks`.

An action is what the event loop runs between two suspensions. A submission makes
its runner and registers it under the task id, which the caller may choose; the
runner removes that id when it ends, whatever is registered there by then. A runner
that is cancelled before it starts ends without having run anything. A cleanup cancels
the registered runners, waits for them (five seconds, or until it is cancelled itself)
and clears the registry.
-/
namespace DualeAI.Inflight
open Foundation

inductive Phase where
  | created
  | running
  | finished
deriving DecidableEq

/-- A `_run_task_with_circuit_breaker` task. -/
structure Runner where
  taskId : Text
  phase : Phase := .created
  cancelRequested : Bool := false

def Runner.unfinished (r : Runner) : Bool := r.phase ≠ .finished

theorem not_unfinished {r : Runner} (h : r.phase = .finished) : ¬ r.unfinished = true := by
  simp [Runner.unfinished, h]

structure State where
  runners : List Runner := []
  inflightTasks : Dict Text Nat := []
  /-- How many calls of `_cleanup_inflight_tasks` wait. -/
  cleanups : Nat := 0

/-- How a runner that started comes to its first suspension, or its end before it. -/
inductive FirstStretch where
  /-- The breaker is open. -/
  | rejected
  /-- The submitter gave up before the admission. -/
  | abandoned
  | suspended
deriving DecidableEq

inductive Action where
  | submit (taskId : Text)
  | start (n : Nat) (first : FirstStretch)
  | finish (n : Nat)
  | requestCancel (n : Nat)
  | cleanup
  /-- The wait of a cleanup ends, in any way. -/
  | endWait

namespace State

def setPhase (n : Nat) (phase : Phase) (s : State) : State :=
  { s with runners := s.runners.modify n fun r => { r with phase := phase } }

/-- The `finally` of the runner, after which it is done. -/
def leave (n : Nat) (r : Runner) (s : State) : State :=
  { s.setPhase n .finished with inflightTasks := Dict.pop r.taskId s.inflightTasks }

end State

def startRunner (n : Nat) (r : Runner) (first : FirstStretch) (s : State) : State :=
  if r.cancelRequested then s.setPhase n .finished
  else
    match first with
    | .rejected | .abandoned => s.leave n r
    | .suspended => s.setPhase n .running

/-- The loop that cancels. -/
def cancelInflight (s : State) : State :=
  { s with
    runners := s.runners.mapIdx fun n r =>
      if (s.inflightTasks.map Prod.snd).contains n && r.unfinished then
        { r with cancelRequested := true }
      else r }

/-- `_cleanup_inflight_tasks` up to its wait. -/
def startCleanup (s : State) : State :=
  if s.inflightTasks.isEmpty then s
  else { cancelInflight s with cleanups := s.cleanups + 1 }

def step (s : State) : Action → Option State
  | .submit taskId =>
      some
        { s with
          runners := s.runners ++ [{ taskId := taskId }]
          inflightTasks := Dict.put taskId s.runners.length s.inflightTasks }
  | .start n first => do
      let r ← s.runners[n]?
      if r.phase = .created then some (startRunner n r first s) else none
  | .finish n => do
      let r ← s.runners[n]?
      if r.phase = .running then some (s.leave n r) else none
  | .requestCancel n => do
      let r ← s.runners[n]?
      if r.unfinished then
        some { s with runners := s.runners.modify n fun r => { r with cancelRequested := true } }
      else none
  | .cleanup => some (startCleanup s)
  | .endWait =>
      if 0 < s.cleanups then some { s with inflightTasks := [], cleanups := s.cleanups - 1 }
      else none

/-- Every unfinished runner is registered, and cleanup cancels it. -/
def Covered (s : State) : Prop :=
  ∀ (n : Nat) (r : Runner), s.runners[n]? = some r → r.unfinished = true →
    n ∈ s.inflightTasks.map Prod.snd ∧
      ∃ r', (startCleanup s).runners[n]? = some r' ∧ r'.cancelRequested = true

/-- A runner with this task id has not finished. -/
def InUse (taskId : Text) (s : State) : Prop :=
  ∃ r ∈ s.runners, r.taskId = taskId ∧ r.unfinished = true

/-! ## Steps -/

/-- What a step does; only a submission adds a runner. -/
inductive Effect (s : State) : Action → State → Prop where
  | submitted (taskId : Text) : Effect s (.submit taskId)
      { s with
        runners := s.runners ++ [{ taskId := taskId }]
        inflightTasks := Dict.put taskId s.runners.length s.inflightTasks }
  | left (a : Action) (n : Nat) (r : Runner) (hget : s.runners[n]? = some r)
      (hopen : r.unfinished = true) : Effect s a (s.leave n r)
  | moved (a : Action) (n : Nat) (r : Runner) (phase : Phase) (hget : s.runners[n]? = some r)
      (hopen : r.unfinished = true) : Effect s a (s.setPhase n phase)
  | cancelled (n : Nat) : Effect s (.requestCancel n)
      { s with runners := s.runners.modify n fun r => { r with cancelRequested := true } }
  | idle (hempty : s.inflightTasks = []) : Effect s .cleanup s
  | swept : Effect s .cleanup { cancelInflight s with cleanups := s.cleanups + 1 }
  | cleared : Effect s .endWait { s with inflightTasks := [], cleanups := s.cleanups - 1 }

theorem step_effect {s t : State} {a : Action} (h : step s a = some t) : Effect s a t := by
  cases a with
  | submit taskId =>
      cases h
      exact .submitted taskId
  | start n first =>
      obtain ⟨r, hget, hstep⟩ := Option.bind_eq_some_iff.mp h
      obtain ⟨hphase, hstart⟩ := Option.ite_none_right_eq_some.mp hstep
      have hopen : r.unfinished = true := by simp [Runner.unfinished, hphase]
      cases hstart
      simp only [startRunner]
      split
      · exact .moved _ n r .finished hget hopen
      · split
        · exact .left _ n r hget hopen
        · exact .left _ n r hget hopen
        · exact .moved _ n r .running hget hopen
  | finish n =>
      obtain ⟨r, hget, hstep⟩ := Option.bind_eq_some_iff.mp h
      obtain ⟨hphase, hleave⟩ := Option.ite_none_right_eq_some.mp hstep
      cases hleave
      exact .left _ n r hget (by simp [Runner.unfinished, hphase])
  | requestCancel n =>
      obtain ⟨r, hget, hstep⟩ := Option.bind_eq_some_iff.mp h
      obtain ⟨-, hcancel⟩ := Option.ite_none_right_eq_some.mp hstep
      cases hcancel
      exact .cancelled n
  | cleanup =>
      cases h
      rw [startCleanup]
      split
      · next hempty => exact .idle (List.isEmpty_iff.mp hempty)
      · exact .swept
  | endWait =>
      obtain ⟨-, hclear⟩ := Option.ite_none_right_eq_some.mp h
      cases hclear
      exact .cleared

/-- The registry names runners under their own task id. -/
structure WellFormed (s : State) : Prop where
  nodup : (s.inflightTasks.map Prod.fst).Nodup
  names : ∀ (taskId : Text) (n : Nat), (taskId, n) ∈ s.inflightTasks →
    ∃ r, s.runners[n]? = some r ∧ r.taskId = taskId

theorem wellFormed_init : WellFormed {} := ⟨List.nodup_nil, fun _ _ h => by cases h⟩

theorem names_modify {s : State} {n m : Nat} {f : Runner → Runner} {taskId : Text}
    (hf : ∀ r, (f r).taskId = r.taskId)
    (h : ∃ r, s.runners[m]? = some r ∧ r.taskId = taskId) :
    ∃ r, (s.runners.modify n f)[m]? = some r ∧ r.taskId = taskId := by
  obtain ⟨r, hget, hname⟩ := h
  refine ⟨_, getElem?_modify_eq_some.mpr ⟨r, hget, rfl⟩, ?_⟩
  split
  · exact (hf r).trans hname
  · exact hname

/-- A cleanup changes no id and no phase. -/
theorem cancelInflight_getElem? {s : State} {n : Nat} {r : Runner} (h : s.runners[n]? = some r) :
    ∃ r', (cancelInflight s).runners[n]? = some r' ∧ r'.taskId = r.taskId ∧
      r'.unfinished = r.unfinished := by
  refine ⟨_, List.getElem?_mapIdx.trans (congrArg (Option.map _) h), ?_⟩
  dsimp only
  split
  · exact ⟨rfl, rfl⟩
  · exact ⟨rfl, rfl⟩

theorem Effect.wellFormed {s t : State} {a : Action} (h : Effect s a t) (hs : WellFormed s) :
    WellFormed t := by
  cases h with
  | submitted taskId =>
      refine ⟨Dict.nodup_put hs.nodup, fun k n hmem => ?_⟩
      cases Dict.mem_put hmem with
      | inl hnew =>
          obtain ⟨rfl, rfl⟩ := hnew
          exact ⟨_, List.getElem?_concat_length, rfl⟩
      | inr hold =>
          obtain ⟨r, hget, hname⟩ := hs.names k n hold.2
          refine ⟨r, ?_, hname⟩
          exact (List.getElem?_append_left (List.getElem?_eq_some_iff.mp hget).1).trans hget
  | left a n r hget hopen =>
      exact ⟨Dict.nodup_pop hs.nodup, fun k m hmem =>
        names_modify (fun _ => rfl) (hs.names k m (Dict.mem_pop.mp hmem).1)⟩
  | moved a n r phase hget hopen =>
      exact ⟨hs.nodup, fun k m hmem => names_modify (fun _ => rfl) (hs.names k m hmem)⟩
  | cancelled n =>
      exact ⟨hs.nodup, fun k m hmem => names_modify (fun _ => rfl) (hs.names k m hmem)⟩
  | idle => exact hs
  | swept =>
      refine ⟨hs.nodup, fun k m hmem => ?_⟩
      obtain ⟨r, hget, hname⟩ := hs.names k m hmem
      obtain ⟨r', hget', hsame, -⟩ := cancelInflight_getElem? hget
      exact ⟨r', hget', hsame.trans hname⟩
  | cleared => exact ⟨List.nodup_nil, fun k m hmem => by cases hmem⟩

theorem wellFormed_of_run {past : List Action} {s : State} (h : Run step {} past s) :
    WellFormed s :=
  h.invariant (I := fun _ s => WellFormed s) wellFormed_init
    fun _ _ _ _ hs hstep => (step_effect hstep).wellFormed hs

/-! ## What keeps the registry complete -/

/-- Each unfinished runner is the one registered under its id. -/
def Registered (s : State) : Prop :=
  ∀ (n : Nat) (r : Runner), s.runners[n]? = some r → r.unfinished = true →
    s.inflightTasks.lookup r.taskId = some n

theorem Registered.covered {s : State} (h : Registered s) : Covered s := by
  intro n r hget hopen
  have hmem : n ∈ s.inflightTasks.map Prod.snd :=
    List.mem_map_of_mem (Dict.mem_of_lookup (h n r hget hopen))
  have hregistered : s.inflightTasks.isEmpty = false := by
    cases hempty : s.inflightTasks with
    | nil =>
        rw [hempty] at hmem
        exact absurd hmem List.not_mem_nil
    | cons _ _ => rfl
  refine ⟨hmem, { r with cancelRequested := true }, ?_, rfl⟩
  rw [startCleanup, if_neg (by simp [hregistered])]
  simp [cancelInflight, List.getElem?_mapIdx, hget, hopen, hmem]

/-- A changed runner has the same id, and was unfinished if it is. -/
theorem registered_modify {s : State} {n : Nat} {f : Runner → Runner}
    (hf : ∀ r, s.runners[n]? = some r →
      (f r).taskId = r.taskId ∧ ((f r).unfinished = true → r.unfinished = true))
    (h : Registered s) (m : Nat) (r : Runner) (hget : (s.runners.modify n f)[m]? = some r)
    (hopen : r.unfinished = true) : s.inflightTasks.lookup r.taskId = some m := by
  obtain ⟨r', hget', rfl⟩ := getElem?_modify_eq_some.mp hget
  by_cases hn : n = m
  · subst hn
    rw [if_pos rfl] at hopen ⊢
    rw [(hf r' hget').1]
    exact h n r' hget' ((hf r' hget').2 hopen)
  · rw [if_neg hn] at hopen ⊢
    exact h m r' hget' hopen

/-- A submission under the id of a runner that has not finished, or the end of a cleanup's
wait before every runner has finished. -/
def Loses (s : State) : Action → Prop
  | .submit taskId => InUse taskId s
  | .endWait => ∃ r ∈ s.runners, r.unfinished = true
  | _ => False

theorem Effect.registered {s t : State} {a : Action} (h : Effect s a t) (hs : Registered s)
    (hkeeps : ¬ Loses s a) : Registered t := by
  cases h with
  | submitted taskId =>
      intro m r hget hopen
      cases getElem?_concat_eq_some hget with
      | inl hold =>
          have hne : r.taskId ≠ taskId := fun heq =>
            hkeeps ⟨r, List.mem_of_getElem? hold, heq, hopen⟩
          exact (Dict.lookup_put_of_ne hne).trans (hs m r hold hopen)
      | inr hnew =>
          obtain ⟨rfl, rfl⟩ := hnew
          exact Dict.lookup_put_self
  | left a n r hget hleft =>
      intro m r' hget' hopen
      have hold := registered_modify (f := fun r => { r with phase := .finished })
        (fun r _ => ⟨rfl, fun hfinished => absurd hfinished (not_unfinished rfl)⟩)
        hs m r' hget' hopen
      refine (Dict.lookup_pop_of_ne fun heq => ?_).trans hold
      -- the id would name `n`, which has finished
      rw [heq, hs n r hget hleft] at hold
      cases hold
      obtain ⟨_, -, rfl⟩ := getElem?_modify_eq_some.mp hget'
      rw [if_pos rfl] at hopen
      exact absurd hopen (not_unfinished rfl)
  | moved a n r phase hget hmoved =>
      refine registered_modify (fun r' hget' => ⟨rfl, fun _ => ?_⟩) hs
      rw [hget] at hget'
      cases hget'
      exact hmoved
  | cancelled n => exact registered_modify (fun _ _ => ⟨rfl, id⟩) hs
  | idle => exact hs
  | swept =>
      intro m r hget hopen
      obtain ⟨before, hbefore, -⟩ := Option.map_eq_some_iff.mp
        ((List.getElem?_mapIdx).symm.trans hget)
      obtain ⟨r', hget', hsame, hphase⟩ := cancelInflight_getElem? hbefore
      cases hget.symm.trans hget'
      rw [hsame]
      exact hs m before hbefore (hphase ▸ hopen)
  | cleared =>
      intro m r hget hopen
      exact absurd ⟨r, List.mem_of_getElem? hget, hopen⟩ hkeeps

/-- A second submission under the id of an unfinished runner takes its place. -/
theorem not_covered_of_inUse {s : State} {taskId : Text} (hs : WellFormed s)
    (huse : InUse taskId s) : ∀ t, step s (.submit taskId) = some t → ¬ Covered t := by
  rintro t ht hcovered
  cases ht
  obtain ⟨r, hmem, hname, hopen⟩ := huse
  obtain ⟨n, hget⟩ := List.mem_iff_getElem?.mp hmem
  have hlt : n < s.runners.length := (List.getElem?_eq_some_iff.mp hget).1
  have hget' : (s.runners ++ [{ taskId := taskId }])[n]? = some r :=
    (List.getElem?_append_left hlt).trans hget
  obtain ⟨⟨k, m⟩, hpair, hm⟩ := List.mem_map.mp (hcovered n r hget' hopen).1
  cases Dict.mem_put hpair with
  | inl hnew =>
      have hlast : n = s.runners.length := hm.symm.trans hnew.2
      exact absurd hlt (by omega)
  | inr hold =>
      obtain ⟨r', hr', hk⟩ := hs.names k m hold.2
      cases hm
      rw [hget] at hr'
      cases hr'
      exact hold.1 (hk.symm.trans hname)

/-- A wait that ends while a runner goes on drops it. -/
theorem not_covered_of_cleared {s t : State} (ht : step s .endWait = some t)
    (hopen : ∃ r ∈ s.runners, r.unfinished = true) : ¬ Covered t := by
  intro hcovered
  obtain ⟨-, hclear⟩ := Option.ite_none_right_eq_some.mp ht
  cases hclear
  obtain ⟨r, hmem, hunfinished⟩ := hopen
  obtain ⟨n, hget⟩ := List.mem_iff_getElem?.mp hmem
  exact absurd (hcovered n r hget hunfinished).1 List.not_mem_nil

/-- The registry is complete all along a run exactly if no submission took the id of a
runner that had not finished, and every runner had finished when the wait of a cleanup
ended. -/
theorem inflight_covered_iff (past : List Action) :
    (∀ before t, before <+: past → Run step {} before t → Covered t) ↔
      ∀ before t a u, before ++ [a] <+: past → Run step {} before t → step t a = some u →
        ¬ Loses t a := by
  constructor
  · intro hcovered before t a u hbefore ht hstep hloses
    have hafter := hcovered _ _ hbefore (.snoc ht hstep)
    cases a with
    | submit taskId => exact not_covered_of_inUse (wellFormed_of_run ht) hloses u hstep hafter
    | endWait => exact not_covered_of_cleared hstep hloses hafter
    | start _ _ | finish _ | requestCancel _ | cleanup => exact hloses
  · intro hkeeps before t hbefore ht
    refine Registered.covered ?_
    induction ht with
    | nil => exact fun n r hget _ => by cases hget
    | snoc ht hstep ih =>
        exact (step_effect hstep).registered (ih ((List.prefix_append _ _).trans hbefore))
          (hkeeps _ _ _ _ hbefore ht hstep)

/-- Two runners under one id, and the first ends: nothing is registered any more. Nor is a
runner that was submitted while a cleanup waited. -/
theorem inflight_erased :
    (∃ s, Run step {} [.submit ['t'], .start 0 .suspended, .submit ['t'], .start 1 .suspended,
        .finish 0] s ∧ ¬ Covered s) ∧
    ∃ s, Run step {} [.submit ['t'], .start 0 .suspended, .cleanup, .submit ['u'], .finish 0,
        .endWait] s ∧ ¬ Covered s := by
  refine ⟨⟨_, Run.of_foldlM rfl, fun hcovered => ?_⟩, ⟨_, Run.of_foldlM rfl, fun hcovered => ?_⟩⟩
  · exact absurd (hcovered 1 ⟨['t'], .running, false⟩ rfl rfl).1 (by decide)
  · exact absurd (hcovered 1 ⟨['u'], .created, false⟩ rfl rfl).1 (by decide)

end DualeAI.Inflight
