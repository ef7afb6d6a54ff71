import DualeAI.Foundation.Indexed
import DualeAI.Foundation.Steps

/-!
The lazily loaded result of an `AgentResponse`.

Callers of `cache_hit`, `llm_metrics` and `model` share one task and one flag. An
action is what the event loop runs between two suspensions. Cancelling a caller that
awaits the task cancels the task while it runs, which ends as it likes; once the task
is done, the caller itself is cancelled when it is resumed. `R` is what an
`LLMResult` holds, `cacheHit` its field of that name.
-/
namespace DualeAI.Loading
open Foundation

inductive Kind where
  | cacheHit
  | llmMetrics
  | model
deriving DecidableEq

/-- How the task ended. A terminal event may be a completion with an `LLMResult`. -/
inductive TaskEnd (R : Type) where
  | terminal (result : Option R)
  | failed
  | cancelled

/-- What a call returns. `model` has an outcome of its own. -/
inductive Answer (R : Type) where
  | cacheHit (value : Option Bool)
  | metrics (value : Option R)
  | model

/-- Where a caller stands: queued for the lock, at `await self.task` with the lock or
in `model`, or at its end. -/
inductive Phase (R : Type) where
  | acquiring
  | loading
  | awaiting
  | returned (answer : Answer R)
  | raised

structure Caller (R : Type) where
  kind : Kind
  phase : Phase R
  cancelRequested : Bool := false

structure Response (R : Type) where
  task : Option (TaskEnd R) := none
  llmResult : Option R := none
  llmResultLoaded : Bool := false
  /-- `_llm_result_lock` while its holder is suspended. -/
  locked : Bool := false

inductive Action (R : Type) where
  /-- A new call, which may find others in the queue of the lock. -/
  | call (kind : Kind) (queued : Bool)
  | endTask (taskEnd : TaskEnd R)
  | cancel (i : Nat)
  | resume (i : Nat)

def TaskEnd.isCancelled {R : Type} : TaskEnd R → Bool
  | .cancelled => true
  | _ => false

section Calls
variable {R : Type} (cacheHit : R → Option Bool)

namespace Response

def answer (r : Response R) : Kind → Answer R
  | .cacheHit => .cacheHit (r.llmResult.bind cacheHit)
  | .llmMetrics => .metrics r.llmResult
  | .model => .model

/-- `_unwrap_llm_result`, as far as it changes the response. -/
def unwrap (r : Response R) (result : R) : Response R :=
  { r with llmResult := some result, llmResultLoaded := true }

def store (r : Response R) : TaskEnd R → Response R
  | .terminal (some result) => r.unwrap result
  | _ => r

/-- The loader from `await self.task` on, where a cancelled one is thrown out. -/
def finishLoad (r : Response R) (kind : Kind) (cancelled : Bool) (taskEnd : TaskEnd R) :
    Response R × Phase R :=
  let loaded := if cancelled then r else r.store taskEnd
  let released := { loaded with llmResultLoaded := true, locked := false }
  (released,
    if cancelled || taskEnd.isCancelled then .raised
    else .returned (released.answer cacheHit kind))

/-- The body of the lock. -/
def enterLock (r : Response R) (kind : Kind) : Response R × Phase R :=
  if r.llmResultLoaded then (r, .returned (r.answer cacheHit kind))
  else
    match r.task with
    | some taskEnd => r.finishLoad cacheHit kind false taskEnd
    | none => ({ r with locked := true }, .loading)

/-- `model` from its await on. -/
def finishModel (r : Response R) (cancelled : Bool) (taskEnd : TaskEnd R) :
    Response R × Phase R :=
  match cancelled, taskEnd with
  | false, .terminal _ => (r.store taskEnd, .returned .model)
  | _, _ => (r, .raised)

/-- A call up to its first suspension. -/
def start (r : Response R) (kind : Kind) (queued : Bool) : Response R × Phase R :=
  match kind with
  | .model =>
      match r.task with
      | some taskEnd => r.finishModel false taskEnd
      | none => (r, .awaiting)
  | kind =>
      if r.llmResultLoaded then (r, .returned (r.answer cacheHit kind))
      else if r.locked || queued then (r, .acquiring)
      else r.enterLock cacheHit kind

/-- A caller from where it is suspended to its next suspension, once it can go on. -/
def resume (r : Response R) (c : Caller R) : Option (Response R × Phase R) :=
  match c.phase with
  | .acquiring =>
      if c.cancelRequested then some (r, .raised)
      else if r.locked then none
      else some (r.enterLock cacheHit c.kind)
  | .loading => r.task.map (r.finishLoad cacheHit c.kind c.cancelRequested)
  | .awaiting => r.task.map (r.finishModel c.cancelRequested)
  | _ => none

/-- `Task.cancel` on a caller. -/
def cancel (r : Response R) (c : Caller R) : Caller R :=
  match c.phase with
  | .acquiring => { c with cancelRequested := true }
  | .loading | .awaiting => { c with cancelRequested := c.cancelRequested || r.task.isSome }
  | _ => c

end Response

structure State (R : Type) where
  response : Response R := {}
  callers : List (Caller R) := []

/-- A caller that cannot go on stays where it is. -/
def step (s : State R) : Action R → State R
  | .call kind queued =>
      let (response, phase) := s.response.start cacheHit kind queued
      ⟨response, s.callers ++ [{ kind := kind, phase := phase }]⟩
  | .endTask taskEnd =>
      if s.response.task.isSome then s
      else { s with response := { s.response with task := some taskEnd } }
  | .cancel i => { s with callers := s.callers.modify i s.response.cancel }
  | .resume i =>
      match s.callers[i]? with
      | none => s
      | some c =>
          match s.response.resume cacheHit c with
          | none => s
          | some (response, phase) => ⟨response, s.callers.set i { c with phase := phase }⟩

/-! ## When metrics are available -/

/-- What `llm_metrics` has returned are the metrics of the task's result. -/
def Answers (s : State R) : Prop :=
  ∀ result, s.response.task = some (.terminal (some result)) →
    ∀ c ∈ s.callers, ∀ value, c.phase = .returned (.metrics value) → value = some result

/-- And a call that is made now returns nothing else at once. -/
def Available (s : State R) : Prop :=
  Answers s ∧ ∀ queued, Answers (step cacheHit s (.call .llmMetrics queued))

/-- A loader is resumed with a pending cancellation although the task has completed
with a result, which nobody has stored. -/
def Slips (s : State R) (a : Action R) : Prop :=
  ∃ i c result, a = .resume i ∧ s.callers[i]? = some c ∧ c.phase = .loading ∧
    c.cancelRequested = true ∧ s.response.task = some (.terminal (some result)) ∧
    s.response.llmResult = none

variable {cacheHit} {r : Response R} {s : State R} {a : Action R} {c : Caller R}
  {kind : Kind}

/-! ## One stretch of a caller -/

/-- The flag and the stored result tell of the task's result. -/
structure Response.Sound (r : Response R) : Prop where
  running : r.task = none → r.llmResultLoaded = false ∧ r.llmResult = none
  stored : ∀ result value, r.task = some (.terminal (some result)) → r.llmResult = some value →
    value = result
  loaded : ∀ result, r.task = some (.terminal (some result)) → r.llmResultLoaded = true →
    r.llmResult = some result

/-- Metrics are only returned once the task is done, and are those of its result. -/
def Answered (r : Response R) (phase : Phase R) : Prop :=
  ∀ value, phase = .returned (.metrics value) →
    r.task ≠ none ∧ ∀ result, r.task = some (.terminal (some result)) → value = some result

/-- What a stretch makes of the response. -/
structure Keeps (r : Response R) (stretch : Response R × Phase R) : Prop where
  sound : stretch.1.Sound
  task : stretch.1.task = r.task
  answered : Answered stretch.1 stretch.2

theorem answered_answer (hr : r.Sound) (hloaded : r.llmResultLoaded = true) (kind : Kind) :
    Answered r (.returned (r.answer cacheHit kind)) := by
  intro value hvalue
  cases kind with
  | cacheHit => cases hvalue
  | model => cases hvalue
  | llmMetrics =>
      cases hvalue
      refine ⟨fun hnone => ?_, fun result hresult => hr.loaded result hresult hloaded⟩
      rw [(hr.running hnone).1] at hloaded
      cases hloaded

theorem keeps_same (hr : r.Sound) {phase : Phase R} (h : ∀ answer, phase ≠ .returned answer) :
    Keeps r (r, phase) where
  sound := hr
  task := rfl
  answered := fun _ hvalue => absurd hvalue (h _)

/-- With the result stored, or none to store, the flag may be set. -/
theorem sound_loaded (hr : r.Sound) (hdone : r.task ≠ none)
    (hstored : ∀ result, r.task = some (.terminal (some result)) → r.llmResult = some result)
    (locked : Bool) : Response.Sound { r with llmResultLoaded := true, locked := locked } where
  running := fun hnone => absurd hnone hdone
  stored := hr.stored
  loaded := fun result hresult _ => hstored result hresult

theorem store_spec (hr : r.Sound) {taskEnd : TaskEnd R} (htask : r.task = some taskEnd) :
    (r.store taskEnd).Sound ∧ (r.store taskEnd).task = r.task ∧
      ∀ result, r.task = some (.terminal (some result)) →
        (r.store taskEnd).llmResult = some result := by
  rw [htask]
  cases taskEnd with
  | terminal result =>
      cases result with
      | none => exact ⟨hr, htask, fun _ h => by cases h⟩
      | some result =>
          refine ⟨⟨fun hnone => ?_, fun result' value hresult hvalue => ?_,
            fun result' hresult _ => ?_⟩, htask, fun result' hresult => ?_⟩
          · exact absurd (htask.symm.trans hnone) (Option.some_ne_none _)
          · cases hvalue
            cases htask.symm.trans hresult
            rfl
          · cases htask.symm.trans hresult
            rfl
          · cases hresult
            rfl
  | failed => exact ⟨hr, htask, fun _ h => by cases h⟩
  | cancelled => exact ⟨hr, htask, fun _ h => by cases h⟩

theorem keeps_finishLoad (hr : r.Sound) {taskEnd : TaskEnd R} (htask : r.task = some taskEnd)
    {cancelled : Bool} (h : cancelled = true →
      ∀ result, r.task = some (.terminal (some result)) → r.llmResult ≠ none) (kind : Kind) :
    Keeps r (r.finishLoad cacheHit kind cancelled taskEnd) := by
  have hdone : r.task ≠ none := by
    rw [htask]
    exact Option.some_ne_none _
  obtain ⟨hsound, hkept, hstored⟩ := store_spec hr htask
  cases cancelled with
  | true =>
      refine ⟨sound_loaded hr hdone (fun result hresult => ?_) false, rfl, fun _ hvalue => ?_⟩
      · obtain ⟨value, hvalue⟩ := Option.ne_none_iff_exists'.mp (h rfl result hresult)
        rw [hvalue, hr.stored result value hresult hvalue]
      · cases hvalue
  | false =>
      have hreleased : Response.Sound
          { r.store taskEnd with llmResultLoaded := true, locked := false } :=
        sound_loaded hsound (hkept ▸ hdone) (fun result hresult => hstored result (hkept ▸ hresult))
          false
      refine ⟨hreleased, hkept, ?_⟩
      rw [Response.finishLoad, Bool.false_or]
      cases taskEnd.isCancelled with
      | true => exact fun _ hvalue => by cases hvalue
      | false => exact answered_answer hreleased rfl kind

theorem keeps_enterLock (hr : r.Sound) (kind : Kind) : Keeps r (r.enterLock cacheHit kind) := by
  rw [Response.enterLock]
  split
  · next hloaded => exact ⟨hr, rfl, answered_answer hr hloaded kind⟩
  · split
    · next taskEnd htask =>
        exact keeps_finishLoad hr htask (fun h => by cases h) kind
    · next htask =>
        exact ⟨⟨hr.running, hr.stored, hr.loaded⟩, rfl, fun _ hvalue => by cases hvalue⟩

theorem keeps_finishModel (hr : r.Sound) {taskEnd : TaskEnd R} (htask : r.task = some taskEnd)
    (cancelled : Bool) : Keeps r (r.finishModel cancelled taskEnd) := by
  have hraised : Keeps r (r, .raised) := keeps_same hr fun _ h => by cases h
  cases cancelled with
  | true => exact hraised
  | false =>
      cases taskEnd with
      | terminal result =>
          obtain ⟨hsound, hkept, -⟩ := store_spec hr htask
          exact ⟨hsound, hkept, fun _ hvalue => by cases hvalue⟩
      | failed => exact hraised
      | cancelled => exact hraised

/-- `cache_hit` and `llm_metrics` up to their first suspension. -/
theorem start_loader (hkind : kind ≠ .model) (queued : Bool) :
    r.start cacheHit kind queued =
      if r.llmResultLoaded then (r, .returned (r.answer cacheHit kind))
      else if r.locked || queued then (r, .acquiring) else r.enterLock cacheHit kind := by
  cases kind with
  | model => exact absurd rfl hkind
  | cacheHit => rfl
  | llmMetrics => rfl

theorem keeps_start (cacheHit : R → Option Bool) (hr : r.Sound) (kind : Kind) (queued : Bool) :
    Keeps r (r.start cacheHit kind queued) := by
  have hload (hkind : kind ≠ .model) : Keeps r (r.start cacheHit kind queued) := by
    rw [start_loader hkind]
    split
    · next hloaded => exact ⟨hr, rfl, answered_answer hr hloaded kind⟩
    · split
      · exact keeps_same hr fun _ h => by cases h
      · exact keeps_enterLock hr kind
  cases kind with
  | cacheHit => exact hload (by decide)
  | llmMetrics => exact hload (by decide)
  | model =>
      rw [Response.start]
      split
      · next taskEnd htask => exact keeps_finishModel hr htask false
      · exact keeps_same hr fun _ h => by cases h

theorem keeps_resume (hr : r.Sound) {stretch : Response R × Phase R}
    (h : c.phase = .loading → c.cancelRequested = true →
      ∀ result, r.task = some (.terminal (some result)) → r.llmResult ≠ none)
    (hresume : r.resume cacheHit c = some stretch) : Keeps r stretch := by
  rw [Response.resume] at hresume
  split at hresume
  · split at hresume
    · cases hresume
      exact keeps_same hr fun _ h => by cases h
    · split at hresume
      · cases hresume
      · cases hresume
        exact keeps_enterLock hr c.kind
  · next hphase =>
      obtain ⟨taskEnd, htask, rfl⟩ := Option.map_eq_some_iff.mp hresume
      exact keeps_finishLoad hr htask (h hphase) c.kind
  · obtain ⟨taskEnd, htask, rfl⟩ := Option.map_eq_some_iff.mp hresume
    exact keeps_finishModel hr htask c.cancelRequested
  · cases hresume

/-! ## Runs -/

structure Consistent (s : State R) : Prop where
  sound : s.response.Sound
  answered : ∀ c ∈ s.callers, Answered s.response c.phase

theorem Answered.of_task {r' : Response R} {phase : Phase R} (h : Answered r phase)
    (htask : r'.task = r.task) : Answered r' phase := by
  intro value hvalue
  rw [htask]
  exact h value hvalue

theorem consistent_initial : Consistent ({} : State R) where
  sound := ⟨fun _ => ⟨rfl, rfl⟩, fun _ _ h => (by cases h), fun _ h => (by cases h)⟩
  answered := fun _ hmem => absurd hmem List.not_mem_nil

theorem Consistent.call (hs : Consistent s) (kind : Kind) (queued : Bool) :
    Consistent (step cacheHit s (.call kind queued)) := by
  have hkeeps := keeps_start cacheHit hs.sound kind queued
  refine ⟨hkeeps.sound, fun c hmem => ?_⟩
  cases List.mem_append.mp hmem with
  | inl hold => exact (hs.answered c hold).of_task hkeeps.task
  | inr hnew =>
      rw [List.mem_singleton.mp hnew]
      exact hkeeps.answered

theorem Consistent.endTask (hs : Consistent s) (taskEnd : TaskEnd R) :
    Consistent (step cacheHit s (.endTask taskEnd)) := by
  rw [step]
  split
  · exact hs
  · next hrunning =>
      have hnone := Option.not_isSome_iff_eq_none.mp hrunning
      obtain ⟨hloaded, hresult⟩ := hs.sound.running hnone
      refine ⟨⟨fun h => (by cases h), fun result value _ hvalue => ?_, fun result _ h => ?_⟩,
        fun c hmem value hvalue => ?_⟩
      · cases hresult.symm.trans hvalue
      · cases hloaded.symm.trans h
      · exact absurd hnone (hs.answered c hmem value hvalue).1

theorem Consistent.cancel (hs : Consistent s) (i : Nat) :
    Consistent (step cacheHit s (.cancel i)) := by
  refine ⟨hs.sound, forall_mem_modify hs.answered fun c hget => ?_⟩
  have hphase : (s.response.cancel c).phase = c.phase := by
    rw [Response.cancel]
    split <;> rfl
  rw [hphase]
  exact hs.answered c (List.mem_of_getElem? hget)

theorem Consistent.resume (hs : Consistent s) {i : Nat} (h : ¬ Slips s (.resume i)) :
    Consistent (step cacheHit s (.resume i)) := by
  rw [step]
  split
  · exact hs
  · next c hget =>
      split
      · exact hs
      · next response phase hresume =>
          have hkeeps := keeps_resume hs.sound (fun hphase hcancel result hresult hnone =>
            h ⟨i, c, result, rfl, hget, hphase, hcancel, hresult, hnone⟩) hresume
          refine ⟨hkeeps.sound, forall_mem_set (fun other hmem => ?_) hkeeps.answered⟩
          exact (hs.answered other hmem).of_task hkeeps.task

theorem Consistent.step (hs : Consistent s) (h : ¬ Slips s a) :
    Consistent (step cacheHit s a) := by
  cases a with
  | call kind queued => exact hs.call kind queued
  | endTask taskEnd => exact hs.endTask taskEnd
  | cancel i => exact hs.cancel i
  | resume i => exact hs.resume h

theorem Consistent.answers (hs : Consistent s) : Answers s :=
  fun result hresult c hmem value hvalue => (hs.answered c hmem value hvalue).2 result hresult

theorem Consistent.available (hs : Consistent s) : Available cacheHit s :=
  ⟨hs.answers, fun queued => (hs.call .llmMetrics queued).answers⟩

/-- After a slip the flag is set without a result, and the next call returns none. -/
theorem not_available_of_slips (h : Slips s a) : ¬ Available cacheHit (step cacheHit s a) := by
  obtain ⟨i, c, result, rfl, hget, hphase, hcancel, htask, hnone⟩ := h
  intro havailable
  have hresume : s.response.resume cacheHit c =
      some ({ s.response with llmResultLoaded := true, locked := false }, .raised) := by
    calc s.response.resume cacheHit c
        = s.response.task.map (s.response.finishLoad cacheHit c.kind c.cancelRequested) := by
          simp only [Response.resume, hphase]
      _ = some (s.response.finishLoad cacheHit c.kind true (.terminal (some result))) := by
          rw [htask, hcancel, Option.map_some]
      _ = some ({ s.response with llmResultLoaded := true, locked := false }, .raised) := rfl
  have hstep : DualeAI.Loading.step cacheHit s (.resume i) =
      ⟨{ s.response with llmResultLoaded := true, locked := false },
        s.callers.set i { c with phase := .raised }⟩ := by
    rw [DualeAI.Loading.step]
    simp only [hget, hresume]
  rw [hstep] at havailable
  have hreturned := havailable.2 false result htask _
    (List.mem_append_right _ (List.mem_singleton_self _)) none (by
      rw [← hnone]
      rfl)
  cases hreturned

/-! ## Calls that wait return -/

/-- The lock is held by a loader. -/
def Held (s : State R) : Prop :=
  s.response.locked = true → ∃ (i : Nat) (c : Caller R), s.callers[i]? = some c ∧ c.phase = .loading

theorem locked_store (r : Response R) (taskEnd : TaskEnd R) :
    (r.store taskEnd).locked = r.locked := by
  cases taskEnd with
  | terminal result => cases result <;> rfl
  | failed => rfl
  | cancelled => rfl

theorem locked_enterLock (h : (r.enterLock cacheHit kind).1.locked = true) :
    r.locked = true ∨ (r.enterLock cacheHit kind).2 = .loading := by
  rw [Response.enterLock] at h ⊢
  split at h
  · next hloaded => exact .inl h
  · next hunloaded =>
      rw [if_neg hunloaded]
      split at h
      · cases h
      · exact .inr rfl

theorem locked_finishModel {taskEnd : TaskEnd R} {cancelled : Bool} :
    (r.finishModel cancelled taskEnd).1.locked = r.locked := by
  cases cancelled with
  | true => rfl
  | false =>
      cases taskEnd with
      | terminal result => exact locked_store r _
      | failed => rfl
      | cancelled => rfl

theorem locked_start {queued : Bool} (h : (r.start cacheHit kind queued).1.locked = true) :
    r.locked = true ∨ (r.start cacheHit kind queued).2 = .loading := by
  have hload (hkind : kind ≠ .model) :
      r.locked = true ∨ (r.start cacheHit kind queued).2 = .loading := by
    rw [start_loader hkind] at h ⊢
    by_cases hloaded : r.llmResultLoaded = true
    · rw [if_pos hloaded] at h
      exact .inl h
    · by_cases hqueued : (r.locked || queued) = true
      · rw [if_neg hloaded, if_pos hqueued] at h
        exact .inl h
      · rw [if_neg hloaded, if_neg hqueued] at h ⊢
        exact locked_enterLock h
  cases kind with
  | cacheHit => exact hload (by decide)
  | llmMetrics => exact hload (by decide)
  | model =>
      rw [Response.start] at h
      split at h
      · rw [locked_finishModel] at h
        exact .inl h
      · exact .inl h

/-- A loader gives the lock back when it is resumed. -/
theorem locked_resume {stretch : Response R × Phase R}
    (hresume : r.resume cacheHit c = some stretch)
    (h : stretch.1.locked = true) :
    r.locked = true ∧ c.phase ≠ .loading ∨ stretch.2 = .loading := by
  rw [Response.resume] at hresume
  split at hresume
  · next hphase =>
      rw [hphase]
      have hne : (Phase.acquiring : Phase R) ≠ .loading := fun heq => by cases heq
      split at hresume
      · cases hresume
        exact .inl ⟨h, hne⟩
      · split at hresume
        · cases hresume
        · cases hresume
          cases locked_enterLock h with
          | inl hlocked => exact .inl ⟨hlocked, hne⟩
          | inr hloading => exact .inr hloading
  · obtain ⟨taskEnd, -, rfl⟩ := Option.map_eq_some_iff.mp hresume
    cases h
  · next hphase =>
      obtain ⟨taskEnd, -, rfl⟩ := Option.map_eq_some_iff.mp hresume
      rw [locked_finishModel] at h
      rw [hphase]
      exact .inl ⟨h, fun heq => by cases heq⟩
  · cases hresume

theorem held_step (hs : Held s) (a : Action R) : Held (step cacheHit s a) := by
  cases a with
  | call kind queued =>
      intro hlocked
      cases locked_start hlocked with
      | inl hbefore =>
          obtain ⟨i, c, hget, hphase⟩ := hs hbefore
          refine ⟨i, c, ?_, hphase⟩
          have hlt := (List.getElem?_eq_some_iff.mp hget).1
          rw [← hget]
          exact List.getElem?_append_left hlt
      | inr hloading => exact ⟨s.callers.length, _, List.getElem?_concat_length, hloading⟩
  | endTask taskEnd =>
      rw [step]
      split
      · exact hs
      · exact hs
  | cancel i =>
      intro hlocked
      obtain ⟨j, c, hget, hphase⟩ := hs hlocked
      refine ⟨j, _, getElem?_modify_eq_some.mpr ⟨c, hget, rfl⟩, ?_⟩
      split
      · rw [Response.cancel, hphase]
      · exact hphase
  | resume i =>
      rw [step]
      split
      · exact hs
      · next c hget =>
          split
          · exact hs
          · next response phase hresume =>
              intro hlocked
              have hlt := (List.getElem?_eq_some_iff.mp hget).1
              cases locked_resume hresume hlocked with
              | inl hbefore =>
                  obtain ⟨j, holder, hholder, hphase⟩ := hs hbefore.1
                  have hne : i ≠ j := by
                    intro heq
                    rw [heq, hholder] at hget
                    cases hget
                    exact hbefore.2 hphase
                  refine ⟨j, holder, ?_, hphase⟩
                  rw [← hholder]
                  exact List.getElem?_set_ne hne
              | inr hloading =>
                  exact ⟨i, _, List.getElem?_set_self hlt, hloading⟩

theorem held_of_run (actions : List (Action R)) :
    Held (actions.foldl (step cacheHit) ({} : State R)) := by
  induction actions using List.reverseRecOn with
  | nil => exact fun h => by cases h
  | append_singleton actions a ih =>
      rw [List.foldl_append]
      exact held_step ih a

theorem enterLock_returns (cacheHit : R → Option Bool) {result : Option R}
    (htask : r.task = some (.terminal result)) :
    ∃ response value, r.enterLock cacheHit .llmMetrics =
      (response, .returned (.metrics value)) := by
  rw [Response.enterLock]
  split
  · exact ⟨_, _, rfl⟩
  · simp only [htask]
    exact ⟨_, _, rfl⟩

theorem resume_returns (cacheHit : R → Option Bool) {result : Option R}
    (htask : r.task = some (.terminal result))
    (hkind : c.kind = .llmMetrics) (hgoesOn : c.cancelRequested = false)
    (hphase : c.phase = .loading ∨ c.phase = .acquiring ∧ r.locked = false) :
    ∃ response value, r.resume cacheHit c = some (response, .returned (.metrics value)) := by
  cases hphase with
  | inl hloading =>
      simp only [Response.resume, hloading, htask, hgoesOn, hkind, Option.map_some]
      exact ⟨_, _, rfl⟩
  | inr hacquiring =>
      obtain ⟨hacquiring, hfree⟩ := hacquiring
      obtain ⟨response, value, henter⟩ := enterLock_returns cacheHit htask
      simp only [Response.resume, hacquiring, hgoesOn, hfree, Bool.false_eq_true, if_false, hkind,
        henter]
      exact ⟨_, _, rfl⟩

/-- Once the task has ended with a terminal event, a waiting call of `llm_metrics` is
at most one loader and its own resumption away from its return. -/
theorem waiting_returns (hs : Held s) {result : Option R}
    (htask : s.response.task = some (.terminal result)) {i : Nat}
    (hget : s.callers[i]? = some c) (hkind : c.kind = .llmMetrics)
    (hgoesOn : c.cancelRequested = false) (hphase : c.phase = .loading ∨ c.phase = .acquiring) :
    ∃ more : List Nat, more.length ≤ 2 ∧ ∃ c' value,
      ((more.map Action.resume).foldl (step cacheHit) s).callers[i]? = some c' ∧
        c'.phase = .returned (.metrics value) := by
  have hown (t : State R) (htask : t.response.task = some (.terminal result))
      (hget : t.callers[i]? = some c)
      (hready : c.phase = .loading ∨ c.phase = .acquiring ∧ t.response.locked = false) :
      ∃ c' value, (step cacheHit t (.resume i)).callers[i]? = some c' ∧
        c'.phase = .returned (.metrics value) := by
    obtain ⟨response, value, hresume⟩ :=
      resume_returns cacheHit htask hkind hgoesOn hready
    have hlt := (List.getElem?_eq_some_iff.mp hget).1
    rw [step]
    simp only [hget, hresume]
    exact ⟨_, value, List.getElem?_set_self hlt, rfl⟩
  by_cases hready : c.phase = .loading ∨ c.phase = .acquiring ∧ s.response.locked = false
  · exact ⟨[i], Nat.le_succ 1, hown s htask hget hready⟩
  · have hacquiring : c.phase = .acquiring ∧ s.response.locked = true := by
      cases hphase with
      | inl hloading => exact absurd (.inl hloading) hready
      | inr hacquiring =>
          refine ⟨hacquiring, ?_⟩
          cases hlocked : s.response.locked with
          | false => exact absurd (.inr ⟨hacquiring, hlocked⟩) hready
          | true => rfl
    obtain ⟨j, holder, hholder, hloading⟩ := hs hacquiring.2
    have hne : j ≠ i := by
      intro heq
      rw [heq, hget] at hholder
      cases hholder
      cases hloading.symm.trans hacquiring.1
    -- the loader that holds the lock goes first
    have hresume : s.response.resume cacheHit holder = some (s.response.finishLoad cacheHit
        holder.kind holder.cancelRequested (.terminal result)) := by
      simp only [Response.resume, hloading, htask, Option.map_some]
    have hstep : step cacheHit s (.resume j) =
        ⟨(s.response.finishLoad cacheHit holder.kind holder.cancelRequested
            (.terminal result)).1,
          s.callers.set j { holder with phase := (s.response.finishLoad cacheHit holder.kind
            holder.cancelRequested (.terminal result)).2 }⟩ := by
      rw [step]
      simp only [hholder, hresume]
    have hkept : (step cacheHit s (.resume j)).response.task = some (.terminal result) := by
      rw [hstep, Response.finishLoad]
      cases holder.cancelRequested with
      | true => exact htask
      | false => cases result <;> exact htask
    have hfree : (step cacheHit s (.resume j)).response.locked = false := by
      rw [hstep]
      rfl
    have hstill : (step cacheHit s (.resume j)).callers[i]? = some c := by
      rw [hstep]
      exact (List.getElem?_set_ne hne).trans hget
    exact ⟨[j, i], Nat.le_refl 2, hown _ hkept hstill (.inr ⟨hacquiring.1, hfree⟩)⟩

/-- Metrics are available in all states of a run exactly if no step of it slips: once
the task has completed with a result, no call of `llm_metrics` returns anything else.
And once the task has ended with a terminal event, a call that waits and is not
cancelled returns when the loader before it and then it are resumed. -/
theorem metrics_available_iff (cacheHit : R → Option Bool) (actions : List (Action R)) :
    (AllSteps (step cacheHit) (fun s a => Available cacheHit (step cacheHit s a)) {} actions ↔
      AllSteps (step cacheHit) (fun s a => ¬ Slips s a) {} actions) ∧
    ∀ (result : Option R) (i : Nat) (c : Caller R),
      let s := actions.foldl (step cacheHit) {}
      s.response.task = some (.terminal result) → s.callers[i]? = some c →
      c.kind = .llmMetrics → c.cancelRequested = false →
      (c.phase = .loading ∨ c.phase = .acquiring) →
      ∃ more : List Nat, more.length ≤ 2 ∧ ∃ c' value,
        ((more.map Action.resume).foldl (step cacheHit) s).callers[i]? = some c' ∧
          c'.phase = .returned (.metrics value) := by
  constructor
  · refine AllSteps.iff_of_invariant (I := Consistent) (fun s a hs => ?_)
      (fun s a hs h => hs.step h) consistent_initial
    constructor
    · intro havailable hslips
      exact not_available_of_slips hslips havailable
    · intro h
      exact (hs.step h).available
  · intro result i c s htask hget hkind hgoesOn hphase
    exact waiting_returns (held_of_run actions) htask hget hkind hgoesOn hphase

end Calls

/-- A caller is cancelled after the task has completed and before it is resumed. The next
call finds the flag set and no metrics. -/
theorem metrics_lost :
    let actions : List (Action Nat) := [.call .llmMetrics false, .endTask (.terminal (some 7)),
      .cancel 0, .resume 0, .call .llmMetrics false]
    let s := actions.foldl (step fun _ => none) {}
    s.response.task = some (.terminal (some 7)) ∧
      s.callers.map Caller.phase = [.raised, .returned (.metrics none)] ∧
      ¬ AllSteps (step fun _ => none)
        (fun s a => Available (fun _ => none) (step (fun _ => none) s a)) {} actions := by
  refine ⟨rfl, rfl, fun h => ?_⟩
  have hlost := h.2.2.2.2.1.1 7 rfl _ (List.mem_cons_of_mem _ List.mem_cons_self) none rfl
  cases hlost

end DualeAI.Loading
