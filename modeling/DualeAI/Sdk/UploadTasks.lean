import DualeAI.Foundation.AsyncSemaphore
import DualeAI.Foundation.TaskTree
import DualeAI.Sdk.UploadBatch

/-!
The tasks of `upload_attachments_to_library`, and the semaphore of its part uploads.

The batch gathers its workers; a worker gathers the digest and the parts of its
attachment, and the parts gather one task for each part. Every `gather` is written the
same way: where it raises, the tasks are cancelled and awaited. A part asks for a
permit before each of its attempts and gives it back where the attempt ends. Whoever
awaits the batch may be cancelled at any time and any number of times.
-/
namespace DualeAI.UploadTasks
open Foundation

/-- `creating` tells the second call of a worker from its first one. -/
inductive Job where
  | batch
  | worker (creating : Bool)
  | digest
  | parts (count : Nat)
  | part (attempt : Nat)

structure State where
  tasks : List (TreeTask Job)
  semaphore : AsyncSemaphore
  /-- How far the iterator over the attachments is. -/
  next : Nat := 0

inductive PutReply where
  | uploaded
  | retryable
  | refused

inductive Action where
  /-- The first step of a task. -/
  | start (i : Nat)
  /-- `create_document_upload` returns an upload of so many parts. -/
  | respond (i count : Nat)
  /-- `create_library_document` returns. -/
  | receive (i : Nat)
  /-- A call of a worker, or a read of the file, raises. -/
  | fail (i : Nat)
  | digested (i : Nat)
  | settle (i : Nat)
  | resume (i : Nat)
  | drain (i : Nat)
  /-- The task goes on behind the await of `acquire()`. -/
  | wake (i : Nat)
  | reply (i : Nat) (reply : PutReply)
  /-- The wait before the next attempt is over. -/
  | retry (i : Nat)
  | cancel

def maxAttempts : Nat := 5

def maxConcurrentUploads : Nat := Attachments.Batch.maxConcurrentUploads

/-- The batch at its `gather`. -/
def initial (total : Nat) : State :=
  let crew := min maxConcurrentUploads total
  { tasks := { job := .batch, phase := .gathering (List.range' 1 crew) false } ::
      List.replicate crew { job := .worker false, parent := some 0 }
    semaphore := AsyncSemaphore.joinMany (crew + 1) { value := maxConcurrentUploads } }

namespace State

def run (i : Nat) (stretch : Stretch Job) (s : State) : Option State :=
  (TaskTree.run i stretch s.tasks).map fun tasks => { s with tasks := tasks }

/-- The new tasks have not asked for a permit. -/
def gather (i : Nat) (job : Job) (jobs : List Job) (s : State) : Option State :=
  (s.run i (.gather job jobs)).map fun t =>
    { t with semaphore := t.semaphore.joinMany jobs.length }

/-- `next(work)`, and what the worker does then. -/
def takeNext (total i : Nat) (s : State) : Option State :=
  if s.next < total then
    (s.run i (.await (.worker false))).map fun t => { t with next := t.next + 1 }
  else s.run i (.finish true)

def acquire (i attempt : Nat) (s : State) : Option State := do
  let t ← s.run i (.await (.part attempt))
  let semaphore ← t.semaphore.acquire i
  some { t with semaphore := semaphore }

/-- The tasks that were asked to cancel and still run. -/
def asked (s : State) : List Nat :=
  (List.range s.tasks.length).filter fun i =>
    s.tasks[i]?.any fun t => t.running && t.cancelRequested

/-- A cancellation reaches the futures that tasks wait for in the semaphore. -/
def withdraw (s : State) : State := { s with semaphore := s.semaphore.cancelAll s.asked }

end State

def start (total i : Nat) (s : State) : Option State :=
  match s.tasks[i]? with
  | none => none
  | some t =>
      match t.phase, t.cancelRequested, t.job with
      | .created, true, _ => s.run i (.finish false)
      | .created, false, .worker _ => s.takeNext total i
      | .created, false, .digest => s.run i (.await .digest)
      | .created, false, .parts count =>
          s.gather i (.parts count) (List.replicate count (.part 1))
      | .created, false, .part attempt => s.acquire i attempt
      | _, _, _ => none

/-- What a task does behind its `gather`, or once its children are drained. -/
def resume (i : Nat) (s : State) : Option State :=
  match s.tasks[i]? with
  | none => none
  | some t =>
      match t.phase, t.job with
      | .gathering _ true, .worker _ => s.run i (.await (.worker true))
      | .gathering _ true, _ => s.run i (.finish true)
      | .draining _ true, _ => s.run i (.finish false)
      | _, _ => none

/-- What an attempt of a part comes to, with its permit given back. -/
def afterPut (i attempt : Nat) (reply : PutReply) (cancelled : Bool) (s : State) : Option State :=
  match cancelled, reply with
  | true, _ => s.run i (.finish false)
  | false, .uploaded => s.run i (.finish true)
  | false, .retryable =>
      if attempt < maxAttempts then s.run i (.await (.part (attempt + 1)))
      else s.run i (.finish false)
  | false, .refused => s.run i (.finish false)

def working (s : State) (i : Nat) : Option (TreeTask Job) :=
  s.tasks[i]?.filter fun t => t.phase = .working

def step (total : Nat) (s : State) : Action → Option State
  | .start i => start total i s
  | .respond i count =>
      match working s i with
      | some { job := .worker false, .. } =>
          if 0 < count then s.gather i (.worker false) [.digest, .parts count] else none
      | _ => none
  | .receive i =>
      match working s i with
      | some { job := .worker true, cancelRequested := false, .. } => s.takeNext total i
      | _ => none
  | .fail i =>
      match working s i with
      | some { job := .worker _, .. } | some { job := .digest, .. } => s.run i (.finish false)
      | _ => none
  | .digested i =>
      match working s i with
      | some { job := .digest, .. } => s.run i (.finish true)
      | _ => none
  | .settle i => (TaskTree.settle i s.tasks).map fun tasks => { s with tasks := tasks }
  | .resume i => resume i s
  | .drain i =>
      (TaskTree.drain i s.tasks).map fun tasks => State.withdraw { s with tasks := tasks }
  | .wake i => do
      let semaphore ← s.semaphore.resume i
      if semaphore.stages[i]? = some .inside then some { s with semaphore := semaphore }
      else State.run i (.finish false) { s with semaphore := semaphore }
  | .reply i reply =>
      match working s i with
      | some { job := .part attempt, cancelRequested, .. } => do
          let semaphore ← s.semaphore.release i
          afterPut i attempt reply cancelRequested { s with semaphore := semaphore }
      | _ => none
  | .retry i =>
      match working s i, s.semaphore.stages[i]? with
      | some { job := .part _, cancelRequested := true, .. }, some .outside =>
          s.run i (.finish false)
      | some { job := .part attempt, cancelRequested := false, .. }, some .outside =>
          s.acquire i attempt
      | _, _ => none
  | .cancel =>
      if TaskTree.endedAt s.tasks 0 then none
      else some (State.withdraw { s with tasks := TaskTree.cancel [0] s.tasks })

/-! ## The tree of a step -/

/-- What a step makes of the tasks. -/
inductive Moves (tasks after : List (TreeTask Job)) : Prop where
  | same (h : after = tasks)
  | ran (i : Nat) (stretch : Stretch Job) (h : TaskTree.run i stretch tasks = some after)
  | settled (i : Nat) (h : TaskTree.settle i tasks = some after)
  | drained (i : Nat) (h : TaskTree.drain i tasks = some after)
  | cancelled (h : after = TaskTree.cancel [0] tasks)

variable {total i : Nat} {s t : State} {a : Action} {u v : TreeTask Job} {stage : Seat.Stage}

theorem run_eq_some {stretch : Stretch Job} (h : s.run i stretch = some t) :
    TaskTree.run i stretch s.tasks = some t.tasks ∧ t.semaphore = s.semaphore ∧
      t.next = s.next := by
  obtain ⟨tasks, hrun, rfl⟩ := Option.map_eq_some_iff.mp h
  exact ⟨hrun, rfl, rfl⟩

theorem gather_eq_some {job : Job} {jobs : List Job} (h : s.gather i job jobs = some t) :
    TaskTree.run i (.gather job jobs) s.tasks = some t.tasks ∧
      t.semaphore = s.semaphore.joinMany jobs.length ∧ t.next = s.next := by
  obtain ⟨t', hrun, rfl⟩ := Option.map_eq_some_iff.mp h
  obtain ⟨htasks, hsemaphore, hnext⟩ := run_eq_some hrun
  exact ⟨htasks, by rw [← hsemaphore], hnext⟩

theorem acquire_eq_some {attempt : Nat} (h : s.acquire i attempt = some t) :
    TaskTree.run i (.await (.part attempt)) s.tasks = some t.tasks ∧
      s.semaphore.acquire i = some t.semaphore ∧ t.next = s.next := by
  obtain ⟨t', hrun, h⟩ := Option.bind_eq_some_iff.mp h
  obtain ⟨semaphore, hacquire, h⟩ := Option.bind_eq_some_iff.mp h
  cases h
  obtain ⟨htasks, hsemaphore, hnext⟩ := run_eq_some hrun
  exact ⟨htasks, hsemaphore ▸ hacquire, hnext⟩

/-- A worker goes on with the next attachment, or is done. -/
theorem takeNext_eq_some (h : s.takeNext total i = some t) :
    t.semaphore = s.semaphore ∧ ∃ stretch, TaskTree.run i stretch s.tasks = some t.tasks ∧
      (stretch = .await (.worker false) ∨ stretch = .finish true) := by
  rw [State.takeNext] at h
  split at h
  · obtain ⟨t', hrun, rfl⟩ := Option.map_eq_some_iff.mp h
    obtain ⟨htasks, hsemaphore, -⟩ := run_eq_some hrun
    exact ⟨hsemaphore, _, htasks, .inl rfl⟩
  · obtain ⟨htasks, hsemaphore, -⟩ := run_eq_some h
    exact ⟨hsemaphore, _, htasks, .inr rfl⟩

theorem working_eq_some (h : working s i = some u) :
    s.tasks[i]? = some u ∧ u.phase = .working := by
  obtain ⟨hget, hphase⟩ := Option.filter_eq_some_iff.mp h
  exact ⟨hget, by simpa using hphase⟩

/-! ## Tasks and seats -/

/-- How a task goes with its place in the tree and with its seat. -/
def Fits (i : Nat) (u : TreeTask Job) (stage : Seat.Stage) : Prop :=
  match u.job with
  | .batch => i = 0 ∧ u.parent = none ∧ u.phase ≠ .created ∧ u.phase ≠ .working ∧ stage = .outside
  | .worker _ => u.parent = some 0 ∧ stage = .outside
  | .digest => u.parent ≠ none ∧ stage = .outside
  | .parts _ => u.parent ≠ none ∧ u.phase ≠ .working ∧ stage = .outside
  | .part _ => u.parent ≠ none ∧ (stage ≠ .outside → u.phase = .working)

structure Linked (s : State) : Prop where
  length : s.semaphore.stages.length = s.tasks.length
  fits : ∀ (i : Nat) (u : TreeTask Job) (stage : Seat.Stage), s.tasks[i]? = some u →
    s.semaphore.stages[i]? = some stage → Fits i u stage
  root : ∃ u, s.tasks[0]? = some u ∧ u.job = .batch

/-- Only a part that works has a seat in the semaphore. -/
theorem Fits.outside (h : Fits i u stage) (hidle : u.phase = .working → ∀ n, u.job ≠ .part n) :
    stage = .outside := by
  cases hjob : u.job with
  | batch => simp only [Fits, hjob] at h; exact h.2.2.2.2
  | worker creating => simp only [Fits, hjob] at h; exact h.2
  | digest => simp only [Fits, hjob] at h; exact h.2
  | parts count => simp only [Fits, hjob] at h; exact h.2.2
  | part attempt =>
      simp only [Fits, hjob] at h
      by_contra hstage
      exact hidle (h.2 hstage) attempt hjob

/-- A task that ends, with its seat given up. -/
theorem Fits.ended (h : Fits i u stage) (returned : Bool) :
    Fits i { u with phase := .ended returned } .outside := by
  rw [Fits] at h ⊢
  cases hjob : u.job <;> simp_all

theorem Linked.seat (h : Linked s) (hget : s.tasks[i]? = some u) :
    ∃ stage, s.semaphore.stages[i]? = some stage ∧ Fits i u stage := by
  have hlt := (List.getElem?_eq_some_iff.mp hget).1
  rw [← h.length] at hlt
  have hstage := List.getElem?_eq_getElem hlt
  exact ⟨_, hstage, h.fits i u _ hget hstage⟩

theorem Linked.task (h : Linked s) (hstage : s.semaphore.stages[i]? = some stage) :
    ∃ u, s.tasks[i]? = some u ∧ Fits i u stage := by
  have hlt := (List.getElem?_eq_some_iff.mp hstage).1
  rw [h.length] at hlt
  have hget := List.getElem?_eq_getElem hlt
  exact ⟨_, hget, h.fits i _ stage hget hstage⟩

/-- One task and its seat change. -/
theorem Linked.put (h : Linked s) (hget : s.tasks[i]? = some u)
    (htasks : t.tasks = s.tasks.set i v)
    (hstages : t.semaphore.stages = s.semaphore.stages.set i stage) (hfits : Fits i v stage)
    (hjob : u.job = .batch → v.job = .batch) : Linked t := by
  refine ⟨?_, fun j w stage' hw hstage' => ?_, ?_⟩
  · rw [htasks, hstages, List.length_set, List.length_set, h.length]
  · rw [htasks] at hw
    rw [hstages] at hstage'
    cases getElem?_set_eq_some hw with
    | inl hsame =>
        obtain ⟨rfl, rfl⟩ := hsame
        cases getElem?_set_eq_some hstage' with
        | inl heq =>
            rw [heq.2]
            exact hfits
        | inr hother => exact absurd rfl hother.1
    | inr hother =>
        rw [List.getElem?_set_ne (Ne.symm hother.1)] at hstage'
        exact h.fits j w stage' hother.2 hstage'
  · obtain ⟨w, hw, hbatch⟩ := h.root
    rw [htasks]
    by_cases hi : i = 0
    · subst hi
      cases hget.symm.trans hw
      exact ⟨v, List.getElem?_set_self (List.getElem?_eq_some_iff.mp hget).1, hjob hbatch⟩
    · exact ⟨w, (List.getElem?_set_ne hi).trans hw, hbatch⟩

/-- One task changes, and keeps its seat. -/
theorem Linked.change (h : Linked s) (hget : s.tasks[i]? = some u)
    (htasks : t.tasks = s.tasks.set i v) (hsemaphore : t.semaphore = s.semaphore)
    (hfits : ∀ stage, Fits i u stage → Fits i v stage)
    (hjob : u.job = .batch → v.job = .batch) : Linked t := by
  obtain ⟨stage, hstage, hold⟩ := h.seat hget
  refine h.put hget htasks ?_ (hfits stage hold) hjob
  rw [hsemaphore, set_eq_self hstage]

/-- The tasks are the same but for the cancellations asked for, and so are the seats. -/
theorem Linked.marked (h : Linked s) {is : List Nat}
    (htasks : t.tasks = TaskTree.cancel is s.tasks)
    (hstages : t.semaphore.stages = s.semaphore.stages) : Linked t := by
  refine ⟨?_, fun j w stage hw hstage => ?_, ?_⟩
  · rw [htasks, hstages, TaskTree.length_cancel, h.length]
  · rw [htasks] at hw
    rw [hstages] at hstage
    obtain ⟨b, flag, hb, rfl⟩ := TaskTree.getElem?_cancel hw
    exact h.fits j b stage hb hstage
  · obtain ⟨w, hw, hbatch⟩ := h.root
    rw [htasks]
    obtain ⟨flag, hmarked⟩ := TaskTree.cancel_getElem? is hw
    exact ⟨_, hmarked, hbatch⟩

/-- New tasks, of which none has asked for a permit. -/
theorem Linked.gathered (h : Linked s) {job : Job} {jobs : List Job}
    (hstep : s.gather i job jobs = some t)
    (hfits : ∀ u stage cs, s.tasks[i]? = some u → Fits i u stage →
      u.job ≠ .batch ∧ Fits i { u with job := job, phase := .gathering cs false } stage)
    (hjobs : ∀ job ∈ jobs, ∀ j, Fits j { job := job, parent := some i } .outside) : Linked t := by
  obtain ⟨hrun, hsemaphore, -⟩ := gather_eq_some hstep
  obtain ⟨u, hget, -, htasks⟩ := TaskTree.run_gather hrun
  have hstages := congrArg AsyncSemaphore.stages hsemaphore
  rw [AsyncSemaphore.stages_joinMany] at hstages
  refine ⟨?_, fun j w stage hw hstage => ?_, ?_⟩
  · simp only [htasks, hstages, List.length_append, List.length_set, List.length_map,
      List.length_replicate, h.length]
  · rw [htasks] at hw
    rw [hstages] at hstage
    cases Nat.lt_or_ge j s.tasks.length with
    | inl hlt =>
        rw [List.getElem?_append_left (by rwa [List.length_set])] at hw
        rw [List.getElem?_append_left (by rwa [h.length])] at hstage
        cases getElem?_set_eq_some hw with
        | inl hsame =>
            obtain ⟨rfl, rfl⟩ := hsame
            exact (hfits u stage _ hget (h.fits j u stage hget hstage)).2
        | inr hother => exact h.fits j w stage hother.2 hstage
    | inr hge =>
        rw [List.getElem?_append_right (by rwa [List.length_set]), List.getElem?_map] at hw
        obtain ⟨job', hjob', rfl⟩ := Option.map_eq_some_iff.mp hw
        rw [List.getElem?_append_right (by rwa [h.length])] at hstage
        rw [(List.mem_replicate.mp (List.mem_of_getElem? hstage)).2]
        exact hjobs job' (List.mem_of_getElem? hjob') j
  · obtain ⟨w, hw, hbatch⟩ := h.root
    have hne : 0 ≠ i := by
      rintro rfl
      cases hget.symm.trans hw
      obtain ⟨stage, -, hold⟩ := h.seat hget
      exact (hfits u stage [] hget hold).1 hbatch
    exact ⟨w, htasks ▸ TaskTree.spawned_getElem? hne hw, hbatch⟩

theorem Linked.finish (h : Linked s) {returned : Bool} (hstep : s.run i (.finish returned) = some t)
    (hseat : s.semaphore.stages[i]? = some .outside) : Linked t := by
  obtain ⟨hrun, hsemaphore, -⟩ := run_eq_some hstep
  obtain ⟨u, hget, -, htasks⟩ := TaskTree.run_finish hrun
  have hold := h.fits i u .outside hget hseat
  refine h.put hget htasks ?_ (hold.ended returned) id
  rw [hsemaphore, set_eq_self hseat]

theorem Linked.await (h : Linked s) {job : Job} (hstep : s.run i (.await job) = some t)
    (hfits : ∀ u stage, s.tasks[i]? = some u → Fits i u stage →
      u.job ≠ .batch ∧ Fits i { u with job := job, phase := .working } stage) : Linked t := by
  obtain ⟨hrun, hsemaphore, -⟩ := run_eq_some hstep
  obtain ⟨u, hget, -, htasks⟩ := TaskTree.run_await hrun
  obtain ⟨stage, -, hold⟩ := h.seat hget
  have hjob := (hfits u stage hget hold).1
  exact h.change hget htasks hsemaphore (fun stage hold => (hfits u stage hget hold).2)
    fun hbatch => absurd hbatch hjob

/-- The seat of a task that is no working part. -/
theorem Linked.outside (h : Linked s) (hget : s.tasks[i]? = some u)
    (hidle : u.phase = .working → ∀ n, u.job ≠ .part n) :
    s.semaphore.stages[i]? = some .outside := by
  obtain ⟨stage, hstage, hold⟩ := h.seat hget
  rw [hstage, hold.outside hidle]

theorem Linked.takeNext (h : Linked s) {creating : Bool} (hget : s.tasks[i]? = some u)
    (hjob : u.job = .worker creating) (hstep : s.takeNext total i = some t) : Linked t := by
  have hworker (v : TreeTask Job) (stage : Seat.Stage) (hv : s.tasks[i]? = some v)
      (hold : Fits i v stage) :
      v.job ≠ .batch ∧ Fits i { v with job := .worker false, phase := .working } stage := by
    cases hget.symm.trans hv
    simp only [Fits, hjob] at hold
    exact ⟨by simp [hjob], hold⟩
  rw [State.takeNext] at hstep
  split at hstep
  · obtain ⟨t', hrun, rfl⟩ := Option.map_eq_some_iff.mp hstep
    have hlinked := h.await hrun hworker
    exact ⟨hlinked.length, hlinked.fits, hlinked.root⟩
  · exact h.finish hstep (h.outside hget fun _ n => by simp [hjob])

/-- A part takes a seat. -/
theorem Linked.acquire (h : Linked s) {attempt n : Nat} (hget : s.tasks[i]? = some u)
    (hjob : u.job = .part n) (hseats : AsyncSemaphore.Sound maxConcurrentUploads s.semaphore)
    (hstep : s.acquire i attempt = some t) : Linked t := by
  obtain ⟨hrun, hacquire, -⟩ := acquire_eq_some hstep
  obtain ⟨v, hv, -, htasks⟩ := TaskTree.run_await hrun
  cases hget.symm.trans hv
  obtain ⟨-, houtside, stage, hstages, -⟩ := hseats.acquire hacquire
  have hold := h.fits i u .outside hget houtside
  refine h.put hget htasks hstages ?_ fun hbatch => by simp [hjob] at hbatch
  simp only [Fits, hjob] at hold
  exact ⟨hold.1, fun _ => rfl⟩

/-- A part gives its seat up. -/
theorem Linked.vacate (h : Linked s) {n : Nat} (hget : s.tasks[i]? = some u)
    (hjob : u.job = .part n) {semaphore : AsyncSemaphore}
    (hstages : semaphore.stages = s.semaphore.stages.set i .outside) :
    Linked { s with semaphore := semaphore } ∧ semaphore.stages[i]? = some .outside := by
  obtain ⟨stage, hstage, hold⟩ := h.seat hget
  refine ⟨h.put hget (set_eq_self hget).symm hstages ?_ id, ?_⟩
  · simp only [Fits, hjob] at hold ⊢
    exact ⟨hold.1, fun hne => absurd rfl hne⟩
  · rw [hstages, List.getElem?_set_self (List.getElem?_eq_some_iff.mp hstage).1]

/-! ## Steps -/

/-- What a step makes of the tasks and of the iterator, which only a worker that nobody
asked to cancel moves on. -/
structure Effect (s t : State) : Prop where
  tasks : Moves s.tasks t.tasks
  next : t.next = s.next ∨ ∃ (i : Nat) (u : TreeTask Job) (creating : Bool),
    s.tasks[i]? = some u ∧ u.job = .worker creating ∧ u.running = true ∧
      u.cancelRequested = false

theorem effect_of_run {stretch : Stretch Job} (h : s.run i stretch = some t) : Effect s t := by
  obtain ⟨hrun, -, hnext⟩ := run_eq_some h
  exact ⟨.ran i stretch hrun, .inl hnext⟩

theorem effect_of_gather {job : Job} {jobs : List Job} (h : s.gather i job jobs = some t) :
    Effect s t := by
  obtain ⟨hrun, -, hnext⟩ := gather_eq_some h
  exact ⟨.ran i _ hrun, .inl hnext⟩

theorem effect_of_acquire {attempt : Nat} (h : s.acquire i attempt = some t) : Effect s t := by
  obtain ⟨hrun, -, hnext⟩ := acquire_eq_some h
  exact ⟨.ran i _ hrun, .inl hnext⟩

theorem effect_of_takeNext {creating : Bool} (hget : s.tasks[i]? = some u)
    (hjob : u.job = .worker creating) (hrunning : u.running = true)
    (hflag : u.cancelRequested = false) (h : s.takeNext total i = some t) : Effect s t := by
  obtain ⟨-, stretch, hrun, -⟩ := takeNext_eq_some h
  exact ⟨.ran i stretch hrun, .inr ⟨i, u, creating, hget, hjob, hrunning, hflag⟩⟩

theorem effect_of_afterPut {attempt : Nat} {reply : PutReply} {cancelled : Bool}
    (h : afterPut i attempt reply cancelled s = some t) : Effect s t := by
  simp only [afterPut] at h
  split at h
  · exact effect_of_run h
  · exact effect_of_run h
  · split at h
    · exact effect_of_run h
    · exact effect_of_run h
  · exact effect_of_run h

theorem start_effect (h : start total i s = some t) : Effect s t := by
  rw [start] at h
  split at h
  · cases h
  · next u hget =>
      split at h
      · exact effect_of_run h
      · next hphase hflag hjob =>
          exact effect_of_takeNext hget hjob (by simp [TreeTask.running, hphase]) hflag h
      · exact effect_of_run h
      · exact effect_of_gather h
      · exact effect_of_acquire h
      · cases h

theorem resume_effect (h : resume i s = some t) : Effect s t := by
  rw [resume] at h
  split at h
  · cases h
  · split at h
    · exact effect_of_run h
    · exact effect_of_run h
    · exact effect_of_run h
    · cases h

theorem step_effect (h : step total s a = some t) : Effect s t := by
  cases a with
  | start i => exact start_effect h
  | respond i count =>
      simp only [step] at h
      split at h
      · exact effect_of_gather (Option.ite_none_right_eq_some.mp h).2
      · cases h
  | receive i =>
      simp only [step] at h
      split at h
      · next hworking =>
          obtain ⟨hget, hphase⟩ := working_eq_some hworking
          exact effect_of_takeNext hget rfl (TreeTask.running_of_working hphase) rfl h
      · cases h
  | fail i =>
      simp only [step] at h
      split at h
      · exact effect_of_run h
      · exact effect_of_run h
      · cases h
  | digested i =>
      simp only [step] at h
      split at h
      · exact effect_of_run h
      · cases h
  | settle i =>
      obtain ⟨tasks, hsettle, rfl⟩ := Option.map_eq_some_iff.mp h
      exact ⟨.settled i hsettle, .inl rfl⟩
  | resume i => exact resume_effect h
  | drain i =>
      obtain ⟨tasks, hdrain, rfl⟩ := Option.map_eq_some_iff.mp h
      exact ⟨.drained i hdrain, .inl rfl⟩
  | wake i =>
      obtain ⟨semaphore, -, h⟩ := Option.bind_eq_some_iff.mp h
      split at h
      · cases h
        exact ⟨.same rfl, .inl rfl⟩
      · have heffect := effect_of_run h
        exact ⟨heffect.tasks, heffect.next⟩
  | reply i reply =>
      simp only [step] at h
      split at h
      · obtain ⟨semaphore, -, h⟩ := Option.bind_eq_some_iff.mp h
        have heffect := effect_of_afterPut h
        exact ⟨heffect.tasks, heffect.next⟩
      · cases h
  | retry i =>
      simp only [step] at h
      split at h
      · exact effect_of_run h
      · exact effect_of_acquire h
      · cases h
  | cancel =>
      simp only [step] at h
      obtain ⟨-, h⟩ := Option.ite_none_left_eq_some.mp h
      cases h
      exact ⟨.cancelled rfl, .inl rfl⟩

/-! ## The invariant -/

theorem Moves.sound {tasks after : List (TreeTask Job)} (h : Moves tasks after)
    (htree : TaskTree.Sound tasks) : TaskTree.Sound after := by
  cases h with
  | same h => exact h ▸ htree
  | ran i stretch h => exact htree.run h
  | settled i h => exact htree.settle h
  | drained i h => exact htree.drain h
  | cancelled h => exact h ▸ htree.cancel [0]

theorem Moves.closing {tasks after : List (TreeTask Job)} (h : Moves tasks after)
    (hget : tasks[i]? = some u) (hu : u.closing = true) :
    ∃ v, after[i]? = some v ∧ v.closing = true := by
  cases h with
  | same h => exact ⟨u, h ▸ hget, hu⟩
  | ran i stretch h => exact TaskTree.run_closing h hget hu
  | settled i h => exact TaskTree.settle_closing h hget hu
  | drained i h => exact TaskTree.drain_closing h hget hu
  | cancelled h => exact h ▸ TaskTree.cancel_closing [0] hget hu

/-- The semaphore, and its seats beside the tasks. -/
structure Seated (s : State) : Prop where
  seats : AsyncSemaphore.Sound maxConcurrentUploads s.semaphore
  linked : Linked s

section Seats
variable (h : Seated s)
include h

theorem Seated.finish {returned : Bool} (hstep : s.run i (.finish returned) = some t)
    (hseat : s.semaphore.stages[i]? = some .outside) : Seated t where
  seats := (run_eq_some hstep).2.1 ▸ h.seats
  linked := h.linked.finish hstep hseat

/-- The end of a task that is no working part. -/
theorem Seated.finish_idle {returned : Bool} (hget : s.tasks[i]? = some u)
    (hstep : s.run i (.finish returned) = some t)
    (hidle : u.phase = .working → ∀ n, u.job ≠ .part n) : Seated t :=
  h.finish hstep (h.linked.outside hget hidle)

theorem Seated.await {job : Job} (hget : s.tasks[i]? = some u)
    (hstep : s.run i (.await job) = some t) (hbatch : u.job ≠ .batch)
    (hfits : ∀ stage, Fits i u stage → Fits i { u with job := job, phase := .working } stage) :
    Seated t where
  seats := (run_eq_some hstep).2.1 ▸ h.seats
  linked := by
    refine h.linked.await hstep fun v stage hv hold => ?_
    cases hget.symm.trans hv
    exact ⟨hbatch, hfits stage hold⟩

theorem Seated.gather {job : Job} {jobs : List Job} (hget : s.tasks[i]? = some u)
    (hstep : s.gather i job jobs = some t) (hbatch : u.job ≠ .batch)
    (hfits : ∀ stage cs, Fits i u stage →
      Fits i { u with job := job, phase := .gathering cs false } stage)
    (hjobs : ∀ job ∈ jobs, ∀ j, Fits j { job := job, parent := some i } .outside) : Seated t where
  seats := (gather_eq_some hstep).2.1 ▸ h.seats.joinMany _
  linked := by
    refine h.linked.gathered hstep (fun v stage cs hv hold => ?_) hjobs
    cases hget.symm.trans hv
    exact ⟨hbatch, hfits stage cs hold⟩

theorem Seated.acquire {attempt n : Nat} (hget : s.tasks[i]? = some u) (hjob : u.job = .part n)
    (hstep : s.acquire i attempt = some t) : Seated t where
  seats := (h.seats.acquire (acquire_eq_some hstep).2.1).1
  linked := h.linked.acquire hget hjob h.seats hstep

theorem Seated.takeNext {creating : Bool} (hget : s.tasks[i]? = some u)
    (hjob : u.job = .worker creating) (hstep : s.takeNext total i = some t) : Seated t where
  seats := (takeNext_eq_some hstep).1 ▸ h.seats
  linked := h.linked.takeNext hget hjob hstep

theorem Seated.marked {is : List Nat} (htasks : t.tasks = TaskTree.cancel is s.tasks)
    (hsemaphore : t.semaphore = s.semaphore) : Seated t :=
  ⟨hsemaphore ▸ h.seats, h.linked.marked htasks (hsemaphore ▸ rfl)⟩

theorem Seated.withdraw : Seated s.withdraw := by
  obtain ⟨hsound, hstages⟩ := h.seats.cancelAll s.asked
  refine ⟨hsound, ?_, fun j v stage hv hstage => ?_, h.linked.root⟩
  · exact (congrArg List.length hstages).trans h.linked.length
  · exact h.linked.fits j v stage hv (hstages ▸ hstage)

theorem Seated.vacate {n : Nat} (hget : s.tasks[i]? = some u) (hjob : u.job = .part n)
    {semaphore : AsyncSemaphore} (hsound : AsyncSemaphore.Sound maxConcurrentUploads semaphore)
    (hstages : semaphore.stages = s.semaphore.stages.set i .outside) :
    Seated { s with semaphore := semaphore } ∧ semaphore.stages[i]? = some .outside := by
  obtain ⟨hlinked, hseat⟩ := h.linked.vacate hget hjob hstages
  exact ⟨⟨hsound, hlinked⟩, hseat⟩

theorem Seated.start (hstep : start total i s = some t) : Seated t := by
  rw [UploadTasks.start] at hstep
  split at hstep
  · cases hstep
  · next u hget =>
      split at hstep
      · next hphase _ =>
          exact h.finish_idle hget hstep fun hworking => by simp [hphase] at hworking
      · next hjob => exact h.takeNext hget hjob hstep
      · next hphase hflag hjob =>
          refine h.await hget hstep (by simp [hjob]) fun stage hold => ?_
          simp only [Fits, hjob] at hold
          exact hold
      · next count hphase hflag hjob =>
          refine h.gather hget hstep (by simp [hjob]) (fun stage cs hold => ?_) ?_
          · simp only [Fits, hjob] at hold
            exact ⟨hold.1, by simp, hold.2.2⟩
          · intro job hmem j
            rw [(List.mem_replicate.mp hmem).2]
            exact ⟨by simp, fun hne => absurd rfl hne⟩
      · next hjob => exact h.acquire hget hjob hstep
      · cases hstep

theorem Seated.resume (hstep : resume i s = some t) : Seated t := by
  rw [UploadTasks.resume] at hstep
  split at hstep
  · cases hstep
  · next u hget =>
      split at hstep
      · next hphase hjob =>
          refine h.await hget hstep (by simp [hjob]) fun stage hold => ?_
          simp only [Fits, hjob] at hold
          exact hold
      · next hphase _ =>
          exact h.finish_idle hget hstep fun hworking => by simp [hphase] at hworking
      · next hphase =>
          exact h.finish_idle hget hstep fun hworking => by simp [hphase] at hworking
      · cases hstep

theorem Seated.afterPut {attempt n : Nat} {reply : PutReply} {cancelled : Bool}
    (hget : s.tasks[i]? = some u) (hjob : u.job = .part n)
    (hseat : s.semaphore.stages[i]? = some .outside)
    (hstep : afterPut i attempt reply cancelled s = some t) : Seated t := by
  simp only [UploadTasks.afterPut] at hstep
  split at hstep
  · exact h.finish hstep hseat
  · exact h.finish hstep hseat
  · split at hstep
    · refine h.await hget hstep (by simp [hjob]) fun stage hold => ?_
      simp only [Fits, hjob] at hold
      exact ⟨hold.1, fun _ => rfl⟩
    · exact h.finish hstep hseat
  · exact h.finish hstep hseat

end Seats

theorem Fits.gathers (h : Fits i u stage) (hbefore : u.phase.gathers = true) {phase : TaskPhase}
    (hafter : phase.gathers = true) : Fits i { u with phase := phase } stage := by
  have houtside : stage = .outside := h.outside fun hworking => by simp [hworking,
    TaskPhase.gathers] at hbefore
  have hphase : phase ≠ .created ∧ phase ≠ .working := by
    refine ⟨?_, ?_⟩
    · rintro rfl
      cases hafter
    · rintro rfl
      cases hafter
  cases hjob : u.job <;> simp_all [Fits]

theorem Seated.settle (h : Seated s) (hstep : TaskTree.settle i s.tasks = some t.tasks)
    (hsemaphore : t.semaphore = s.semaphore) : Seated t := by
  obtain ⟨u, phase, hget, hbefore, hafter, htasks⟩ := TaskTree.settle_eq_some hstep
  refine ⟨hsemaphore ▸ h.seats, h.linked.change hget htasks hsemaphore (fun stage hold => ?_) id⟩
  exact hold.gathers hbefore hafter

theorem Seated.drain (h : Seated s) (hstep : TaskTree.drain i s.tasks = some t.tasks)
    (hsemaphore : t.semaphore = s.semaphore) : Seated t := by
  obtain ⟨u, cs, flag, -, hphase, hmarked, htasks⟩ := TaskTree.drain_eq_some hstep
  have hcancelled : Seated { s with tasks := TaskTree.cancel cs s.tasks } := h.marked rfl rfl
  refine ⟨hsemaphore ▸ h.seats, hcancelled.linked.change hmarked htasks hsemaphore
    (fun stage hold => ?_) id⟩
  exact hold.gathers (by rw [TreeTask.phase_mark, hphase]; rfl) rfl

theorem Seated.step (h : Seated s) (hstep : step total s a = some t) : Seated t := by
  cases a with
  | start i => exact h.start hstep
  | respond i count =>
      simp only [UploadTasks.step] at hstep
      split at hstep
      · next hworking =>
          obtain ⟨hget, -⟩ := working_eq_some hworking
          obtain ⟨-, hstep⟩ := Option.ite_none_right_eq_some.mp hstep
          refine h.gather hget hstep (by simp) (fun stage cs hold => hold) fun job hmem j => ?_
          simp only [List.mem_cons, List.not_mem_nil, or_false] at hmem
          cases hmem with
          | inl hdigest => rw [hdigest]; exact ⟨by simp, rfl⟩
          | inr hparts => rw [hparts]; exact ⟨by simp, by simp, rfl⟩
      · cases hstep
  | receive i =>
      simp only [UploadTasks.step] at hstep
      split at hstep
      · next hworking => exact h.takeNext (working_eq_some hworking).1 rfl hstep
      · cases hstep
  | fail i =>
      simp only [UploadTasks.step] at hstep
      split at hstep
      · next hworking =>
          exact h.finish_idle (working_eq_some hworking).1 hstep fun _ n => by simp
      · next hworking =>
          exact h.finish_idle (working_eq_some hworking).1 hstep fun _ n => by simp
      · cases hstep
  | digested i =>
      simp only [UploadTasks.step] at hstep
      split at hstep
      · next hworking =>
          exact h.finish_idle (working_eq_some hworking).1 hstep fun _ n => by simp
      · cases hstep
  | settle i =>
      obtain ⟨tasks, hsettle, rfl⟩ := Option.map_eq_some_iff.mp hstep
      exact h.settle hsettle rfl
  | resume i => exact h.resume hstep
  | drain i =>
      obtain ⟨tasks, hdrain, rfl⟩ := Option.map_eq_some_iff.mp hstep
      exact (h.drain (t := { s with tasks := tasks }) hdrain rfl).withdraw
  | wake i =>
      obtain ⟨semaphore, hresume, hstep⟩ := Option.bind_eq_some_iff.mp hstep
      obtain ⟨hsound, hwaits, stage, hstages, hstage⟩ := h.seats.resume hresume
      obtain ⟨u, hget, hold⟩ := h.linked.task hwaits
      obtain ⟨n, hjob⟩ : ∃ n, u.job = .part n := by
        by_contra hnone
        have houtside := hold.outside fun _ n hjob => hnone ⟨n, hjob⟩
        cases houtside
      simp only [Fits, hjob] at hold
      split at hstep
      · next hinside =>
          cases hstep
          refine ⟨hsound, h.linked.put hget (set_eq_self hget).symm hstages ?_ id⟩
          simp only [Fits, hjob]
          exact ⟨hold.1, fun _ => hold.2 nofun⟩
      · next hinside =>
          have hseat : stage = .outside := by
            cases hstage with
            | inl hin =>
                refine absurd ?_ hinside
                rw [AsyncSemaphore.getElem?_stages_set hstages hwaits, hin]
            | inr hout => exact hout
          rw [hseat] at hstages
          obtain ⟨hvacated, hplace⟩ := h.vacate hget hjob hsound hstages
          exact hvacated.finish hstep hplace
  | reply i reply =>
      simp only [UploadTasks.step] at hstep
      split at hstep
      · next hworking =>
          obtain ⟨semaphore, hrelease, hstep⟩ := Option.bind_eq_some_iff.mp hstep
          obtain ⟨hget, -⟩ := working_eq_some hworking
          obtain ⟨hsound, -, hstages⟩ := h.seats.release hrelease
          obtain ⟨hvacated, hplace⟩ := h.vacate hget rfl hsound hstages
          exact hvacated.afterPut hget rfl hplace hstep
      · cases hstep
  | retry i =>
      simp only [UploadTasks.step] at hstep
      split at hstep
      · next houtside => exact h.finish hstep houtside
      · next hworking _ => exact h.acquire (working_eq_some hworking).1 rfl hstep
      · cases hstep
  | cancel =>
      simp only [UploadTasks.step] at hstep
      obtain ⟨-, heq⟩ := Option.ite_none_left_eq_some.mp hstep
      cases heq
      exact (h.marked (t := { s with tasks := TaskTree.cancel [0] s.tasks }) rfl rfl).withdraw

end DualeAI.UploadTasks
