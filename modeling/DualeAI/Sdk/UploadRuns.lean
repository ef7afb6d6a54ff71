import DualeAI.Sdk.UploadTasks

/-!
Whole runs of the tasks of an upload batch: nothing of it outlives it, and it never
stands still.
-/
namespace DualeAI.UploadTasks
open Foundation

variable {total i : Nat} {s t : State} {u : TreeTask Job}

/-! ## Runs -/

theorem invariant_initial (total : Nat) :
    TaskTree.Sound (initial total).tasks ∧ Seated (initial total) := by
  have hstages : (initial total).semaphore.stages =
      List.replicate (min maxConcurrentUploads total + 1) .outside := by
    rw [initial, AsyncSemaphore.stages_joinMany]
    rfl
  refine ⟨?_, (AsyncSemaphore.sound_init _).joinMany _, ⟨?_, fun j u stage hu hstage => ?_, ?_⟩⟩
  · -- the batch has just created its workers
    have hgathers : TaskTree.run 0 (.gather .batch
        (List.replicate (min maxConcurrentUploads total) (.worker false)))
        [{ job := Job.batch, phase := .working }] = some (initial total).tasks := by
      simp [TaskTree.run, TaskTree.goesOn, initial]
    exact (TaskTree.sound_root Job.batch).run hgathers
  · rw [hstages, initial]
    simp
  · rw [hstages] at hstage
    rw [(List.mem_replicate.mp (List.mem_of_getElem? hstage)).2]
    cases j with
    | zero => cases hu; exact ⟨rfl, rfl, by simp, by simp, rfl⟩
    | succ j =>
        rw [initial, List.getElem?_cons_succ] at hu
        rw [(List.mem_replicate.mp (List.mem_of_getElem? hu)).2]
        exact ⟨rfl, rfl⟩
  · exact ⟨_, rfl, rfl⟩

theorem invariant_of_run {past : List Action} (h : Run (step total) (initial total) past s) :
    TaskTree.Sound s.tasks ∧ Seated s :=
  h.invariant (I := fun _ s => TaskTree.Sound s.tasks ∧ Seated s) (invariant_initial total)
    fun _ _ _ _ hs hstep => ⟨(step_effect hstep).tasks.sound hs.1, hs.2.step hstep⟩

/-- Once the batch has ended, so have all its tasks, and nobody has a permit. -/
theorem ended_of_batch (htree : TaskTree.Sound s.tasks) (hseated : Seated s)
    (hended : TaskTree.endedAt s.tasks 0 = true) :
    (∀ u ∈ s.tasks, u.running = false) ∧ s.semaphore.value = maxConcurrentUploads := by
  have hall : ∀ u ∈ s.tasks, u.running = false := by
    refine htree.all_ended fun u hmem hparent => ?_
    obtain ⟨i, hget⟩ := List.mem_iff_getElem?.mp hmem
    obtain ⟨stage, -, hold⟩ := hseated.linked.seat hget
    have hzero : i = 0 := by
      rw [Fits] at hold
      split at hold
      · exact hold.1
      · rw [hparent] at hold; cases hold.1
      · exact absurd hparent hold.1
      · exact absurd hparent hold.1
      · exact absurd hparent hold.1
    rw [hzero] at hget
    simpa [TaskTree.endedAt_eq hget] using hended
  refine ⟨hall, hseated.seats.value_eq fun stage hmem => ?_⟩
  obtain ⟨i, hstage⟩ := List.mem_iff_getElem?.mp hmem
  obtain ⟨u, hget, hold⟩ := hseated.linked.task hstage
  refine hold.outside fun hworking => ?_
  have hover := hall u (List.mem_of_getElem? hget)
  rw [TreeTask.running_of_working hworking] at hover
  cases hover

/-- Once the batch drains its workers, no worker takes an attachment. -/
theorem takes_nothing (htree : TaskTree.Sound s.tasks) (hseated : Seated s)
    (hroot : s.tasks[0]? = some u) (hclosing : u.closing = true) {more : List Action}
    (hrun : Run (step total) s more t) : t.next = s.next := by
  have hkept : (TaskTree.Sound t.tasks ∧ Seated t) ∧
      (∃ v, t.tasks[0]? = some v ∧ v.closing = true) ∧ t.next = s.next := by
    refine hrun.invariant (I := fun _ t => (TaskTree.Sound t.tasks ∧ Seated t) ∧
      (∃ v, t.tasks[0]? = some v ∧ v.closing = true) ∧ t.next = s.next)
      ⟨⟨htree, hseated⟩, ⟨u, hroot, hclosing⟩, rfl⟩ ?_
    rintro past x a y ⟨⟨htree, hseated⟩, ⟨v, hv, hclosing⟩, hnext⟩ hstep
    have heffect := step_effect hstep
    refine ⟨⟨heffect.tasks.sound htree, hseated.step hstep⟩, heffect.tasks.closing hv hclosing, ?_⟩
    cases heffect.next with
    | inl hsame => exact hsame.trans hnext
    | inr htaken =>
        obtain ⟨i, w, creating, hget, hjob, hrunning, hflag⟩ := htaken
        obtain ⟨stage, -, hold⟩ := hseated.linked.seat hget
        simp only [Fits, hjob] at hold
        have hasked := htree.cancelRequested hv hclosing hget hold.1 hrunning
        rw [hflag] at hasked
        cases hasked
  exact hkept.2.2

/-! ## The batch goes on -/

theorem run_of_goesOn (hget : s.tasks[i]? = some u) (hu : TaskTree.goesOn s.tasks u = true)
    (stretch : Stretch Job) : ∃ t, s.run i stretch = some t := by
  obtain ⟨tasks, hrun⟩ := TaskTree.run_of_goesOn hget hu stretch
  exact ⟨_, Option.map_eq_some_iff.mpr ⟨tasks, hrun, rfl⟩⟩

theorem run_of_raises (hget : s.tasks[i]? = some u) (hu : TaskTree.raises u = true) :
    ∃ t, s.run i (.finish false) = some t := by
  obtain ⟨tasks, hrun⟩ := TaskTree.run_of_raises hget hu
  exact ⟨_, Option.map_eq_some_iff.mpr ⟨tasks, hrun, rfl⟩⟩

theorem run_of_working (hget : s.tasks[i]? = some u) (hphase : u.phase = .working) :
    ∃ t, s.run i (.finish false) = some t := by
  cases hflag : u.cancelRequested with
  | true => exact run_of_raises hget (by simp [TaskTree.raises, hphase, hflag])
  | false => exact run_of_goesOn hget (TaskTree.goesOn_of_working hphase hflag) _

theorem acquire_of_goesOn (hget : s.tasks[i]? = some u)
    (hu : TaskTree.goesOn s.tasks u = true) (hseat : s.semaphore.stages[i]? = some .outside)
    (attempt : Nat) : ∃ t, s.acquire i attempt = some t := by
  obtain ⟨t, hrun⟩ := run_of_goesOn hget hu (.await (.part attempt))
  obtain ⟨semaphore, hacquire⟩ := AsyncSemaphore.acquire_of_outside hseat
  rw [← (run_eq_some hrun).2.1] at hacquire
  rw [State.acquire, hrun]
  exact ⟨_, by rw [Option.bind_eq_bind, Option.bind_some, hacquire]; rfl⟩

theorem takeNext_of_goesOn (total : Nat) (hget : s.tasks[i]? = some u)
    (hu : TaskTree.goesOn s.tasks u = true) : ∃ t, s.takeNext total i = some t := by
  rw [State.takeNext]
  split
  · obtain ⟨t, hrun⟩ := run_of_goesOn hget hu (.await (.worker false))
    exact ⟨_, Option.map_eq_some_iff.mpr ⟨t, hrun, rfl⟩⟩
  · exact run_of_goesOn hget hu (.finish true)

theorem working_of_phase (hget : s.tasks[i]? = some u) (hphase : u.phase = .working) :
    working s i = some u := by
  rw [working, hget, Option.filter_some, if_pos (by simpa using hphase)]

/-- Something other than a cancellation can happen. -/
def GoesOn (total : Nat) (s : State) : Prop := ∃ a t, a ≠ .cancel ∧ step total s a = some t

theorem start_goesOn (total : Nat) (hget : s.tasks[i]? = some u) (hphase : u.phase = .created)
    (hjob : u.job ≠ .batch) (hseat : s.semaphore.stages[i]? = some .outside) :
    GoesOn total s := by
  suffices h : ∃ t, start total i s = some t by
    obtain ⟨t, ht⟩ := h
    exact ⟨.start i, t, nofun, ht⟩
  rw [start, hget]
  cases hflag : u.cancelRequested with
  | true =>
      simp only [hphase, hflag]
      exact run_of_raises hget (by simp [TaskTree.raises, hphase, hflag])
  | false =>
      have hgoes : TaskTree.goesOn s.tasks u = true := by simp [TaskTree.goesOn, hphase, hflag]
      cases hkind : u.job with
      | batch => exact absurd hkind hjob
      | worker creating =>
          simp only [hphase, hflag, hkind]
          exact takeNext_of_goesOn total hget hgoes
      | digest =>
          simp only [hphase, hflag, hkind]
          exact run_of_goesOn hget hgoes _
      | parts count =>
          simp only [hphase, hflag, hkind]
          obtain ⟨t, hrun⟩ := run_of_goesOn hget hgoes
            (.gather (.parts count) (List.replicate count (.part 1)))
          exact ⟨_, Option.map_eq_some_iff.mpr ⟨t, hrun, rfl⟩⟩
      | part attempt =>
          simp only [hphase, hflag, hkind]
          exact acquire_of_goesOn hget hgoes hseat attempt

/-- A task with a permit, or woken for one, goes on. -/
theorem seat_goesOn (total : Nat) (hseated : Seated s) {seat : Seat}
    (hget : s.semaphore.seats[i]? = some seat) (hseat : seat.woken = true ∨ seat = .inside) :
    GoesOn total s := by
  have hstage : s.semaphore.stages[i]? = some seat.stage := by
    rw [AsyncSemaphore.stages, List.getElem?_map, hget]
    rfl
  obtain ⟨u, hu, hold⟩ := hseated.linked.task hstage
  have hbusy : seat.stage ≠ .outside := by
    intro hout
    cases seat with
    | outside => rcases hseat with hwoken | hinside <;> contradiction
    | pending | granted _ | withdrawn | inside => cases hout
  obtain ⟨n, hjob⟩ : ∃ n, u.job = .part n := by
    by_contra hnone
    exact hbusy (hold.outside fun _ n hjob => hnone ⟨n, hjob⟩)
  have hphase : u.phase = .working := by
    simp only [Fits, hjob] at hold
    exact hold.2 hbusy
  cases hseat with
  | inl hwoken =>
      obtain ⟨semaphore, hresume⟩ := AsyncSemaphore.resume_of_woken hget hwoken
      obtain ⟨t, ht⟩ := run_of_working (s := { s with semaphore := semaphore }) hu hphase
      refine ⟨.wake i, ?_⟩
      simp only [step, hresume, Option.bind_eq_bind, Option.bind_some]
      split
      · exact ⟨_, by simp, rfl⟩
      · exact ⟨t, by simp, ht⟩
  | inr hinside =>
      subst hinside
      obtain ⟨semaphore, hrelease⟩ := AsyncSemaphore.release_of_inside hget
      obtain ⟨t, ht⟩ := run_of_working (s := { s with semaphore := semaphore }) hu hphase
      obtain ⟨job, parent, phase, flag⟩ := u
      cases hjob
      refine ⟨.reply i .refused, t, by simp, ?_⟩
      simp only [step, working_of_phase hu hphase, hrelease, Option.bind_eq_bind,
        Option.bind_some, afterPut]
      cases flag with
      | true => exact ht
      | false => exact ht

/-- A part that works goes on, or another one that it waits for. -/
theorem part_goesOn (total : Nat) (hseated : Seated s) (hget : s.tasks[i]? = some u) {n : Nat}
    (hjob : u.job = .part n) (hphase : u.phase = .working) : GoesOn total s := by
  obtain ⟨stage, hstage, -⟩ := hseated.linked.seat hget
  obtain ⟨seat, hseat, rfl⟩ : ∃ seat, s.semaphore.seats[i]? = some seat ∧ seat.stage = stage := by
    rwa [AsyncSemaphore.stages, List.getElem?_map, Option.map_eq_some_iff] at hstage
  cases seat with
  | outside =>
      obtain ⟨job, parent, phase, flag⟩ := u
      cases hjob
      cases flag with
      | true =>
          obtain ⟨t, ht⟩ := run_of_working hget hphase
          refine ⟨.retry i, t, by simp, ?_⟩
          simp only [step, working_of_phase hget hphase, hstage, Seat.stage]
          exact ht
      | false =>
          obtain ⟨t, ht⟩ :=
            acquire_of_goesOn hget (TaskTree.goesOn_of_working hphase rfl) hstage n
          refine ⟨.retry i, t, by simp, ?_⟩
          simp only [step, working_of_phase hget hphase, hstage, Seat.stage]
          exact ht
  | pending =>
      obtain ⟨k, seat, hk, hmoves⟩ :=
        hseated.seats.moves (by decide) (List.mem_of_getElem? hseat)
      exact seat_goesOn total hseated hk hmoves
  | granted _ | withdrawn => exact seat_goesOn total hseated hseat (.inl rfl)
  | inside => exact seat_goesOn total hseated hseat (.inr rfl)

theorem gathers_goesOn (total : Nat) (hget : s.tasks[i]? = some u)
    (hu : u.phase.gathers = true) (hleft : ∀ c ∈ u.children, TaskTree.endedAt s.tasks c = true) :
    GoesOn total s := by
  rcases TaskTree.gathers_moves hget hu hleft with ⟨tasks, hsettle⟩ | ⟨tasks, hdrain⟩ |
    ⟨⟨cs, hphase⟩, hgoes⟩ | ⟨⟨cs, hphase⟩, hraises⟩
  · exact ⟨.settle i, _, by simp, Option.map_eq_some_iff.mpr ⟨tasks, hsettle, rfl⟩⟩
  · exact ⟨.drain i, _, by simp, Option.map_eq_some_iff.mpr ⟨tasks, hdrain, rfl⟩⟩
  · refine ⟨.resume i, ?_⟩
    simp only [step, resume, hget, hphase]
    cases u.job with
    | worker creating =>
        obtain ⟨t, ht⟩ := run_of_goesOn hget hgoes (.await (.worker true))
        exact ⟨t, by simp, ht⟩
    | batch | digest | parts _ | part _ =>
        obtain ⟨t, ht⟩ := run_of_goesOn hget hgoes (.finish true)
        exact ⟨t, by simp, ht⟩
  · obtain ⟨t, ht⟩ := run_of_raises hget hraises
    refine ⟨.resume i, t, by simp, ?_⟩
    simp only [step, resume, hget, hphase]
    exact ht

/-- As long as the batch runs, a task of it can go on. -/
theorem goesOn_of_running (total : Nat) (htree : TaskTree.Sound s.tasks) (hseated : Seated s)
    (hrunning : TaskTree.endedAt s.tasks 0 = false) : GoesOn total s := by
  obtain ⟨root, hroot, -⟩ := hseated.linked.root
  have hrun : root.running = true := by simpa [TaskTree.endedAt_eq hroot] using hrunning
  obtain ⟨i, u, hget, hu, hleft⟩ := htree.ready hroot hrun
  obtain ⟨stage, hstage, hold⟩ := hseated.linked.seat hget
  cases hphase : u.phase with
  | created =>
      have houtside := hseated.linked.outside hget fun hworking => by simp [hphase] at hworking
      refine start_goesOn total hget hphase (fun hbatch => ?_) houtside
      simp only [Fits, hbatch] at hold
      exact hold.2.2.1 hphase
  | working =>
      obtain ⟨t, ht⟩ := run_of_working hget hphase
      have hworking := working_of_phase hget hphase
      obtain ⟨job, parent, phase, flag⟩ := u
      cases job with
      | batch => exact absurd hphase hold.2.2.2.1
      | worker creating =>
          refine ⟨.fail i, t, by simp, ?_⟩
          simp only [step, hworking]
          exact ht
      | digest =>
          refine ⟨.fail i, t, by simp, ?_⟩
          simp only [step, hworking]
          exact ht
      | parts count => exact absurd hphase hold.2.1
      | part n => exact part_goesOn total hseated hget rfl hphase
  | gathering cs settled => exact gathers_goesOn total hget (by rw [hphase]; rfl) hleft
  | draining cs settled => exact gathers_goesOn total hget (by rw [hphase]; rfl) hleft
  | ended returned => simp [TreeTask.running, hphase] at hu

/-- In every run, however the tasks take turns and however often the caller is cancelled:
at most as many parts are in flight as the semaphore has permits. Once the batch drains
its workers, no further attachment is taken. When it has ended, by a return or an
exception, none of the tasks it set off runs any more and every permit is free. Until
then some task can go on: the batch never waits for tasks that wait for each other. -/
theorem uploads_enclosed {past : List Action} (hrun : Run (step total) (initial total) past s) :
    s.semaphore.inside ≤ maxConcurrentUploads ∧
    (∀ u, s.tasks[0]? = some u → u.closing = true →
      ∀ more t, Run (step total) s more t → t.next = s.next) ∧
    (TaskTree.endedAt s.tasks 0 = true →
      (∀ u ∈ s.tasks, u.running = false) ∧ s.semaphore.value = maxConcurrentUploads) ∧
    (TaskTree.endedAt s.tasks 0 = false → GoesOn total s) := by
  obtain ⟨htree, hseated⟩ := invariant_of_run hrun
  refine ⟨hseated.seats.inside_le, fun u hroot hclosing more t hmore => ?_,
    ended_of_batch htree hseated, goesOn_of_running total htree hseated⟩
  exact takes_nothing htree hseated hroot hclosing hmore

/-- A part is refused while another is in flight, and the caller is cancelled on top. -/
theorem uploads_enclosed_refused :
    ∃ past s, Run (step 1) (initial 1) past s ∧ TaskTree.endedAt s.tasks 0 = true ∧
      s.semaphore.value = maxConcurrentUploads := by
  have hend : (([.start 1, .respond 1 2, .start 2, .start 3, .start 4, .start 5,
      .reply 4 .refused, .settle 3, .drain 3, .reply 5 .uploaded, .settle 3, .resume 3, .settle 1,
      .cancel, .drain 1, .cancel, .fail 2, .settle 1, .resume 1, .settle 0, .drain 0, .settle 0,
      .resume 0] : List Action).foldlM (step 1) (initial 1)).any
        (fun s => TaskTree.endedAt s.tasks 0) = true := by decide +kernel
  obtain ⟨s, hfold, hended⟩ := (Option.any_eq_true _ _).mp hend
  have hrun := Run.of_foldlM hfold
  exact ⟨_, s, hrun, hended, ((uploads_enclosed hrun).2.2.1 hended).2⟩

end DualeAI.UploadTasks
