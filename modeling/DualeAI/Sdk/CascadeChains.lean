import DualeAI.Sdk.CascadeCost
import Mathlib.Logic.Relation

/-!
The submissions that set each other off.

The cursor of a submission is that of the event it answers. A stream that the
submission opens gives only events behind it, and what it gives is answered under
their cursors.
-/
namespace DualeAI.Cascade
open Foundation Dispatch

section Chains
variable {D : Dispatcher} (logs : TaskLogs) {taskId : Text}

/-- The event under `c'` comes after the one under `c`. -/
def Behind (taskId c c' : Text) : Prop :=
  c' ∈ (logs.after taskId (some c)).map BridgeSSEEvent.id

/-- The task a submission is for, and the cursor of the event it answers. -/
def State.answers (s : State) (i : Nat) : Option (Text × Text) := do
  let sub ← s.dispatch.submissions[i]?
  let cursor ← sub.delivery.lastEventId
  return (sub.delivery.taskId, cursor)

/-- The stream of submission `i` gave the event that submission `j` answers. -/
def Triggers (s : State) (i j : Nat) : Prop :=
  ∃ sub, s.dispatch.submissions[j]? = some sub ∧ sub.delivery.origin = some i

/-- A delivery has a cursor, behind that of the submission whose stream it came on. -/
def Traced (s : State) (d : Delivery) : Prop :=
  ∃ c, d.lastEventId = some c ∧ ∀ i, d.origin = some i →
    ∃ opening, s.answers i = some (d.taskId, opening) ∧ Behind logs d.taskId opening c

structure Chained (s : State) : Prop where
  submissions : ∀ sub ∈ s.dispatch.submissions, Traced logs s sub.delivery
  executions : ∀ e ∈ s.dispatch.executions, Traced logs s e.delivery
  streams : ∀ i taskId opening c, s.answers i = some (taskId, opening) →
    s.lastRead (.submission i) = some c → Behind logs taskId opening c

variable {logs}

theorem Behind.trans {c c' c'' : Text} (h : Behind logs taskId c c')
    (h' : Behind logs taskId c' c'') : Behind logs taskId c c'' := by
  obtain ⟨event, hmem, rfl⟩ := List.mem_map.mp h
  obtain ⟨event', hmem', rfl⟩ := List.mem_map.mp h'
  obtain ⟨read, hsplit⟩ := after_of_mem hmem
  refine List.mem_map_of_mem ?_
  rw [hsplit]
  exact List.mem_append_right _ (List.mem_cons_of_mem _ hmem')

theorem behind_irrefl (c : Text) : ¬ Behind logs taskId c c := by
  intro h
  obtain ⟨event, hmem, heq⟩ := List.mem_map.mp h
  obtain ⟨read, hsplit⟩ := after_of_mem hmem
  rw [heq] at hsplit
  have hlength := congrArg List.length hsplit
  rw [List.length_append, List.length_cons] at hlength
  omega

theorem Behind.asymm {c c' : Text} (h : Behind logs taskId c c') : ¬ Behind logs taskId c' c :=
  fun h' => behind_irrefl c (h.trans h')

theorem answers_eq {s t : State} (h : s.dispatch.submissions <+: t.dispatch.submissions) {i : Nat}
    (hi : i < s.dispatch.submissions.length) : t.answers i = s.answers i := by
  obtain ⟨more, hmore⟩ := h
  rw [State.answers, ← hmore, List.getElem?_append_left hi, State.answers]

theorem answers_mono {s t : State} (h : s.dispatch.submissions <+: t.dispatch.submissions)
    {i : Nat} {answer : Text × Text} (hanswer : s.answers i = some answer) :
    t.answers i = some answer := by
  obtain ⟨sub, hget, -⟩ := Option.bind_eq_some_iff.mp hanswer
  rw [answers_eq h (List.getElem?_eq_some_iff.mp hget).1, hanswer]

theorem Traced.mono {s t : State} {d : Delivery} (h : Traced logs s d)
    (hsubmissions : s.dispatch.submissions <+: t.dispatch.submissions) : Traced logs t d := by
  obtain ⟨c, hcursor, horigin⟩ := h
  refine ⟨c, hcursor, fun i hi => ?_⟩
  obtain ⟨opening, hanswer, hbehind⟩ := horigin i hi
  exact ⟨opening, answers_mono hsubmissions hanswer, hbehind⟩

/-- An event of a submission's stream is behind the one the submission answers. -/
theorem Chained.behind {s : State} (h : Chained logs s) {i : Nat} {task : Text}
    {event : BridgeSSEEvent} (htask : s.taskOf (.submission i) = some task)
    (hevent : event ∈ logs.after task (s.cursor (.submission i))) :
    ∃ opening, s.answers i = some (task, opening) ∧ Behind logs task opening event.id := by
  obtain ⟨sub, hget, rfl⟩ := Option.map_eq_some_iff.mp htask
  obtain ⟨opening, hopening, -⟩ := h.submissions sub (List.mem_of_getElem? hget)
  have hanswer : s.answers i = some (sub.delivery.taskId, opening) := by
    simp [State.answers, hget, hopening]
  refine ⟨opening, hanswer, ?_⟩
  cases hread : s.lastRead (.submission i) with
  | none =>
      have hcursor : s.cursor (.submission i) = some opening := by
        simp [State.cursor, State.opening, hread, hget, hopening]
      rw [hcursor] at hevent
      exact List.mem_map_of_mem hevent
  | some c =>
      have hcursor : s.cursor (.submission i) = some c := by simp [State.cursor, hread]
      rw [hcursor] at hevent
      exact (h.streams i _ _ c hanswer hread).trans (List.mem_map_of_mem hevent)

theorem Hands.traced {s : State} (hs : Chained logs s) {task : Text} {stream : Stream}
    {event : BridgeSSEEvent} {d : Delivery} (h : Hands D task stream event d)
    (htask : s.taskOf stream = some task) (hevent : event ∈ logs.after task (s.cursor stream)) :
    Traced logs s d := by
  refine ⟨event.id, h.lastEventId, fun i hi => ?_⟩
  rw [h.origin] at hi
  rw [h.taskId]
  cases stream with
  | own taskId => cases hi
  | submission j =>
      cases hi
      exact hs.behind htask hevent

/-- What the streams read stays behind what their submissions answer. -/
theorem streams_of_extends {s t : State} (h : s.dispatch.submissions <+: t.dispatch.submissions)
    (hnew : ∀ i, s.dispatch.submissions.length ≤ i → t.lastRead (.submission i) = none)
    (hold : ∀ i task opening c, s.answers i = some (task, opening) →
      t.lastRead (.submission i) = some c → Behind logs task opening c)
    (i : Nat) (task opening c : Text) (hanswer : t.answers i = some (task, opening))
    (hread : t.lastRead (.submission i) = some c) : Behind logs task opening c := by
  by_cases hi : i < s.dispatch.submissions.length
  · rw [answers_eq h hi] at hanswer
    exact hold i task opening c hanswer hread
  · rw [hnew i (Nat.not_lt.mp hi)] at hread
    cases hread

theorem Chained.received {s t : State} (hs : Chained logs s) (hopened : Opened s) {task : Text}
    {stream : Stream} {event : BridgeSSEEvent} (htask : s.taskOf stream = some task)
    (hevent : event ∈ logs.after task (s.cursor stream))
    (hadds : Adds D task stream event s.dispatch t.dispatch)
    (hread : t.lastRead = (s.read stream event).lastRead) : Chained logs t := by
  have hsubs := hadds.submissions
  refine ⟨fun sub hsub => ?_, fun e he => ?_, ?_⟩
  · cases hadds with
    | nothing hexecutions hsubmissions | execution e he hphase hexecutions hsubmissions =>
        rw [hsubmissions] at hsub
        exact (hs.submissions sub hsub).mono hsubs
    | submission new hands hexecutions hsubmissions =>
        rw [hsubmissions] at hsub
        cases List.mem_append.mp hsub with
        | inl hold => exact (hs.submissions sub hold).mono hsubs
        | inr hnew =>
            rw [List.mem_singleton.mp hnew]
            exact (hands.traced hs htask hevent).mono hsubs
  · cases hadds with
    | nothing hexecutions hsubmissions | submission sub hsub hexecutions hsubmissions =>
        rw [hexecutions] at he
        exact (hs.executions e he).mono hsubs
    | execution new hands hphase hexecutions hsubmissions =>
        rw [hexecutions] at he
        cases List.mem_append.mp he with
        | inl hold => exact (hs.executions e hold).mono hsubs
        | inr hnew =>
            rw [List.mem_singleton.mp hnew]
            exact (hands.traced hs htask hevent).mono hsubs
  · refine streams_of_extends hsubs (fun i hi => ?_) fun i task' opening c hanswer hc => ?_
    · rw [hread]
      exact (hopened.read htask event).lastRead i hi
    · rw [hread] at hc
      by_cases heq : Stream.submission i = stream
      · subst heq
        obtain ⟨opening', hanswer', hbehind⟩ := hs.behind htask hevent
        cases hanswer.symm.trans hanswer'
        cases (Function.update_self _ _ _).symm.trans hc
        exact hbehind
      · rw [read_of_ne heq] at hc
        exact hs.streams i task' opening c hanswer hc

theorem Chained.advanced {s t : State} (hs : Chained logs s) (hopened : Opened s) {n : Nat}
    {e : Execution} (hget : s.dispatch.executions[n]? = some e)
    (hadvances : Advances D n e s.dispatch t.dispatch) (hread : t.lastRead = s.lastRead) :
    Chained logs t := by
  have hsubs := hadvances.submissions
  have htraced : Traced logs s e.delivery := hs.executions e (List.mem_of_getElem? hget)
  have hmodified {f : Execution → Execution} (hf : (f e).delivery = e.delivery)
      (hexecutions : t.dispatch.executions = s.dispatch.executions.modify n f) :
      ∀ e ∈ t.dispatch.executions, Traced logs t e.delivery := by
    rw [hexecutions]
    refine forall_mem_modify (fun other hmem => (hs.executions other hmem).mono hsubs) ?_
    intro before hbefore
    cases hget.symm.trans hbefore
    rw [hf]
    exact htraced.mono hsubs
  have hstreams := streams_of_extends (t := t) hsubs
    (fun i hi => by rw [hread]; exact hopened.lastRead i hi)
    fun i task opening c hanswer hc => hs.streams i task opening c hanswer (by rw [← hread, hc])
  cases hadvances with
  | moved f hf hphase hexecutions hsubmissions =>
      refine ⟨fun sub hsub => ?_, hmodified hf hexecutions, hstreams⟩
      rw [hsubmissions] at hsub
      exact (hs.submissions sub hsub).mono hsubs
  | recorded f hf hphase hcost new hnew hexecutions hsubmissions =>
      refine ⟨fun sub hsub => ?_, hmodified hf hexecutions, hstreams⟩
      rw [hsubmissions] at hsub
      cases List.mem_append.mp hsub with
      | inl hold => exact (hs.submissions sub hold).mono hsubs
      | inr hlast =>
          rw [List.mem_singleton.mp hlast, hnew]
          exact htraced.mono hsubs

/-- Step: what is handed on stays behind what its stream was opened with. -/
theorem Turn.chained {s t : State} {task : Text} (h : Turn D logs task s t) (hopened : Opened s)
    (hs : Chained logs s) : Chained logs t := by
  cases h with
  | received stream event htask hevent hopen hadds hended hread =>
      exact hs.received hopened htask hevent hadds hread
  | advanced n e hget htask hadvances hended hread =>
      exact hs.advanced hopened hget hadvances hread
  | ended i sub failed hget htask hopen hdispatch hread =>
      have hsubs : t.dispatch.submissions = s.dispatch.submissions := by rw [hdispatch]
      have hmono : s.dispatch.submissions <+: t.dispatch.submissions := by rw [hsubs]
      refine ⟨fun sub hsub => ?_, fun e he => ?_, ?_⟩
      · rw [hsubs] at hsub
        exact (hs.submissions sub hsub).mono hmono
      · rw [hdispatch] at he
        exact (hs.executions e he).mono hmono
      · exact streams_of_extends hmono (fun i hi => by rw [hread]; exact hopened.lastRead i hi)
          fun i task opening c hanswer hc =>
            hs.streams i task opening c hanswer (by rw [← hread, hc])

theorem chained_of_run {past : List Action} {s : State} (h : Run (step D logs) {} past s) :
    Chained logs s := by
  refine Run.invariant_of (I := fun _ s => Opened s) (J := fun _ s => Chained logs s)
    (fun _ _ => opened_of_run) ?_ ?_ h
  · refine ⟨fun sub hsub => ?_, fun e he => ?_, fun i task opening c hanswer hc => ?_⟩
    · cases hsub
    · cases he
    · cases hc
  · intro past s a t hopened hs hstep
    obtain ⟨task, -, hturn⟩ := step_turn hstep
    exact hturn.chained hopened hs

theorem Triggers.behind {s : State} (hs : Chained logs s) {i j : Nat} (h : Triggers s i j) :
    ∃ task c c', s.answers i = some (task, c) ∧ s.answers j = some (task, c') ∧
      Behind logs task c c' := by
  obtain ⟨sub, hget, horigin⟩ := h
  obtain ⟨c', hcursor, htraced⟩ := hs.submissions sub (List.mem_of_getElem? hget)
  obtain ⟨c, hanswer, hbehind⟩ := htraced i horigin
  exact ⟨sub.delivery.taskId, c, c', hanswer, by simp [State.answers, hget, hcursor], hbehind⟩

theorem behind_of_chain {s : State} (hs : Chained logs s) {i j : Nat}
    (h : Relation.TransGen (Triggers s) i j) :
    ∃ task c c', s.answers i = some (task, c) ∧ s.answers j = some (task, c') ∧
      Behind logs task c c' := by
  induction h with
  | single edge => exact edge.behind hs
  | tail _ edge ih =>
      obtain ⟨task, c, c', hi, hk, hbehind⟩ := ih
      obtain ⟨task', k, c'', hk', hj, hlast⟩ := edge.behind hs
      cases hk.symm.trans hk'
      exact ⟨task, c, c'', hi, hj, hbehind.trans hlast⟩

/-- The cascade of a task is finite, and along a chain of submissions each set off by
the stream of the one before the cursors strictly increase. -/
theorem cascade_finite {past : List Action} {s : State} (h : Run (step D logs) {} past s) :
    s.steps.length = past.length ∧
      (∀ taskId, s.steps.count taskId ≤ cascadeBudget D logs taskId none) ∧
      ∀ i j, Relation.TransGen (Triggers s) i j →
        ∃ taskId c c', s.answers i = some (taskId, c) ∧ s.answers j = some (taskId, c') ∧
          Behind logs taskId c c' ∧ ¬ Behind logs taskId c' c := by
  refine ⟨(steps_of_run [] h).1, fun taskId => ?_, fun i j hchain => ?_⟩
  · exact Nat.le_trans (Nat.le_add_right _ _) (steps_of_run taskId h).2
  · obtain ⟨taskId, c, c', hi, hj, hbehind⟩ := behind_of_chain (chained_of_run h) hchain
    exact ⟨taskId, c, c', hi, hj, hbehind, hbehind.asymm⟩

end Chains

/-! ## A cascade

The task's own stream gives the first call, the stream that its answer opens gives the
second, and the own stream then gives the second again. -/

def twoCalls : TaskLogs where
  events taskId :=
    if taskId = "task".toList then
      [⟨"1:1".toList, .toolUse (callAt "call-1" [] 0).toolUse⟩,
        ⟨"1:2".toList, .toolUse (callAt "call-2" [] 0).toolUse⟩]
    else []
  cursors taskId := by
    split
    · decide
    · exact List.nodup_nil

def cascaded : List Action :=
  let returned := RunEnd.returned (.success (.str "done".toList))
  [.receive (.own "task".toList) "1:1".toList 0,
    .proceed (.acquire 0), .proceed (.attempt 0 1), .proceed (.finish 0 returned),
    .receive (.submission 0) "1:2".toList 2,
    .proceed (.acquire 1), .proceed (.attempt 1 3), .proceed (.finish 1 returned),
    .receive (.own "task".toList) "1:2".toList 4, .proceed (.endSubmission 2 false)]

theorem cascade_finite_cascaded :
    ∃ s, Run (step singleTool twoCalls) {} cascaded s ∧ s.steps.length = 10 ∧
      s.steps.count "task".toList ≤ cascadeBudget singleTool twoCalls "task".toList none ∧
      ∃ taskId c c', s.answers 0 = some (taskId, c) ∧ s.answers 1 = some (taskId, c') ∧
        Behind twoCalls taskId c c' ∧ ¬ Behind twoCalls taskId c' c := by
  have hrun : Run (step singleTool twoCalls) {} cascaded _ := .of_foldlM rfl
  have hfinite := cascade_finite hrun
  exact ⟨_, hrun, hfinite.1, hfinite.2.1 _, hfinite.2.2 0 1 (.single ⟨_, rfl, rfl⟩)⟩

end DualeAI.Cascade
