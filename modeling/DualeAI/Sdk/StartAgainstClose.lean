import DualeAI.Sdk.ManifestAgreement

/-!
A `start` that has begun against an `aclose` that is called later.

`aclose` cancels and awaits the start that the constructor scheduled, but it
knows nothing of an explicit one: that one goes on, registers again or begins a
heartbeat loop, and nothing deregisters it. Where no explicit start is in flight
and nothing goes wrong in `aclose` itself, its end is the end of all publishing.
-/
namespace DualeAI.Agent
open Foundation

def Event.isMessage : Event → Bool
  | .registration _ | .heartbeat _ | .deregistration _ => true
  | .hashed _ | .acknowledged _ => false

def Event.isHeartbeat : Event → Bool
  | .heartbeat _ => true
  | _ => false

def Event.isDeregistration : Event → Bool
  | .deregistration _ => true
  | _ => false

def heartbeats (log : List Event) : List Event := log.filter Event.isHeartbeat

def lastMessage (log : List Event) : Option Event := (log.filter Event.isMessage).getLast?

/-- Nothing was sent, or a deregistration was sent last. -/
def Withdrawn (log : List Event) : Prop :=
  ∀ message ∈ lastMessage log, message.isDeregistration = true

def Action.isStart : Action → Bool
  | .start => true
  | _ => false

/-! ## The condition -/

/-- A return or a cancellation. -/
def quiet : Outcome → Bool
  | .ok _ | .error .cancelled => true
  | .error _ => false

/-- How the await of a task may end. An `aclose` finds no task that failed by
itself, gets the events client and is not interrupted when it deregisters; nor
does the handler of a failed start find no client. -/
def endsCalmly (s : Manager) (outcome : Outcome) : Task → Bool
  | .closing (.startupTask task) | .closing (.heartbeatTask task) =>
      (s.taskResult task).all fun result => quiet (outcome.bind fun _ => result)
  | .closing (.deregistration (.client _)) => outcome.isOk
  | .closing (.deregistration .sending) =>
      match outcome with
      | .ok _ => true
      | .error e => e.isException
  | .starting (.deregistration (.client _) _) =>
      match outcome with
      | .ok _ => true
      | .error e => !e.isException
  | _ => true

/-- No explicit start overlaps an `aclose`, and what is awaited ends calmly. -/
def calm (s : Manager) (a : Action) : Bool :=
  s.separate a &&
    match a with
    | .resume i outcome _ => (s.tasks[i]?).all (endsCalmly s outcome)
    | .registerTools _ | .start | .aclose => true

variable {H : Host} {P Q : Publisher} {s t : Manager} {log : List Event} {e : Event}

theorem lastMessage_message (h : e.isMessage = true) : lastMessage (log ++ [e]) = some e := by
  simp [lastMessage, List.filter_append, h]

theorem lastMessage_other (h : e.isMessage = false) :
    lastMessage (log ++ [e]) = lastMessage log := by
  rw [lastMessage, List.filter_append, List.filter_singleton, h, cond_false, List.append_nil,
    lastMessage]

theorem withdrawn_deregistration (message : AgentDeregistrationMessage) :
    Withdrawn (log ++ [.deregistration message]) := by
  rw [Withdrawn, lastMessage_message rfl]
  rintro _ ⟨⟩
  rfl

theorem withdrawn_other (h : e.isMessage = false) (hlog : Withdrawn log) :
    Withdrawn (log ++ [e]) := by
  rw [Withdrawn, lastMessage_other h]
  exact hlog

/-! ## Registered while published -/

/-- What was published is registered, unless it is withdrawn, and only an agent
registers. -/
structure Registered (H : Host) (P : Publisher) : Prop where
  withdrawn : P.lifecycleRegistered = false → Withdrawn P.log
  agent : P.lifecycleRegistered = true → H.agentId.isSome = true

def RegistrationPoint.Registered (P : Publisher) : RegistrationPoint → Prop
  | .client _ => True
  | .sending _ _ => P.lifecycleRegistered = true

def DeregistrationPoint.Registered (P : Publisher) : DeregistrationPoint → Prop
  | .client _ => True
  | .sending => Withdrawn P.log

/-- What a task has published at its await. -/
def Task.Registered (H : Host) (P : Publisher) : Task → Prop
  | .starting (.registration point) => H.agentId.isSome = true ∧ point.Registered P
  | .starting (.heartbeat _) | .beating _ => P.lifecycleRegistered = true
  | .starting (.deregistration point _) | .closing (.deregistration point) => point.Registered P
  | _ => True

theorem Registered.of_registered (hregistered : Q.lifecycleRegistered = true)
    (hagent : H.agentId.isSome = true) : Registered H Q :=
  ⟨fun hnot => absurd hregistered (Bool.eq_false_iff.mp hnot), fun _ => hagent⟩

theorem resumeRegistration_registered (reading : Reading) (outcome : Outcome)
    {point : RegistrationPoint} (hagent : H.agentId.isSome = true) (h : Registered H P)
    (hpoint : point.Registered P) :
    Registered H (resumeRegistration H reading P outcome point).1 ∧
      (P.lifecycleRegistered = true →
        (resumeRegistration H reading P outcome point).1.lifecycleRegistered = true) ∧
      (resumeRegistration H reading P outcome point).2.Holds
        (fun point' => point'.Registered (resumeRegistration H reading P outcome point).1)
        (fun _ => (resumeRegistration H reading P outcome point).1.lifecycleRegistered = true) := by
  cases point with
  | client snapshot =>
      cases outcome with
      | ok u => exact ⟨.of_registered rfl hagent, fun _ => rfl, rfl⟩
      | error e => exact ⟨h, id, trivial⟩
  | sending snapshot message =>
      cases outcome with
      | ok u => exact ⟨.of_registered hpoint hagent, fun _ => hpoint, hpoint⟩
      | error e => exact ⟨h, id, trivial⟩

theorem resumeHeartbeat_registered (reading : Reading) (outcome : Outcome)
    {point : HeartbeatPoint} (h : Registered H P) (hregistered : P.lifecycleRegistered = true) :
    Registered H (resumeHeartbeat H reading P outcome point).1 ∧
      (resumeHeartbeat H reading P outcome point).1.lifecycleRegistered = true := by
  have hagent := h.agent hregistered
  cases point with
  | registration point =>
      have hpoint : point.Registered P := by
        cases point with
        | client snapshot => trivial
        | sending snapshot message => exact hregistered
      obtain ⟨hafter, hkeeps, -⟩ := resumeRegistration_registered reading outcome hagent h hpoint
      exact ⟨hafter, hkeeps hregistered⟩
  | client snapshot =>
      cases outcome with
      | ok u => exact ⟨.of_registered hregistered hagent, hregistered⟩
      | error e => exact ⟨h, hregistered⟩
  | sending => cases outcome <;> exact ⟨h, hregistered⟩

theorem deregister_eq_some {reason : String} {point : DeregistrationPoint} :
    P.deregister H reason = some point ↔
      (P.lifecycleRegistered = true ∧ H.agentId.isSome = true) ∧ .client reason = point := by
  rw [Publisher.deregister]
  rw [Option.ite_none_right_eq_some, Option.some.injEq, Bool.and_eq_true]

/-- How the await of a deregistration may end, so that it is sent before the
registration is given up. -/
def DeregistrationPoint.sends (outcome : Outcome) : DeregistrationPoint → Prop
  | .client _ => ∀ e, outcome = .error e → e.isException = false
  | .sending => True

theorem resumeDeregistration_registered {outcome : Outcome} {point : DeregistrationPoint}
    (hsends : point.sends outcome) (h : Registered H P) (hpoint : point.Registered P) :
    Registered H (resumeDeregistration H P outcome point).1 ∧
      (resumeDeregistration H P outcome point).2.Holds
        (fun point' => point'.Registered (resumeDeregistration H P outcome point).1)
        (fun _ => True) := by
  cases point with
  | client reason =>
      cases outcome with
      | ok u =>
          have hsent : Withdrawn (P.sendDeregistration H reason).log := withdrawn_deregistration _
          exact ⟨⟨fun _ => hsent, h.agent⟩, hsent⟩
      | error e =>
          simp only [resumeDeregistration, hsends e rfl]
          exact ⟨h, trivial⟩
  | sending =>
      have hunregistered : Registered H P.unregister := ⟨fun _ => hpoint, fun hyes => by cases hyes⟩
      cases outcome with
      | ok u => exact ⟨hunregistered, trivial⟩
      | error e =>
          simp only [resumeDeregistration]
          split
          · exact ⟨hunregistered, trivial⟩
          · exact ⟨h, trivial⟩

/-- A deregistration sends nothing but itself. -/
theorem resumeDeregistration_cases (P : Publisher) (outcome : Outcome)
    (point : DeregistrationPoint) :
    (resumeDeregistration H P outcome point).1 = P ∨
      (resumeDeregistration H P outcome point).1 = P.unregister ∨
      ∃ reason, (resumeDeregistration H P outcome point).1 = P.sendDeregistration H reason := by
  cases point with
  | client reason =>
      cases outcome with
      | ok u => exact .inr (.inr ⟨reason, rfl⟩)
      | error e =>
          simp only [resumeDeregistration]
          split
          · exact .inr (.inl rfl)
          · exact .inl rfl
  | sending =>
      cases outcome with
      | ok u => exact .inr (.inl rfl)
      | error e =>
          simp only [resumeDeregistration]
          split
          · exact .inr (.inl rfl)
          · exact .inl rfl

theorem resumeDeregistration_withdrawn (outcome : Outcome) (point : DeregistrationPoint)
    (h : Withdrawn P.log) : Withdrawn (resumeDeregistration H P outcome point).1.log := by
  rcases resumeDeregistration_cases (H := H) P outcome point with hP | hP | ⟨reason, hP⟩
  · rw [hP]
    exact h
  · rw [hP]
    exact h
  · rw [hP]
    exact withdrawn_deregistration _

theorem resumeDeregistration_unregistered (outcome : Outcome) (point : DeregistrationPoint)
    (h : P.lifecycleRegistered = false) :
    (resumeDeregistration H P outcome point).1.lifecycleRegistered = false ∧
      heartbeats (resumeDeregistration H P outcome point).1.log = heartbeats P.log := by
  rcases resumeDeregistration_cases (H := H) P outcome point with hP | hP | ⟨reason, hP⟩
  · rw [hP]
    exact ⟨h, rfl⟩
  · rw [hP]
    exact ⟨rfl, rfl⟩
  · rw [hP]
    refine ⟨h, ?_⟩
    rw [Publisher.sendDeregistration, heartbeats, List.filter_append]
    exact List.append_nil _

/-- How the await of a task may end, as far as its messages go. -/
def Sends (task : Task) (outcome : Outcome) : Prop :=
  match task with
  | .starting (.deregistration point _) | .closing (.deregistration point) => point.sends outcome
  | _ => True

theorem registered_kept : Kept H Sends (Registered H) (Task.Registered H) where
  idle P task hidle := by
    cases task with
    | starting point => cases hidle
    | beating point => cases hidle
    | closing point =>
        cases point with
        | deregistration point => cases hidle
        | _ => trivial
    | _ => trivial
  tools P manifest h := ⟨⟨h.withdrawn, h.agent⟩, fun task => id⟩
  startLifecycle P hagent h :=
    ⟨⟨fun hnot => withdrawn_other rfl (h.withdrawn hnot), h.agent⟩, hagent, trivial⟩
  start reading P outcome point hsends h hpoint := by
    cases point with
    | registration point =>
        obtain ⟨hafter, -, hprogress⟩ :=
          resumeRegistration_registered reading outcome hpoint.1 h hpoint.2
        refine ⟨hafter, hprogress.nest (fun _ hnext => ⟨hpoint.1, hnext⟩) (fun _ => id) ?_⟩
        exact fun _ => trivial
    | heartbeat point =>
        obtain ⟨hafter, hregistered⟩ := resumeHeartbeat_registered reading outcome h hpoint
        have hprogress := Progress.holds_of_forall (fun _ => hregistered) (fun _ => hregistered)
          (resumeHeartbeat H reading P outcome point).2
        refine ⟨hafter, hprogress.nest (fun _ => id) (fun _ => id) fun e => ?_⟩
        refine startupFailed_holds e fun point hpoint => ?_
        obtain ⟨-, rfl⟩ := deregister_eq_some.mp hpoint
        trivial
    | deregistration point failure =>
        obtain ⟨hafter, hprogress⟩ := resumeDeregistration_registered hsends h hpoint
        exact ⟨hafter, hprogress.nest (fun _ => id) (fun _ _ => trivial) fun _ => trivial⟩
  loop reading P outcome point h hpoint := by
    cases point with
    | sleeping failures =>
        cases outcome with
        | ok u => exact ⟨.of_registered hpoint (h.agent hpoint), hpoint⟩
        | error e => exact ⟨h, trivial⟩
    | heartbeat failures point =>
        obtain ⟨hafter, hregistered⟩ := resumeHeartbeat_registered reading outcome h hpoint
        have hprogress := Progress.holds_of_forall (fun _ => hregistered) (fun _ => hregistered)
          (resumeHeartbeat H reading P outcome point).2
        refine ⟨hafter, hprogress.nest (fun _ => id) (fun _ => id) fun e => ?_⟩
        split
        · exact hregistered
        · trivial
  deregister P point _ hpoint := by
    obtain ⟨-, rfl⟩ := deregister_eq_some.mp hpoint
    trivial
  close P outcome point hsends h hpoint := by
    obtain ⟨hafter, hprogress⟩ := resumeDeregistration_registered hsends h hpoint
    refine ⟨hafter, hprogress, fun task hphase htask => ?_⟩
    cases task with
    | closing point' =>
        cases point' with
        | deregistration point' =>
            cases point' with
            | client reason => trivial
            | sending => exact resumeDeregistration_withdrawn outcome point htask
        | _ => cases hphase
    | _ => cases hphase

/-! ## Once an `aclose` has ended -/

/-- Nothing is left that could publish. -/
structure Idle (s : Manager) : Prop where
  registered : s.publisher.lifecycleRegistered = false
  withdrawn : Withdrawn s.publisher.log
  tasks : ∀ (i : Nat) (p : Phase), s.control.phases[i]? = some p → p.inStart = false ∧ p ≠ .beating

variable {i : Nat} {result outcome : Outcome}

theorem idle_of_order {c : Control} {new : Phase} (hc : c.Orderly)
    (hget : c.phases[i]? = some new) (hpast : new.pastHeartbeat = true) {j : Nat} {p : Phase}
    (hp : c.phases[j]? = some p) : p.inStart = false ∧ p ≠ .beating :=
  ⟨hc.no_start hget hp (Phase.pastStartup_of_pastHeartbeat hpast),
    (hc.apart i j _ p hget hp).loop hpast⟩

/-- An `aclose` past its waits ends. -/
theorem idle_finishClose {p : Phase} (hc : (s.control.put i p).Orderly)
    (hi : i < s.control.phases.length) (hpast : p.pastHeartbeat = true)
    (hregistered : s.publisher.lifecycleRegistered = false) (h : Registered H s.publisher) :
    Idle (s.finishClose i) := by
  refine ⟨hregistered, h.withdrawn hregistered, fun j q hq => ?_⟩
  rw [Manager.finishClose, Manager.endTask, Manager.control_suspend] at hq
  rcases getElem?_set_eq_some hq with ⟨-, rfl⟩ | ⟨hne, hold⟩
  · exact ⟨rfl, by decide⟩
  · have hput : (s.control.put i p).phases[j]? = some q := by
      rw [Control.put, List.getElem?_set_ne (Ne.symm hne)]
      exact hold
    exact idle_of_order hc (Manager.put_phase hi p rfl) hpast hput

theorem taskResult_closing {point : ClosePoint} (hi : i < s.control.phases.length) :
    (s.suspend i (.closing point)).taskResult i = none := by
  have hlen : i < s.tasks.length := by simpa [Manager.control] using hi
  simp only [Manager.taskResult, Manager.suspend, List.getElem?_set_self hlen]

theorem closeRegistration_idle (hc : (s.control.put i .heartbeatGone).Orderly)
    (hi : i < s.control.phases.length) (h : Registered H s.publisher)
    (hended : (s.closeRegistration H i).taskResult i = some result) :
    Idle (s.closeRegistration H i) := by
  unfold Manager.closeRegistration at hended ⊢
  split at hended
  · rw [taskResult_closing hi] at hended
    cases hended
  · next hnone =>
      have hregistered : s.publisher.lifecycleRegistered = false := by
        refine Bool.eq_false_of_not_eq_true fun hregistered => ?_
        have hsome : s.publisher.deregister H "shutdown" = some _ :=
          deregister_eq_some.mpr ⟨⟨hregistered, h.agent hregistered⟩, rfl⟩
        rw [hnone] at hsome
        cases hsome
      exact idle_finishClose hc hi rfl hregistered h

theorem closeHeartbeat_idle (hc : (s.control.put i .startupGone).Orderly)
    (hi : i < s.control.phases.length) (h : Registered H s.publisher)
    (hended : (s.closeHeartbeat H i).taskResult i = some result) :
    Idle (s.closeHeartbeat H i) := by
  unfold Manager.closeHeartbeat at hended ⊢
  split at hended
  · rw [taskResult_closing hi] at hended
    cases hended
  · next hnone =>
      have hmove := Control.Move.noHeartbeat i (Manager.put_phase hi .startupGone rfl) hnone
      rw [Manager.put_put] at hmove
      exact closeRegistration_idle (hmove.orderly hc) hi h hended

theorem resumeDeregistration_returned {point : DeregistrationPoint} {u : Unit}
    (h : (resumeDeregistration H P outcome point).2 = .returned u) :
    (resumeDeregistration H P outcome point).1.lifecycleRegistered = false := by
  cases point with
  | client reason =>
      cases outcome with
      | ok u => cases h
      | error e =>
          simp only [resumeDeregistration] at h ⊢
          split at h
          · next hexception => rw [if_pos hexception]; rfl
          · cases h
  | sending =>
      cases outcome with
      | ok u => rfl
      | error e =>
          simp only [resumeDeregistration] at h ⊢
          split at h
          · next hexception => rw [if_pos hexception]; rfl
          · cases h

theorem cancelTask_quiet (h : quiet (outcome.bind fun _ => result) = true) :
    Manager.cancelTask result outcome = .ok () := by
  rw [Manager.cancelTask]
  split
  · rfl
  · next hne =>
      cases hend : outcome.bind fun _ => result with
      | ok u => rfl
      | error e =>
          rw [hend] at h hne
          cases e with
          | cancelled => exact absurd rfl hne
          | _ => cases h

theorem deregistration_calm {point : DeregistrationPoint}
    (h : endsCalmly s outcome (.closing (.deregistration point)) = true) (e : Exc) :
    (resumeDeregistration H P outcome point).2 ≠ .raised e := by
  cases point with
  | client reason =>
      cases outcome with
      | ok u =>
          intro h
          cases h
      | error e => cases h
  | sending =>
      cases outcome with
      | ok u =>
          intro h
          cases h
      | error e =>
          have hexception : e.isException = true := h
          simp only [resumeDeregistration, hexception, if_true]
          intro h
          cases h

theorem sends_of_calm {task : Task} (h : endsCalmly s outcome task = true) :
    Sends task outcome := by
  cases task with
  | starting point =>
      cases point with
      | deregistration point failure =>
          cases point with
          | client reason =>
              rintro e rfl
              simpa [endsCalmly] using h
          | sending => trivial
      | _ => trivial
  | closing point =>
      cases point with
      | deregistration point =>
          cases point with
          | client reason =>
              rintro e rfl
              cases h
          | sending => trivial
      | _ => trivial
  | _ => trivial

/-- An `aclose` whose awaits end calmly ends with nothing left. -/
theorem resumeClose_idle {point : ClosePoint} (hs : s.Orderly) (hold : Registered H s.publisher)
    (h : Registered H t.publisher) (hget : s.tasks[i]? = some (.closing point))
    (hcalm : endsCalmly s outcome (.closing point) = true)
    (hresume : s.resumeClose H i outcome point = some t) (hended : t.taskResult i = some result) :
    Idle t := by
  have hphase := Manager.phase_of_task hget
  have hi := (List.getElem?_eq_some_iff.mp hphase).1
  cases point with
  | called =>
      cases hresume
      unfold Manager.close at hended ⊢
      split at hended
      · rw [taskResult_closing hi] at hended
        cases hended
      · next hnone =>
          have hmove := Control.Move.noStartup i hphase hnone
          exact closeHeartbeat_idle (hmove.orderly hs) hi hold hended
  | startupTask j =>
      obtain ⟨ended, htask, rfl⟩ := Option.map_eq_some_iff.mp hresume
      simp only [endsCalmly, htask, Option.all_some] at hcalm
      simp only [cancelTask_quiet hcalm] at hended ⊢
      have hmove := Control.Move.startupEnded i j hphase
        (Manager.phase_of_task (Manager.ended_of_taskResult htask))
      exact closeHeartbeat_idle (s := { s with startupTask := none }) (hmove.orderly hs) hi hold
        hended
  | heartbeatTask j =>
      obtain ⟨ended, htask, rfl⟩ := Option.map_eq_some_iff.mp hresume
      simp only [endsCalmly, htask, Option.all_some] at hcalm
      simp only [cancelTask_quiet hcalm] at hended ⊢
      have hmove := Control.Move.heartbeatEnded i j hphase
        (Manager.phase_of_task (Manager.ended_of_taskResult htask))
      exact closeRegistration_idle (s := { s with heartbeatTask := none }) (hmove.orderly hs) hi
        hold hended
  | deregistration point =>
      simp only [Manager.resumeClose] at hresume
      split at hresume
      · cases hresume
        rw [taskResult_closing
          (s := { s with publisher := (resumeDeregistration H s.publisher outcome point).1 }) hi]
          at hended
        cases hended
      · next hreturned =>
          cases hresume
          have hstay : (s.control.put i .deregistering).Orderly := by
            have hself : s.control.phases.set i .deregistering = s.control.phases :=
              set_eq_self hphase
            rw [Control.put, hself]
            exact hs
          exact idle_finishClose
            (s := { s with publisher := (resumeDeregistration H s.publisher outcome point).1 })
            hstay hi rfl (resumeDeregistration_returned hreturned) h
      · next hraised => exact absurd hraised (deregistration_calm hcalm _)

/-- A stretch of an `aclose` that leaves the publisher as `P`. -/
structure Closes (i : Nat) (P : Publisher) (s t : Manager) : Prop where
  publisher : t.publisher = P
  tasks : ∃ task, t.tasks = s.tasks.set i task ∧ task.phase.inStart = false ∧ task.phase ≠ .beating

theorem closes_suspend (point : ClosePoint) :
    Closes i s.publisher s (s.suspend i (.closing point)) := by
  refine ⟨rfl, _, rfl, ?_, ?_⟩
  · cases point <;> rfl
  · intro h
    cases point <;> cases h

theorem closes_endTask (result : Outcome) : Closes i s.publisher s (s.endTask i result) := by
  refine ⟨rfl, _, rfl, rfl, ?_⟩
  intro h
  cases h

/-- Only the tasks of the state it begins in matter. -/
theorem Closes.of_tasks {r : Manager} {P : Publisher} (h : Closes i P s t)
    (htasks : r.tasks = s.tasks) : Closes i P r t := by
  obtain ⟨task, hset, hphase⟩ := h.tasks
  rw [← htasks] at hset
  exact ⟨h.publisher, task, hset, hphase⟩

theorem closes_finishClose : Closes i s.publisher s (s.finishClose i) :=
  (closes_endTask (s := { s with startupDone := false }) (.ok ())).of_tasks rfl

theorem closes_closeRegistration : Closes i s.publisher s (s.closeRegistration H i) := by
  rw [Manager.closeRegistration]
  split
  · exact closes_suspend _
  · exact closes_finishClose

theorem closes_closeHeartbeat : Closes i s.publisher s (s.closeHeartbeat H i) := by
  rw [Manager.closeHeartbeat]
  split
  · exact closes_suspend _
  · exact closes_closeRegistration

theorem closes_resumeClose {point : ClosePoint}
    (hresume : s.resumeClose H i outcome point = some t) :
    ∃ P, Closes i P s t ∧
      (P = s.publisher ∨ ∃ point', P = (resumeDeregistration H s.publisher outcome point').1) := by
  cases point with
  | called =>
      cases hresume
      refine ⟨_, ?_, .inl rfl⟩
      rw [Manager.close]
      split
      · exact closes_suspend _
      · exact closes_closeHeartbeat
  | startupTask j =>
      obtain ⟨ended, -, rfl⟩ := Option.map_eq_some_iff.mp hresume
      refine ⟨_, ?_, .inl rfl⟩
      split
      · exact (closes_closeHeartbeat (s := { s with startupTask := none })).of_tasks rfl
      · exact closes_endTask _
  | heartbeatTask j =>
      obtain ⟨ended, -, rfl⟩ := Option.map_eq_some_iff.mp hresume
      refine ⟨_, ?_, .inl rfl⟩
      split
      · exact (closes_closeRegistration (s := { s with heartbeatTask := none })).of_tasks rfl
      · exact closes_endTask _
  | deregistration point =>
      refine ⟨_, ?_, .inr ⟨point, rfl⟩⟩
      simp only [Manager.resumeClose] at hresume
      split at hresume
      · cases hresume
        exact (closes_suspend (s := { s with publisher := _ }) _).of_tasks rfl
      · cases hresume
        exact (closes_finishClose (s := { s with publisher := _ })).of_tasks rfl
      · cases hresume
        exact (closes_endTask (s := { s with publisher := _ }) _).of_tasks rfl

theorem Idle.closes {P : Publisher} (h : Idle s) (hcloses : Closes i P s t)
    (hregistered : P.lifecycleRegistered = false) (hwithdrawn : Withdrawn P.log) : Idle t := by
  obtain ⟨rfl, task, htasks, hstart, hloop⟩ := hcloses
  refine ⟨hregistered, hwithdrawn, fun j p hp => ?_⟩
  obtain ⟨other, hother, rfl⟩ := Manager.control_phase.mp hp
  rw [htasks] at hother
  rcases getElem?_set_eq_some hother with ⟨-, rfl⟩ | ⟨-, hold⟩
  · exact ⟨hstart, hloop⟩
  · exact h.tasks j _ (Manager.phase_of_task hold)

/-- With nothing left that could publish, nothing does until a start is called. -/
theorem Idle.step {a : Action} (h : Idle s) (ha : a.isStart = false)
    (hstep : step H s a = some t) :
    Idle t ∧ heartbeats t.publisher.log = heartbeats s.publisher.log := by
  cases a with
  | registerTools manifest =>
      cases hstep
      exact ⟨⟨h.registered, h.withdrawn, h.tasks⟩, rfl⟩
  | start => cases ha
  | aclose =>
      cases hstep
      refine ⟨⟨h.registered, h.withdrawn, fun i p hp => ?_⟩, rfl⟩
      obtain ⟨task, hget, rfl⟩ := Manager.control_phase.mp hp
      rcases getElem?_concat_eq_some hget with hold | ⟨-, rfl⟩
      · exact h.tasks i _ (Manager.phase_of_task hold)
      · exact ⟨rfl, by decide⟩
  | resume i outcome reading =>
      obtain ⟨task, hget, hresume⟩ := Option.bind_eq_some_iff.mp hstep
      obtain ⟨hstart, hloop⟩ := h.tasks i _ (Manager.phase_of_task hget)
      cases task with
      | acquiring => cases hstart
      | starting point => cases hstart
      | beating point => exact absurd rfl hloop
      | closing point =>
          obtain ⟨P, hcloses, hP⟩ := closes_resumeClose hresume
          rcases hP with rfl | ⟨point', rfl⟩
          · rw [hcloses.publisher]
            exact ⟨h.closes hcloses h.registered h.withdrawn, rfl⟩
          · rw [hcloses.publisher]
            obtain ⟨hregistered, hheartbeats⟩ :=
              resumeDeregistration_unregistered (H := H) outcome point' h.registered
            have hwithdrawn := resumeDeregistration_withdrawn (H := H) outcome point' h.withdrawn
            exact ⟨h.closes hcloses hregistered hwithdrawn, hheartbeats⟩
      | ended result => cases hresume

/-! ## Runs -/

theorem Closes.resumes {P : Publisher} (h : Closes i P s t) :
    ∃ task new, t.tasks = (s.tasks ++ new).set i task := by
  obtain ⟨task, htasks, -⟩ := h.tasks
  refine ⟨task, [], ?_⟩
  rw [List.append_nil]
  exact htasks

/-- A resumed task changes, and may create tasks. -/
theorem resume_tasks {task : Task} {reading : Reading}
    (hresume : s.resume H i outcome reading task = some t) :
    ∃ task new, t.tasks = (s.tasks ++ new).set i task := by
  have hset (task : Task) : s.tasks.set i task = (s.tasks ++ []).set i task := by
    rw [List.append_nil]
  cases task with
  | acquiring =>
      simp only [Manager.resume] at hresume
      split at hresume
      · split at hresume
        · cases hresume
        · cases hresume
          rw [Manager.enterStart]
          split
          · exact ⟨_, [], hset _⟩
          · split
            · exact ⟨_, [], hset _⟩
            · split <;> exact ⟨_, [], hset _⟩
      · cases hresume
        exact ⟨_, [], hset _⟩
  | starting point =>
      simp only [Manager.resume] at hresume
      split at hresume
      · cases hresume
        exact ⟨_, [], hset _⟩
      · cases hresume
        rw [Manager.finishStart]
        split
        · exact ⟨_, _, rfl⟩
        · exact ⟨_, [], hset _⟩
      · cases hresume
        exact ⟨_, [], hset _⟩
  | beating point =>
      simp only [Manager.resume] at hresume
      split at hresume <;> cases hresume <;> exact ⟨_, [], hset _⟩
  | closing point =>
      obtain ⟨P, hcloses, -⟩ := closes_resumeClose hresume
      exact hcloses.resumes
  | ended result => cases hresume

theorem resume_other {task other : Task} {reading : Reading} {k : Nat} (hne : k ≠ i)
    (hresume : s.resume H i outcome reading task = some t) (hget : s.tasks[k]? = some other) :
    t.tasks[k]? = some other := by
  obtain ⟨task', new, htasks⟩ := resume_tasks hresume
  rw [htasks, List.getElem?_set_ne (Ne.symm hne),
    List.getElem?_append_left (List.getElem?_eq_some_iff.mp hget).1]
  exact hget

theorem ends_of_calm {task : Task} {reading : Reading}
    (hcalm : calm s (.resume i outcome reading) = true) (hget : s.tasks[i]? = some task) :
    endsCalmly s outcome task = true := by
  simpa only [calm, Manager.separate, hget, Option.all_some, Bool.true_and] using hcalm

/-- What calm runs keep. -/
structure Steady (H : Host) (s : Manager) : Prop where
  orderly : s.Orderly
  everywhere : Kept.Everywhere (Registered H) (Task.Registered H) s

theorem steady_created (autoStart : Bool) : Steady H (created autoStart) where
  orderly := Manager.orderly_created autoStart
  everywhere := by
    refine registered_kept.created ⟨fun _ message hmessage => ?_, fun hyes => ?_⟩ autoStart
    · cases hmessage
    · cases hyes

theorem Steady.step {a : Action} (h : Steady H s)
    (hstep : restrict calm (step H) s a = some t) : Steady H t := by
  obtain ⟨hcalm, hstep⟩ := restrict_eq_some.mp hstep
  have hseparate := (Bool.and_eq_true _ _ ▸ hcalm).1
  refine ⟨Manager.step_orderly (restrict_eq_some.mpr ⟨hseparate, hstep⟩) h.orderly, ?_⟩
  refine registered_kept.step h.orderly h.everywhere ?_ hstep
  rintro i outcome reading task rfl hget
  exact sends_of_calm (ends_of_calm hcalm hget)

theorem Steady.run {past : List Action} (hs : Steady H s)
    (hrun : Run (restrict calm (Agent.step H)) s past t) : Steady H t :=
  hrun.invariant (I := fun _ t => Steady H t) hs fun _ _ _ _ h hstep => h.step hstep

/-- An `aclose` runs, or nothing is left. -/
def Closing (k : Nat) (s : Manager) : Prop :=
  (∃ point, s.tasks[k]? = some (.closing point)) ∨ Idle s

theorem Closing.step {a : Action} {k : Nat} (hs : Steady H s) (h : Closing k s)
    (ha : a.isStart = false) (hstep : restrict calm (Agent.step H) s a = some t) :
    Closing k t := by
  have ht := hs.step hstep
  obtain ⟨hcalm, hstep⟩ := restrict_eq_some.mp hstep
  rcases h with ⟨point, hget⟩ | hidle
  · cases a with
    | registerTools manifest =>
        cases hstep
        exact .inl ⟨point, hget⟩
    | start => cases ha
    | aclose =>
        cases hstep
        refine .inl ⟨point, ?_⟩
        rw [List.getElem?_append_left (List.getElem?_eq_some_iff.mp hget).1]
        exact hget
    | resume i outcome reading =>
        obtain ⟨task, htask, hresume⟩ := Option.bind_eq_some_iff.mp hstep
        by_cases hk : k = i
        · subst hk
          rw [hget] at htask
          cases htask
          obtain ⟨P, hcloses, -⟩ := closes_resumeClose hresume
          obtain ⟨task, htasks, hstart, hloop⟩ := hcloses.tasks
          have hnew : t.tasks[k]? = some task := by
            rw [htasks]
            exact List.getElem?_set_self (List.getElem?_eq_some_iff.mp hget).1
          cases task with
          | acquiring => cases hstart
          | starting point => cases hstart
          | beating point => exact absurd rfl hloop
          | closing point => exact .inl ⟨point, hnew⟩
          | ended result =>
              have hended : t.taskResult k = some result := by rw [Manager.taskResult, hnew]
              exact .inr (resumeClose_idle hs.orderly hs.everywhere.publisher
                ht.everywhere.publisher hget (ends_of_calm hcalm hget) hresume hended)
        · exact .inl ⟨point, resume_other hk hresume hget⟩
  · exact .inr (hidle.step ha hstep).1

theorem Closing.run {k : Nat} {past : List Action} (hs : Steady H s) (h : Closing k s)
    (hrun : Run (restrict calm (Agent.step H)) s past t)
    (hstart : ∀ a ∈ past, a.isStart = false) : Closing k t := by
  have hclosing : (∀ a ∈ past, a.isStart = false) → Closing k t :=
    hrun.invariant_of (I := fun _ t => Steady H t)
      (J := fun past t => (∀ a ∈ past, a.isStart = false) → Closing k t)
      (fun _ _ hrun => hs.run hrun) (fun _ => h)
      fun past t a u ht hclosing hstep hpast => by
        obtain ⟨hbefore, hlast⟩ := List.forall_mem_append.mp hpast
        exact (hclosing hbefore).step ht (hlast a (List.mem_singleton_self a)) hstep
  exact hclosing hstart

theorem Idle.run {past : List Action} (h : Idle s) (hrun : Run (Agent.step H) s past t)
    (hstart : ∀ a ∈ past, a.isStart = false) :
    Idle t ∧ heartbeats t.publisher.log = heartbeats s.publisher.log := by
  have hidle : (∀ a ∈ past, a.isStart = false) →
      Idle t ∧ heartbeats t.publisher.log = heartbeats s.publisher.log :=
    hrun.invariant (I := fun past t => (∀ a ∈ past, a.isStart = false) →
        Idle t ∧ heartbeats t.publisher.log = heartbeats s.publisher.log) (fun _ => ⟨h, rfl⟩)
      fun past t a u hidle hstep hpast => by
        obtain ⟨hbefore, hlast⟩ := List.forall_mem_append.mp hpast
        obtain ⟨ht, hheartbeats⟩ := hidle hbefore
        obtain ⟨hu, hsame⟩ := ht.step (hlast a (List.mem_singleton_self a)) hstep
        exact ⟨hu, hsame.trans hheartbeats⟩
  exact hidle hstart

/-- An explicit start whose registration is in flight when `aclose` runs. -/
theorem explicit_start_survives :
    ¬ ∀ (before after : List Action) (s : Manager), (∀ a ∈ before ++ after, a.isStart = false) →
      Run (step host) (created false) (.start :: before ++ .aclose :: after) s →
      s.taskResult 0 = some (.ok ()) → s.taskResult 1 = some (.ok ()) →
      (∀ (i : Nat) (point : LoopPoint), s.tasks[i]? ≠ some (.beating point)) ∧
        Withdrawn s.publisher.log := by
  intro h
  have hrun : Run (step host) (created false) (.start :: [proceed 0, proceed 0] ++
      .aclose :: [proceed 1, proceed 1, proceed 1, proceed 0, proceed 0, proceed 0]) _ :=
    .of_foldlM rfl
  obtain ⟨hloop, -⟩ := h _ _ _ (by decide) hrun rfl rfl
  exact hloop 2 _ rfl

/-- Calls of `aclose` that begin where no explicit start is in flight, in runs where
every await ends calmly. Once such a call has ended and until a start is called:
no loop runs, no heartbeat is sent, and what was published is withdrawn. -/
theorem aclose_withdraws {autoStart : Bool} {before after more : List Action} {s t u v : Manager}
    (hbefore : Run (restrict calm (step H)) (created autoStart) before s)
    (hclose : restrict calm (step H) s .aclose = some t)
    (hafter : Run (restrict calm (step H)) t after u)
    (hended : u.taskResult s.tasks.length = some result) (hmore : Run (step H) u more v)
    (hstart : ∀ a ∈ after ++ more, a.isStart = false) :
    (∀ (i : Nat) (point : LoopPoint), v.tasks[i]? ≠ some (.beating point)) ∧
      heartbeats v.publisher.log = heartbeats u.publisher.log ∧ Withdrawn v.publisher.log := by
  obtain ⟨hquiet, hquietMore⟩ := List.forall_mem_append.mp hstart
  have hs := (steady_created autoStart).run hbefore
  have ht := hs.step hclose
  have hcalled : Closing s.tasks.length t := by
    obtain ⟨-, hstep⟩ := restrict_eq_some.mp hclose
    cases hstep
    exact .inl ⟨.called, List.getElem?_concat_length⟩
  have hidle : Idle u := by
    rcases hcalled.run ht hafter hquiet with ⟨point, hpoint⟩ | hidle
    · rw [Manager.taskResult, hpoint] at hended
      cases hended
    · exact hidle
  obtain ⟨hlast, hheartbeats⟩ := hidle.run hmore hquietMore
  refine ⟨fun i point hget => ?_, hheartbeats, hlast.withdrawn⟩
  exact absurd rfl (hlast.tasks i _ (Manager.phase_of_task hget)).2

/-- The start that the constructor scheduled is cancelled in its registration. -/
theorem aclose_withdraws_scheduled :
    ∃ s t u, Run (restrict calm (step host)) (created true) [proceed 0, proceed 0] s ∧
      restrict calm (step host) s .aclose = some t ∧
      Run (restrict calm (step host)) t [proceed 1, .resume 0 (.error .cancelled) ⟨0, 0⟩, proceed 1,
        proceed 1, proceed 1] u ∧
      (registrations u.publisher.log).length = 1 ∧ Withdrawn u.publisher.log := by
  have hbefore : Run (restrict calm (step host)) (created true) [proceed 0, proceed 0] _ :=
    .of_foldlM rfl
  have hlast (t u : Manager) (hclose : restrict calm (step host) _ .aclose = some t)
      (hafter : Run (restrict calm (step host)) t [proceed 1,
        .resume 0 (.error .cancelled) ⟨0, 0⟩, proceed 1, proceed 1, proceed 1] u)
      (hended : u.taskResult 1 = some (.ok ())) : Withdrawn u.publisher.log :=
    (aclose_withdraws hbefore hclose hafter hended .nil (by decide)).2.2
  refine ⟨_, _, _, hbefore, rfl, .of_foldlM rfl, rfl, ?_⟩
  exact hlast _ _ rfl (.of_foldlM rfl) rfl

end DualeAI.Agent
