import DualeAI.Foundation.Log
import DualeAI.Foundation.Versions
import DualeAI.Sdk.LifecycleOrder

/-!
Heartbeats and registrations agree.

What a registration carries was hashed before it was sent, and a heartbeat
carries the hash of the last registration that was acknowledged. The hash may
change only while the one task that publishes awaits a registration, so that no
heartbeat falls between a new hash and its acknowledgement.
-/
namespace DualeAI.Agent
open Foundation

/-! ## Reading the log -/

def Event.registration? : Event → Option AgentRegistrationMessage
  | .registration message => some message
  | _ => none

def Event.acknowledged? : Event → Option AgentRegistrationMessage
  | .acknowledged message => some message
  | _ => none

def registrations (log : List Event) : List AgentRegistrationMessage :=
  log.filterMap Event.registration?

def lastAcknowledged (log : List Event) : Option AgentRegistrationMessage :=
  (log.filterMap Event.acknowledged?).getLast?

/-- The publication ids that were sent, each with the hash it was sent with. -/
def publications (log : List Event) : List (Text × Text) :=
  (registrations log).map fun message => (message.manifestPublicationId, message.configHash)

/-- The message has the tools and the hash of a manifest that was hashed. -/
def Carries (H : Host) (before : List Event) (message : AgentRegistrationMessage) : Prop :=
  message.processId = processId H ∧ ∃ snapshot, .hashed snapshot ∈ before ∧
    snapshot.configHash = H.manifestHash snapshot.tools ∧ message.tools = snapshot.tools ∧
      message.configHash = snapshot.configHash

/-- What an event says about those before it. -/
def Agrees (H : Host) (before : List Event) : Event → Prop
  | .registration message => Carries H before message
  | .heartbeat message => message.processId = processId H ∧ ∃ registered,
      lastAcknowledged before = some registered ∧ .registration registered ∈ before ∧
        Carries H before registered ∧ message.configHash = registered.configHash
  | _ => True

variable {H : Host} {P Q : Publisher} {log : List Event} {e : Event}

theorem publications_concat (log : List Event) (e : Event) :
    publications (log ++ [e]) = publications log ++ publications [e] := by
  simp only [publications, registrations, List.filterMap_append, List.map_append]

theorem lastAcknowledged_concat (h : e.acknowledged? = none) :
    lastAcknowledged (log ++ [e]) = lastAcknowledged log := by
  simp [lastAcknowledged, List.filterMap_append, h]

theorem lastAcknowledged_acknowledged (log : List Event) (message : AgentRegistrationMessage) :
    lastAcknowledged (log ++ [.acknowledged message]) = some message := by
  simp [lastAcknowledged, List.filterMap_append, Event.acknowledged?]

theorem Carries.mono {before : List Event} {message : AgentRegistrationMessage}
    (h : Carries H before message) (hsub : before ⊆ log) : Carries H log message := by
  obtain ⟨hprocess, snapshot, hmem, hrest⟩ := h
  exact ⟨hprocess, snapshot, hsub hmem, hrest⟩

/-! ## The invariant -/

structure Agreed (H : Host) (P : Publisher) : Prop where
  agrees : Log.EachAgainstPast (Agrees H) P.log
  hashed : ∀ snapshot, .hashed snapshot ∈ P.log →
    snapshot.configHash = H.manifestHash snapshot.tools
  last : P.lastRegisteredConfigHash =
    (lastAcknowledged P.log).map AgentRegistrationMessage.configHash
  acknowledged : ∀ message ∈ lastAcknowledged P.log, .registration message ∈ P.log
  versions : Versioned (publications P.log)
  current : ∀ entry, (publications P.log).getLast? = some entry ↔
    P.manifestPublicationId = some entry.1 ∧ P.manifestPublicationConfigHash = some entry.2
  drawn : ∀ entry ∈ publications P.log, ∃ n < P.drawn, entry.1 = H.newUuid7 n

theorem Agreed.carries (h : Agreed H P) {message : AgentRegistrationMessage}
    (hmem : .registration message ∈ P.log) : Carries H P.log message := by
  obtain ⟨before, later, hlog⟩ := List.append_of_mem hmem
  refine (h.agrees before _ later hlog).mono ?_
  rw [hlog]
  exact List.subset_append_left _ _

/-- An event that is no registration and acknowledges none. -/
theorem Agreed.concat (h : Agreed H P) (hlog : Q.log = P.log ++ [e]) (hagrees : Agrees H P.log e)
    (hregistration : e.registration? = none) (hacknowledged : e.acknowledged? = none)
    (hhashed : ∀ snapshot, e = .hashed snapshot →
      snapshot.configHash = H.manifestHash snapshot.tools)
    (hlast : Q.lastRegisteredConfigHash = P.lastRegisteredConfigHash)
    (hid : Q.manifestPublicationId = P.manifestPublicationId)
    (hhash : Q.manifestPublicationConfigHash = P.manifestPublicationConfigHash)
    (hdrawn : P.drawn ≤ Q.drawn) : Agreed H Q := by
  have hpublications : publications Q.log = publications P.log := by
    rw [hlog, publications_concat]
    simp [publications, registrations, hregistration]
  refine ⟨?_, ?_, ?_, ?_, ?_, ?_, ?_⟩
  · rw [hlog]
    exact Log.eachAgainstPast_concat.mpr ⟨h.agrees, hagrees⟩
  · intro snapshot hmem
    rw [hlog] at hmem
    cases List.mem_append.mp hmem with
    | inl hold => exact h.hashed snapshot hold
    | inr hnew => exact hhashed snapshot (List.mem_singleton.mp hnew).symm
  · rw [hlast, hlog, lastAcknowledged_concat hacknowledged]
    exact h.last
  · rw [hlog, lastAcknowledged_concat hacknowledged]
    exact fun message hmem => List.mem_append_left _ (h.acknowledged message hmem)
  · rw [hpublications]
    exact h.versions
  · rw [hpublications, hid, hhash]
    exact h.current
  · rw [hpublications]
    intro entry hmem
    obtain ⟨n, hn, hentry⟩ := h.drawn entry hmem
    exact ⟨n, Nat.lt_of_lt_of_le hn hdrawn, hentry⟩

theorem agreed_initial : Agreed H {} where
  agrees := Log.eachAgainstPast_nil _
  hashed := nofun
  last := rfl
  acknowledged := nofun
  versions := .nil
  current _ := ⟨nofun, fun h => nomatch h.1⟩
  drawn := nofun

/-! ## The messages -/

theorem Agreed.snapshot (h : Agreed H P) :
    Agreed H (P.snapshot H).1 ∧ .hashed (P.snapshot H).2 ∈ (P.snapshot H).1.log := by
  refine ⟨h.concat rfl trivial rfl rfl ?_ rfl rfl rfl le_rfl,
    List.mem_append_right _ (by simp [Publisher.snapshot])⟩
  intro snapshot hsnapshot
  cases hsnapshot
  rfl

theorem Agreed.sendDeregistration (h : Agreed H P) (reason : String) :
    Agreed H (P.sendDeregistration H reason) :=
  h.concat rfl trivial rfl rfl nofun rfl rfl rfl (Nat.le_succ _)

theorem Agreed.unregister (h : Agreed H P) : Agreed H P.unregister :=
  ⟨h.agrees, h.hashed, h.last, h.acknowledged, h.versions, h.current, h.drawn⟩

/-- A heartbeat for the hash that was acknowledged last. -/
theorem Agreed.sendHeartbeat {snapshot : ManifestSnapshot} (h : Agreed H P)
    (hlast : P.lastRegisteredConfigHash = some snapshot.configHash) :
    Agreed H (P.sendHeartbeat H snapshot) := by
  refine h.concat rfl ?_ rfl rfl nofun rfl rfl rfl (Nat.le_succ _)
  rw [h.last] at hlast
  obtain ⟨registered, hregistered, hhash⟩ := Option.map_eq_some_iff.mp hlast
  have hsent := h.acknowledged registered hregistered
  exact ⟨rfl, registered, hregistered, hsent, h.carries hsent, hhash.symm⟩

theorem Agreed.acknowledge {message : AgentRegistrationMessage} (h : Agreed H P)
    (hsent : .registration message ∈ P.log) (reading : Reading) :
    Agreed H (P.acknowledge message reading) := by
  have hpublications : publications (P.acknowledge message reading).log = publications P.log := by
    rw [Publisher.acknowledge, publications_concat]
    exact List.append_nil _
  have hlast : lastAcknowledged (P.acknowledge message reading).log = some message :=
    lastAcknowledged_acknowledged P.log message
  refine ⟨Log.eachAgainstPast_concat.mpr ⟨h.agrees, trivial⟩, ?_, ?_, ?_, ?_, ?_, ?_⟩
  · intro snapshot hmem
    cases List.mem_append.mp hmem with
    | inl hold => exact h.hashed snapshot hold
    | inr hnew => cases List.mem_singleton.mp hnew
  · rw [hlast]
    rfl
  · rw [hlast]
    rintro _ ⟨⟩
    exact List.mem_append_left _ hsent
  · rw [hpublications]
    exact h.versions
  · rw [hpublications]
    exact h.current
  · rw [hpublications]
    exact h.drawn

/-- What `_registration_message` makes of the publication. -/
theorem registrationMessage_cases (P : Publisher) (snapshot : ManifestSnapshot) :
    (∃ id, P.manifestPublicationId = some id ∧
        P.manifestPublicationConfigHash = some snapshot.configHash ∧
        P.registrationMessage H snapshot =
          (P, ⟨processId H, snapshot.tools, snapshot.configHash, id⟩)) ∨
      ((∀ id, P.manifestPublicationId = some id →
          P.manifestPublicationConfigHash ≠ some snapshot.configHash) ∧
        P.registrationMessage H snapshot =
          ({ P with
              manifestPublicationId := some (H.newUuid7 P.drawn)
              manifestPublicationConfigHash := some snapshot.configHash
              drawn := P.drawn + 1 },
            ⟨processId H, snapshot.tools, snapshot.configHash, H.newUuid7 P.drawn⟩)) := by
  rw [Publisher.registrationMessage]
  split
  · next id hid hhash => exact .inl ⟨id, hid, eq_of_beq hhash, rfl⟩
  · next hnone =>
      refine .inr ⟨fun id hid hhash => ?_, rfl⟩
      exact hnone id hid (beq_iff_eq.mpr hhash)

/-- A registration sent under the publication `id`. -/
theorem Agreed.register {snapshot : ManifestSnapshot} {id : Text} (h : Agreed H P)
    (hsnapshot : .hashed snapshot ∈ P.log)
    (hlog : Q.log = P.log ++
      [.registration ⟨processId H, snapshot.tools, snapshot.configHash, id⟩])
    (hlast : Q.lastRegisteredConfigHash = P.lastRegisteredConfigHash)
    (hid : Q.manifestPublicationId = some id)
    (hhash : Q.manifestPublicationConfigHash = some snapshot.configHash)
    (hversions : Versioned (publications P.log ++ [(id, snapshot.configHash)]))
    (hdrawn : P.drawn ≤ Q.drawn) (hnew : ∃ n < Q.drawn, id = H.newUuid7 n) : Agreed H Q := by
  have hpublications : publications Q.log = publications P.log ++ [(id, snapshot.configHash)] := by
    rw [hlog, publications_concat]
    rfl
  refine ⟨?_, ?_, ?_, ?_, ?_, ?_, ?_⟩
  · rw [hlog]
    refine Log.eachAgainstPast_concat.mpr ⟨h.agrees, ?_⟩
    exact ⟨rfl, snapshot, hsnapshot, h.hashed snapshot hsnapshot, rfl, rfl⟩
  · intro hashed hmem
    rw [hlog] at hmem
    cases List.mem_append.mp hmem with
    | inl hold => exact h.hashed hashed hold
    | inr hregistration => cases List.mem_singleton.mp hregistration
  · rw [hlast, hlog, lastAcknowledged_concat rfl]
    exact h.last
  · rw [hlog, lastAcknowledged_concat rfl]
    exact fun message hmem => List.mem_append_left _ (h.acknowledged message hmem)
  · rw [hpublications]
    exact hversions
  · rw [hpublications, List.getLast?_concat, hid, hhash]
    intro entry
    simp only [Option.some.injEq, Prod.ext_iff]
  · rw [hpublications]
    intro entry hmem
    cases List.mem_append.mp hmem with
    | inl hold =>
        obtain ⟨n, hn, hentry⟩ := h.drawn entry hold
        exact ⟨n, Nat.lt_of_lt_of_le hn hdrawn, hentry⟩
    | inr hlast =>
        rw [List.mem_singleton.mp hlast]
        exact hnew

theorem Agreed.sendRegistration {snapshot : ManifestSnapshot}
    (hfresh : Function.Injective H.newUuid7) (h : Agreed H P)
    (hsnapshot : .hashed snapshot ∈ P.log) :
    Agreed H (P.sendRegistration H snapshot).1 ∧
      .hashed snapshot ∈ (P.sendRegistration H snapshot).1.log ∧
      .registration (P.sendRegistration H snapshot).2 ∈ (P.sendRegistration H snapshot).1.log ∧
      (P.sendRegistration H snapshot).2.configHash = snapshot.configHash := by
  rw [Publisher.sendRegistration]
  rcases registrationMessage_cases (H := H) P snapshot with
    ⟨id, hid, hhash, hmessage⟩ | ⟨hchanged, hmessage⟩
  · -- the publication goes on
    rw [hmessage]
    have hcurrent := (h.current (id, snapshot.configHash)).mpr ⟨hid, hhash⟩
    obtain ⟨n, hn, hdrawn⟩ := h.drawn _ (List.mem_of_getLast? hcurrent)
    refine ⟨?_, List.mem_append_left _ hsnapshot,
      List.mem_append_right _ (List.mem_singleton_self _), rfl⟩
    exact h.register hsnapshot rfl rfl hid hhash (h.versions.again hcurrent) le_rfl ⟨n, hn, hdrawn⟩
  · -- a new one, whose id was not drawn before
    rw [hmessage]
    refine ⟨?_, List.mem_append_left _ hsnapshot,
      List.mem_append_right _ (List.mem_singleton_self _), rfl⟩
    refine h.register hsnapshot rfl rfl rfl rfl ?_ (Nat.le_succ _)
      ⟨P.drawn, Nat.lt_succ_self _, rfl⟩
    refine h.versions.fresh ?_ ?_
    · intro entry hmem heq
      obtain ⟨n, hn, hdrawn⟩ := h.drawn entry hmem
      exact absurd (hfresh (hdrawn.symm.trans heq)) (Nat.ne_of_lt hn)
    · intro entry hmem heq
      obtain ⟨hid, hhash⟩ := (h.current entry).mp hmem
      exact hchanged _ hid (heq ▸ hhash)

/-! ## The coroutines -/

def RegistrationPoint.Knows (P : Publisher) : RegistrationPoint → Prop
  | .client snapshot => .hashed snapshot ∈ P.log
  | .sending snapshot message => .hashed snapshot ∈ P.log ∧ .registration message ∈ P.log ∧
      message.configHash = snapshot.configHash

def HeartbeatPoint.Knows (P : Publisher) : HeartbeatPoint → Prop
  | .registration point => point.Knows P
  | .client snapshot => P.lastRegisteredConfigHash = some snapshot.configHash
  | .sending => True

/-- What a task relies on at its await. -/
def Task.Knows (P : Publisher) : Task → Prop
  | .starting (.registration point) => point.Knows P
  | .starting (.heartbeat point) | .beating (.heartbeat _ point) => point.Knows P
  | _ => True

theorem knows_sendHeartbeatOnce {snapshot : ManifestSnapshot} (hsnapshot : .hashed snapshot ∈ P.log)
    (reading : Reading) : (P.sendHeartbeatOnce snapshot reading).Knows P := by
  rw [Publisher.sendHeartbeatOnce]
  split
  · exact hsnapshot
  · next h => exact not_ne_iff.mp (not_or.mp h).1

theorem resumeRegistration_agreed (hfresh : Function.Injective H.newUuid7) (reading : Reading)
    (outcome : Outcome) {point : RegistrationPoint} (h : Agreed H P) (hpoint : point.Knows P) :
    Agreed H (resumeRegistration H reading P outcome point).1 ∧
      (resumeRegistration H reading P outcome point).2.Holds
        (fun point' => point'.Knows (resumeRegistration H reading P outcome point).1)
        (fun snapshot => .hashed snapshot ∈ (resumeRegistration H reading P outcome point).1.log ∧
          (resumeRegistration H reading P outcome point).1.lastRegisteredConfigHash =
            some snapshot.configHash) := by
  cases point with
  | client snapshot =>
      cases outcome with
      | ok u => exact h.sendRegistration hfresh hpoint
      | error e => exact ⟨h, trivial⟩
  | sending snapshot message =>
      cases outcome with
      | ok u =>
          obtain ⟨hsnapshot, hsent, hhash⟩ := hpoint
          exact ⟨h.acknowledge hsent reading, List.mem_append_left _ hsnapshot,
            congrArg some hhash⟩
      | error e => exact ⟨h, trivial⟩

theorem resumeHeartbeat_agreed (hfresh : Function.Injective H.newUuid7) (reading : Reading)
    (outcome : Outcome) {point : HeartbeatPoint} (h : Agreed H P) (hpoint : point.Knows P) :
    Agreed H (resumeHeartbeat H reading P outcome point).1 ∧
      (resumeHeartbeat H reading P outcome point).2.Holds
        (fun point' => point'.Knows (resumeHeartbeat H reading P outcome point).1)
        (fun _ => True) := by
  cases point with
  | registration point =>
      obtain ⟨hagreed, hprogress⟩ := resumeRegistration_agreed hfresh reading outcome h hpoint
      exact ⟨hagreed, hprogress.nest (fun _ => id) (fun _ h => h.2) fun _ => trivial⟩
  | client snapshot =>
      cases outcome with
      | ok u => exact ⟨h.sendHeartbeat hpoint, trivial⟩
      | error e => exact ⟨h, trivial⟩
  | sending => cases outcome <;> exact ⟨h, trivial⟩

theorem resumeDeregistration_agreed (outcome : Outcome) (point : DeregistrationPoint)
    (h : Agreed H P) : Agreed H (resumeDeregistration H P outcome point).1 := by
  cases point with
  | client reason =>
      cases outcome with
      | ok u => exact h.sendDeregistration reason
      | error e =>
          simp only [resumeDeregistration]
          split
          · exact h.unregister
          · exact h
  | sending =>
      cases outcome with
      | ok u => exact h.unregister
      | error e =>
          simp only [resumeDeregistration]
          split
          · exact h.unregister
          · exact h

theorem agreed_kept (hfresh : Function.Injective H.newUuid7) :
    Kept H (fun _ _ => True) (Agreed H) Task.Knows where
  idle P task hidle := by
    cases task with
    | starting point => cases hidle
    | beating point => cases hidle
    | _ => trivial
  tools P manifest h :=
    ⟨⟨h.agrees, h.hashed, h.last, h.acknowledged, h.versions, h.current, h.drawn⟩,
      fun task => id⟩
  startLifecycle P _ h := h.snapshot
  start reading P outcome point _ h hpoint := by
    cases point with
    | registration point =>
        obtain ⟨hagreed, hprogress⟩ := resumeRegistration_agreed hfresh reading outcome h hpoint
        refine ⟨hagreed, hprogress.nest (fun _ => id) (fun snapshot hsnapshot => ?_)
          fun _ => trivial⟩
        exact knows_sendHeartbeatOnce hsnapshot.1 reading
    | heartbeat point =>
        obtain ⟨hagreed, hprogress⟩ := resumeHeartbeat_agreed hfresh reading outcome h hpoint
        refine ⟨hagreed, hprogress.nest (fun _ => id) (fun _ => id) fun e => ?_⟩
        exact startupFailed_holds e fun point _ => trivial
    | deregistration point failure =>
        refine ⟨resumeDeregistration_agreed outcome point h, ?_⟩
        have hprogress := Progress.holds_of_forall (S := fun _ => True) (R := fun _ => True)
          (fun _ => trivial) (fun _ => trivial) (resumeDeregistration H P outcome point).2
        exact hprogress.nest (fun _ _ => trivial) (fun _ _ => trivial) fun _ => trivial
  loop reading P outcome point h hpoint := by
    cases point with
    | sleeping failures =>
        cases outcome with
        | ok u =>
            obtain ⟨hagreed, hsnapshot⟩ := h.snapshot
            exact ⟨hagreed, knows_sendHeartbeatOnce hsnapshot reading⟩
        | error e => exact ⟨h, trivial⟩
    | heartbeat failures point =>
        obtain ⟨hagreed, hprogress⟩ := resumeHeartbeat_agreed hfresh reading outcome h hpoint
        refine ⟨hagreed, hprogress.nest (fun _ => id) (fun _ _ => trivial) fun e => ?_⟩
        split <;> trivial
  deregister _ _ _ _ := trivial
  close P outcome point _ h _ := by
    refine ⟨resumeDeregistration_agreed outcome point h, ?_, ?_⟩
    · exact Progress.holds_of_forall (fun _ => trivial) (fun _ => trivial) _
    · intro task hphase _
      cases task with
      | closing point => trivial
      | _ => cases hphase

/-! ## Runs -/

section Runs
variable {autoStart : Bool} {past : List Action} {s : Manager}

theorem orderly_of_run
    (hrun : Run (restrict Manager.separate (step H)) (created autoStart) past s) : s.Orderly :=
  hrun.invariant (I := fun _ s => s.Orderly) (Manager.orderly_created autoStart)
    fun _ _ _ _ hs hstep => Manager.step_orderly hstep hs

theorem agreed_of_run (hfresh : Function.Injective H.newUuid7)
    (hrun : Run (restrict Manager.separate (step H)) (created autoStart) past s) :
    Agreed H s.publisher := by
  have hkept := agreed_kept hfresh
  have hall : Kept.Everywhere (Agreed H) Task.Knows s :=
    hrun.invariant_of (I := fun _ s => s.Orderly)
      (J := fun _ s => Kept.Everywhere (Agreed H) Task.Knows s)
      (fun _ _ h => orderly_of_run h) (hkept.created agreed_initial autoStart)
      fun _ _ _ _ hs hall hstep =>
        hkept.step hs hall (fun _ _ _ _ _ _ => trivial) (restrict_eq_some.mp hstep).2
  exact hall.publisher

/-- In every state of every run: a registration carries a manifest that was hashed
before, a heartbeat carries the hash of the last acknowledged registration, one
publication id stands for one hash, and a registration repeats the id of the one
before it if it repeats its hash. -/
theorem manifests_agree (hfresh : Function.Injective H.newUuid7)
    (hrun : Run (restrict Manager.separate (step H)) (created autoStart) past s) :
    Log.EachAgainstPast (Agrees H) s.publisher.log ∧
      (∀ message ∈ registrations s.publisher.log, ∀ message' ∈ registrations s.publisher.log,
        message.manifestPublicationId = message'.manifestPublicationId →
          message.configHash = message'.configHash) ∧
      (registrations s.publisher.log).IsChain fun message message' =>
        message.configHash = message'.configHash →
          message.manifestPublicationId = message'.manifestPublicationId := by
  have h := agreed_of_run hfresh hrun
  refine ⟨h.agrees, fun message hmem message' hmem' hid => ?_, ?_⟩
  · have hentry := h.versions.eq_of_key _ (List.mem_map_of_mem hmem) _ (List.mem_map_of_mem hmem')
      hid
    exact congrArg Prod.snd hentry
  · exact (List.isChain_map _).mp h.versions.key_of_value

def host : Host where
  agentId := some "agent_security_operations".toList
  manifestHash tools := tools.flatMap RegisteredTool.name
  newUuid7 n := List.replicate n '7'

theorem host_fresh : Function.Injective host.newUuid7 := by
  intro m n h
  simpa [host] using congrArg List.length h

def gate (name : String) : RegisteredTool := ⟨name.toList, .null⟩

def proceed (task : Nat) : Action := .resume task (.ok ()) ⟨0, 300⟩

/-- A tool is registered while the first registration is in flight. -/
theorem manifests_agree_changed :
    ∃ s, Run (restrict Manager.separate (step host)) (created false)
        [.registerTools [gate "open"], .start, proceed 0, proceed 0,
          .registerTools [gate "open", gate "close"], proceed 0, proceed 0, proceed 0, proceed 1,
          proceed 1, proceed 1, proceed 1] s ∧
      (registrations s.publisher.log).length = 2 ∧
        Log.EachAgainstPast (Agrees host) s.publisher.log := by
  have hrun : Run (restrict Manager.separate (step host)) (created false)
      [.registerTools [gate "open"], .start, proceed 0, proceed 0,
        .registerTools [gate "open", gate "close"], proceed 0, proceed 0, proceed 0, proceed 1,
        proceed 1, proceed 1, proceed 1] _ := .of_foldlM rfl
  exact ⟨_, hrun, rfl, (manifests_agree host_fresh hrun).1⟩

end Runs
end DualeAI.Agent
