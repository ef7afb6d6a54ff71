import DualeAI.Events.Client
import DualeAI.Foundation.Steps

/-!
Connecting: `HTTPTransport.connect` and `CloudEventsClient.connect`.

Calls are made one after another. Each comes with how the calls of the libraries
inside it end, whichever of them it gets to. A client may be given its transport,
whose owner may then connect and disconnect it too.
-/
namespace DualeAI.Connecting
open Foundation

abbrev Outcome := Except Exc Unit

structure SplitResult where
  scheme : Text
  netloc : Text
  path : Text

structure HPKEClientSession where
  baseUrl : Text
  discoveryUrl : Text

structure LibrarySession where
  baseUrl : Text

/-- How the calls inside a `connect` end: the constructor of the HPKE session,
entering it, and the constructor of the library session. -/
structure Opening where
  create : Outcome
  enter : Outcome
  library : Outcome

/-- How the calls inside a `disconnect` end. -/
structure Closing where
  library : Outcome
  exit : Outcome

structure HTTPTransport where
  endpoint : Text
  token : Text
  session : Option HPKEClientSession := none
  librarySession : Option LibrarySession := none
  connected : Bool := false

namespace HTTPTransport

/-- A new transport. -/
def new (endpoint token : Text) : HTTPTransport where
  endpoint := rstripChar '/' endpoint
  token := token

def isConnected (t : HTTPTransport) : Bool :=
  t.session.isSome && t.librarySession.isSome && t.connected

section Connect
variable (urlsplit : Text → Except Exc SplitResult)

/-- What `_endpoint_origin` and `_discovery_url` both ask of an endpoint. -/
def absoluteParts (endpoint : Text) : Except Exc SplitResult :=
  match urlsplit endpoint with
  | .error e => .error e
  | .ok parts =>
      if parts.scheme.isEmpty || parts.netloc.isEmpty then .error (.other "ValueError")
      else .ok parts

def endpointOrigin (endpoint : Text) : Except Exc Text :=
  (absoluteParts urlsplit endpoint).map fun parts =>
    parts.scheme ++ "://".toList ++ parts.netloc

def discoveryUrl (endpoint : Text) : Except Exc Text :=
  (absoluteParts urlsplit endpoint).map fun parts =>
    rstripChar '/' (parts.scheme ++ "://".toList ++ parts.netloc ++ parts.path) ++
      "/.well-known/hpke-keys".toList

/-- The part of `connect` after the HPKE session is assigned. -/
def enterSessions (t : HTTPTransport) (o : Opening) : HTTPTransport × Outcome :=
  match o.enter with
  | .error e => (t, .error e)
  | .ok _ =>
      match endpointOrigin urlsplit t.endpoint with
      | .error e => (t, .error e)
      | .ok libraryBaseUrl =>
          match o.library with
          | .error e => (t, .error e)
          | .ok _ => ({ t with librarySession := some ⟨libraryBaseUrl⟩, connected := true }, .ok ())

def connect (t : HTTPTransport) (o : Opening) : HTTPTransport × Outcome :=
  if t.session.isSome then (t, .ok ())
  else
    match discoveryUrl urlsplit t.endpoint with
    | .error e => (t, .error e)
    | .ok url =>
        match o.create with
        | .error e => (t, .error e)
        | .ok _ => enterSessions urlsplit { t with session := some ⟨t.endpoint, url⟩ } o

end Connect

/-- How closing a session ends, if there is one. -/
def closing {α : Type} (session : Option α) (outcome : Outcome) : Outcome :=
  match session with
  | none => .ok ()
  | some _ => outcome

/-- `disconnect`; a session that fails to close stays. -/
def disconnect (t : HTTPTransport) (o : Closing) : HTTPTransport × Outcome :=
  if t.session.isNone && t.librarySession.isNone then (t, .ok ())
  else
    let t := { t with connected := false }
    match closing t.librarySession o.library with
    | .error e => (t, .error e)
    | .ok _ =>
        let t := { t with librarySession := none }
        match closing t.session o.exit with
        | .error e => (t, .error e)
        | .ok _ => ({ t with session := none }, .ok ())

end HTTPTransport

structure CloudEventsClient where
  endpoint : Text
  token : Text
  transport : Option HTTPTransport
  connected : Bool := false

inductive Action where
  | connect (o : Opening)
  | disconnect (o : Closing)
  /-- The owner of an injected transport calls it. -/
  | transportConnect (o : Opening)
  | transportDisconnect (o : Closing)

namespace CloudEventsClient

def isConnected (s : CloudEventsClient) : Bool :=
  s.connected && s.transport.any HTTPTransport.isConnected

/-- The handlers of `connect`. -/
def connectError : Exc → Exc
  | .transport e =>
      match e.kind with
      | .auth => .sdk ⟨.authError, .transport "Authentication failed" e, none⟩
      | _ => .sdk ⟨.connectionError, .transport "Failed to connect to HTTP bridge" e, none⟩
  | e => if e.isException then .sdk ⟨.connectionError, .connectFailed, none⟩ else e

variable (urlsplit : Text → Except Exc SplitResult)

def connect (s : CloudEventsClient) (o : Opening) : CloudEventsClient × Outcome :=
  match s.transport with
  | some transport =>
      if transport.isConnected then ({ s with connected := true }, .ok ())
      else
        match transport.connect urlsplit o with
        | (transport, .ok _) => ({ s with transport := some transport, connected := true }, .ok ())
        | (transport, .error e) => ({ s with transport := some transport }, .error (connectError e))
  | none =>
      match (HTTPTransport.new s.endpoint s.token).connect urlsplit o with
      | (transport, .ok _) => ({ s with transport := some transport, connected := true }, .ok ())
      | (_, .error e) => (s, .error (connectError e))

/-- `disconnect`, which drops the transport however closing it ends. -/
def disconnect (s : CloudEventsClient) (o : Closing) : CloudEventsClient × Outcome :=
  match s.transport with
  | none => (s, .ok ())
  | some transport =>
      if transport.isConnected then
        ({ s with transport := none, connected := false },
          match (transport.disconnect o).2 with
          | .error e => if e.isException then .ok () else .error e
          | .ok _ => .ok ())
      else (s, .ok ())

/-- What a call makes of the client, and how it ends. -/
def call (s : CloudEventsClient) : Action → CloudEventsClient × Outcome
  | .connect o => s.connect urlsplit o
  | .disconnect o => s.disconnect o
  | .transportConnect o =>
      match s.transport with
      | none => (s, .ok ())
      | some transport =>
          let (transport, outcome) := transport.connect urlsplit o
          ({ s with transport := some transport }, outcome)
  | .transportDisconnect o =>
      match s.transport with
      | none => (s, .ok ())
      | some transport =>
          let (transport, outcome) := transport.disconnect o
          ({ s with transport := some transport }, outcome)

end CloudEventsClient

/-! ## Where a call goes wrong -/

section Slips
variable (urlsplit : Text → Except Exc SplitResult)

/-- `connect` fails before it assigns a session. -/
def refused (t : HTTPTransport) (o : Opening) : Bool :=
  !(HTTPTransport.discoveryUrl urlsplit t.endpoint).isOk || !o.create.isOk

/-- It fails after that. -/
def failsHalfway (t : HTTPTransport) (o : Opening) : Bool :=
  !refused urlsplit t o && !(o.enter.isOk && o.library.isOk)

def failsClosing (t : HTTPTransport) (o : Closing) : Bool :=
  !(HTTPTransport.closing t.librarySession o.library).isOk ||
    !(HTTPTransport.closing t.session o.exit).isOk

/-- A connection is left half open, or the mark of an earlier one is left. A client's
own transport is dropped where it does not connect. -/
def slips (s : CloudEventsClient) : Action → Bool
  | .connect o =>
      match s.transport with
      | none => false
      | some t =>
          !t.isConnected && (failsHalfway urlsplit t o || s.connected && refused urlsplit t o)
  | .disconnect _ => false
  | .transportConnect o => s.transport.any fun t => !t.isConnected && failsHalfway urlsplit t o
  | .transportDisconnect o => s.transport.any fun t => failsClosing t o

/-- Another `connect` would try again, or need not. -/
def HTTPTransport.Settled (t : HTTPTransport) : Prop := t.session = none ∨ t.isConnected = true

/-- What is asked of a call: it leaves a settled transport, a `connect` returns exactly
if it connects, and no client is marked connected by it over a transport that is not. -/
def Atomic (s : CloudEventsClient) (a : Action) : Prop :=
  (∀ t, (s.call urlsplit a).1.transport = some t → t.Settled) ∧
    match a with
    | .connect _ =>
        ((s.call urlsplit a).2 = .ok () ↔ (s.call urlsplit a).1.isConnected = true) ∧
          ((s.call urlsplit a).1.connected = true → (s.call urlsplit a).1.isConnected = true)
    | .transportConnect _ =>
        ∀ t, (s.call urlsplit a).1.transport = some t →
          ((s.call urlsplit a).2 = .ok () ↔ t.isConnected = true)
    | _ => True

end Slips

/-! ## One call -/

/-- All of a transport is there, or nothing. -/
def HTTPTransport.Whole (t : HTTPTransport) : Prop :=
  t.isConnected = true ∨ t.session = none ∧ t.librarySession = none

section Calls
variable {urlsplit : Text → Except Exc SplitResult} {t : HTTPTransport} {o : Opening}

theorem endpointOrigin_ok {endpoint url : Text}
    (h : HTTPTransport.discoveryUrl urlsplit endpoint = .ok url) :
    ∃ origin, HTTPTransport.endpointOrigin urlsplit endpoint = .ok origin := by
  rw [HTTPTransport.discoveryUrl] at h
  cases hparts : HTTPTransport.absoluteParts urlsplit endpoint with
  | error e =>
      rw [hparts] at h
      cases h
  | ok parts => exact ⟨_, by rw [HTTPTransport.endpointOrigin, hparts]; rfl⟩

theorem not_isConnected (h : t.session = none) : t.isConnected = false := by
  rw [HTTPTransport.isConnected, h]
  rfl

/-- A `connect` without a session raises and changes nothing, raises with the session
assigned, or connects. -/
theorem connect_cases (urlsplit : Text → Except Exc SplitResult) (h : t.session = none)
    (o : Opening) :
    (refused urlsplit t o = true ∧ ∃ e, t.connect urlsplit o = (t, .error e)) ∨
    (failsHalfway urlsplit t o = true ∧ ∃ e session,
      t.connect urlsplit o = ({ t with session := some session }, .error e)) ∨
    (refused urlsplit t o = false ∧ failsHalfway urlsplit t o = false ∧
      ∃ connected : HTTPTransport, connected.isConnected = true ∧
        t.connect urlsplit o = (connected, .ok ())) := by
  rw [failsHalfway, refused, HTTPTransport.connect, h]
  cases hurl : HTTPTransport.discoveryUrl urlsplit t.endpoint with
  | error e => exact .inl ⟨rfl, e, rfl⟩
  | ok url =>
      obtain ⟨origin, horigin⟩ := endpointOrigin_ok hurl
      cases hcreate : o.create with
      | error e => exact .inl ⟨rfl, e, rfl⟩
      | ok u =>
          refine .inr ?_
          simp only [HTTPTransport.enterSessions, horigin]
          cases henter : o.enter with
          | error e => exact .inl ⟨rfl, e, _, rfl⟩
          | ok u =>
              cases hlibrary : o.library with
              | error e => exact .inl ⟨rfl, e, _, rfl⟩
              | ok u => exact .inr ⟨rfl, rfl, _, rfl, rfl⟩

theorem connect_of_connected (h : t.isConnected = true) : t.connect urlsplit o = (t, .ok ()) := by
  rw [HTTPTransport.isConnected, Bool.and_eq_true, Bool.and_eq_true] at h
  exact if_pos h.1.1

theorem disconnect_closed {o : Closing} (h : t.session = none ∧ t.librarySession = none) :
    t.disconnect o = (t, .ok ()) ∧ failsClosing t o = false := by
  rw [HTTPTransport.disconnect, failsClosing, h.1, h.2]
  exact ⟨rfl, rfl⟩

/-- Disconnecting a connected transport leaves a session behind, or nothing. -/
theorem disconnect_connected {o : Closing} (h : t.isConnected = true) :
    (failsClosing t o = true ∧ ¬ (t.disconnect o).1.Settled) ∨
    (failsClosing t o = false ∧ (t.disconnect o).1.session = none ∧
      (t.disconnect o).1.librarySession = none) := by
  rw [HTTPTransport.isConnected, Bool.and_eq_true, Bool.and_eq_true] at h
  obtain ⟨⟨hsession, hlibrary⟩, -⟩ := h
  obtain ⟨session, hsession⟩ := Option.isSome_iff_exists.mp hsession
  obtain ⟨library, hlibrary⟩ := Option.isSome_iff_exists.mp hlibrary
  rw [HTTPTransport.disconnect, failsClosing, hsession, hlibrary]
  cases hclose : o.library with
  | error e =>
      refine .inl ⟨rfl, fun hsettled => ?_⟩
      cases hsettled with
      | inl hnone => cases hnone
      | inr hconnected => cases hconnected
  | ok u =>
      cases hexit : o.exit with
      | error e =>
          refine .inl ⟨rfl, fun hsettled => ?_⟩
          cases hsettled with
          | inl hnone => cases hnone
          | inr hconnected => cases hconnected
      | ok u => exact .inr ⟨rfl, rfl, rfl⟩

/-! ## The client between calls -/

/-- Between calls that do not slip. -/
structure Ready (s : CloudEventsClient) : Prop where
  whole : ∀ t, s.transport = some t → t.Whole
  unmarked : s.transport = none → s.connected = false

theorem HTTPTransport.Whole.settled (h : t.Whole) : t.Settled := by
  cases h with
  | inl hconnected => exact .inr hconnected
  | inr hclosed => exact .inl hclosed.1

/-- With a session but no library session, a transport is stuck. -/
theorem not_settled {session : HPKEClientSession} (h : t.librarySession = none) :
    ¬ HTTPTransport.Settled { t with session := some session } := by
  intro hsettled
  cases hsettled with
  | inl hnone => cases hnone
  | inr hconnected =>
      rw [HTTPTransport.isConnected, h] at hconnected
      cases hconnected

variable {s : CloudEventsClient}

theorem ready_of_transport {connected : Bool} (h : t.Whole) :
    Ready { s with transport := some t, connected := connected } where
  whole := by
    intro t' ht'
    cases ht'
    exact h
  unmarked := fun hnone => by cases hnone

/-- A `connect` that returns with a connected transport is as it should be. -/
theorem atomic_of_connected (hconnected : t.isConnected = true) (hcall :
      s.call urlsplit (.connect o) = ({ s with transport := some t, connected := true }, .ok ())) :
    Atomic urlsplit s (.connect o) ∧ Ready (s.call urlsplit (.connect o)).1 := by
  have hmarked : CloudEventsClient.isConnected
      { s with transport := some t, connected := true } = true := hconnected
  rw [Atomic, hcall]
  refine ⟨⟨fun t' ht' => ?_, ⟨fun _ => hmarked, fun _ => rfl⟩, fun _ => hmarked⟩,
    ready_of_transport (.inl hconnected)⟩
  cases ht'
  exact .inr hconnected

theorem connect_own (hs : Ready s) (hnone : s.transport = none) (o : Opening) :
    Atomic urlsplit s (.connect o) ∧ Ready (s.call urlsplit (.connect o)).1 := by
  have hunmarked := hs.unmarked hnone
  have hidle : s.isConnected = false := by rw [CloudEventsClient.isConnected, hunmarked]; rfl
  have hfailed (e : Exc) (hcall : s.call urlsplit (.connect o) = (s, .error e)) :
      Atomic urlsplit s (.connect o) ∧ Ready (s.call urlsplit (.connect o)).1 := by
    rw [Atomic, hcall]
    refine ⟨⟨fun t ht => ?_, ⟨fun h => ?_, fun h => ?_⟩, fun h => ?_⟩, hs⟩
    · rw [hnone] at ht
      cases ht
    · cases h
    · rw [hidle] at h
      cases h
    · rw [hunmarked] at h
      cases h
  have hnew : (HTTPTransport.new s.endpoint s.token).session = none := rfl
  cases connect_cases urlsplit hnew o with
  | inl hrefused =>
      obtain ⟨-, e, hconnect⟩ := hrefused
      refine hfailed (CloudEventsClient.connectError e) ?_
      rw [CloudEventsClient.call, CloudEventsClient.connect, hnone]
      simp only [hconnect]
  | inr hrest =>
      cases hrest with
      | inl hhalfway =>
          obtain ⟨-, e, session, hconnect⟩ := hhalfway
          refine hfailed (CloudEventsClient.connectError e) ?_
          rw [CloudEventsClient.call, CloudEventsClient.connect, hnone]
          simp only [hconnect]
      | inr hdone =>
          obtain ⟨-, -, connected, hconnected, hconnect⟩ := hdone
          refine atomic_of_connected hconnected ?_
          rw [CloudEventsClient.call, CloudEventsClient.connect, hnone]
          simp only [hconnect]

/-- A client with a transport that is not connected. -/
theorem connect_kept (hs : Ready s) (ht : s.transport = some t) (hnot : t.isConnected = false)
    (o : Opening) :
    (Atomic urlsplit s (.connect o) ↔ slips urlsplit s (.connect o) = false) ∧
      (slips urlsplit s (.connect o) = false → Ready (s.call urlsplit (.connect o)).1) := by
  have hclosed : t.session = none ∧ t.librarySession = none := by
    cases hs.whole t ht with
    | inl hconnected =>
        rw [hnot] at hconnected
        cases hconnected
    | inr hclosed => exact hclosed
  have hslips : slips urlsplit s (.connect o) =
      (failsHalfway urlsplit t o || s.connected && refused urlsplit t o) := by
    rw [slips, ht]
    simp only [hnot, Bool.not_false, Bool.true_and]
  have hcall : s.call urlsplit (.connect o) = s.connect urlsplit o := rfl
  rw [CloudEventsClient.connect, ht] at hcall
  simp only [hnot, Bool.false_eq_true, if_false] at hcall
  rw [hslips]
  cases connect_cases urlsplit hclosed.1 o with
  | inl hrefused =>
      obtain ⟨hrefused, e, hconnect⟩ := hrefused
      rw [Atomic]
      rw [hconnect] at hcall
      have hsame : ({ s with transport := some t } : CloudEventsClient) = s := by rw [← ht]
      simp only [hsame] at hcall
      have hidle : s.isConnected = false := by
        rw [CloudEventsClient.isConnected, ht, Option.any_some, hnot, Bool.and_false]
      rw [hcall, failsHalfway, hrefused, Bool.not_true, Bool.false_and, Bool.false_or,
        Bool.and_true]
      refine ⟨⟨fun h => ?_, fun h => ⟨fun t' ht' => ?_, ⟨fun hok => ?_, fun hon => ?_⟩,
        fun hon => ?_⟩⟩, fun _ => hs⟩
      · cases hmarked : s.connected with
        | false => rfl
        | true =>
            have hon := h.2.2 hmarked
            rw [hidle] at hon
            cases hon
      · exact (hs.whole t' ht').settled
      · cases hok
      · rw [hidle] at hon
        cases hon
      · rw [h] at hon
        cases hon
  | inr hrest =>
      cases hrest with
      | inl hhalfway =>
          obtain ⟨hhalfway, e, session, hconnect⟩ := hhalfway
          rw [hconnect] at hcall
          rw [Atomic, hcall, hhalfway, Bool.true_or]
          refine ⟨⟨fun h => ?_, fun h => by cases h⟩, fun h => by cases h⟩
          exact absurd (h.1 _ rfl) (not_settled hclosed.2)
      | inr hdone =>
          obtain ⟨hrefused, hhalfway, connected, hconnected, hconnect⟩ := hdone
          rw [hconnect] at hcall
          obtain ⟨hatomic, hready⟩ := atomic_of_connected hconnected hcall
          rw [hrefused, hhalfway, Bool.and_false, Bool.or_false]
          exact ⟨⟨fun _ => rfl, fun _ => hatomic⟩, fun _ => hready⟩

theorem connect_connected (ht : s.transport = some t) (hconnected : t.isConnected = true)
    (o : Opening) :
    Atomic urlsplit s (.connect o) ∧ slips urlsplit s (.connect o) = false ∧
      Ready (s.call urlsplit (.connect o)).1 := by
  have hcall : s.call urlsplit (.connect o) =
      ({ s with transport := some t, connected := true }, .ok ()) := by
    rw [CloudEventsClient.call, CloudEventsClient.connect]
    simp only [ht, hconnected, if_true]
  have hslips : slips urlsplit s (.connect o) = false := by
    rw [slips, ht]
    simp only [hconnected, Bool.not_true, Bool.false_and]
  obtain ⟨hatomic, hready⟩ := atomic_of_connected hconnected hcall
  exact ⟨hatomic, hslips, hready⟩

theorem disconnect_step (hs : Ready s) (o : Closing) :
    Atomic urlsplit s (.disconnect o) ∧ Ready (s.call urlsplit (.disconnect o)).1 := by
  have hready : Ready (s.call urlsplit (.disconnect o)).1 := by
    rw [CloudEventsClient.call, CloudEventsClient.disconnect]
    split
    · exact hs
    · split
      · exact ⟨fun t ht => (by cases ht), fun _ => rfl⟩
      · exact hs
  exact ⟨⟨fun t ht => (hready.whole t ht).settled, trivial⟩, hready⟩

theorem transportConnect_step (hs : Ready s) (o : Opening) :
    (Atomic urlsplit s (.transportConnect o) ↔ slips urlsplit s (.transportConnect o) = false) ∧
      (slips urlsplit s (.transportConnect o) = false →
        Ready (s.call urlsplit (.transportConnect o)).1) := by
  rw [Atomic, CloudEventsClient.call, slips]
  cases ht : s.transport with
  | none =>
      refine ⟨⟨fun _ => rfl, fun _ => ⟨fun t h => ?_, fun t h => ?_⟩⟩, fun _ => hs⟩
      · rw [ht] at h
        cases h
      · rw [ht] at h
        cases h
  | some t =>
      rw [Option.any_some]
      cases hs.whole t ht with
      | inl hconnected =>
          simp only [connect_of_connected hconnected]
          rw [hconnected, Bool.not_true, Bool.false_and]
          refine ⟨⟨fun _ => rfl, fun _ => ⟨fun t' h => ?_, fun t' h => ?_⟩⟩,
            fun _ => ready_of_transport (.inl hconnected)⟩
          · cases h
            exact .inr hconnected
          · cases h
            exact ⟨fun _ => hconnected, fun _ => trivial⟩
      | inr hclosed =>
          have hnot := not_isConnected hclosed.1
          rw [hnot, Bool.not_false, Bool.true_and]
          cases connect_cases urlsplit hclosed.1 o with
          | inl hrefused =>
              obtain ⟨hrefused, e, hconnect⟩ := hrefused
              simp only [hconnect]
              rw [failsHalfway, hrefused, Bool.not_true, Bool.false_and]
              refine ⟨⟨fun _ => rfl, fun _ => ⟨fun t' h => ?_, fun t' h => ?_⟩⟩,
                fun _ => ready_of_transport (.inr hclosed)⟩
              · cases h
                exact .inl hclosed.1
              · cases h
                refine ⟨fun hok => ?_, fun hon => ?_⟩
                · cases hok
                · rw [hnot] at hon
                  cases hon
          | inr hrest =>
              cases hrest with
              | inl hhalfway =>
                  obtain ⟨hhalfway, e, session, hconnect⟩ := hhalfway
                  simp only [hconnect]
                  rw [hhalfway]
                  refine ⟨⟨fun h => ?_, fun h => by cases h⟩, fun h => by cases h⟩
                  exact absurd (h.1 _ rfl) (not_settled hclosed.2)
              | inr hdone =>
                  obtain ⟨-, hhalfway, connected, hconnected, hconnect⟩ := hdone
                  simp only [hconnect]
                  rw [hhalfway]
                  refine ⟨⟨fun _ => rfl, fun _ => ⟨fun t' h => ?_, fun t' h => ?_⟩⟩,
                    fun _ => ready_of_transport (.inl hconnected)⟩
                  · cases h
                    exact .inr hconnected
                  · cases h
                    exact ⟨fun _ => hconnected, fun _ => trivial⟩

theorem transportDisconnect_step (hs : Ready s) (o : Closing) :
    (Atomic urlsplit s (.transportDisconnect o) ↔
        slips urlsplit s (.transportDisconnect o) = false) ∧
      (slips urlsplit s (.transportDisconnect o) = false →
        Ready (s.call urlsplit (.transportDisconnect o)).1) := by
  simp only [Atomic, CloudEventsClient.call, slips]
  cases ht : s.transport with
  | none =>
      refine ⟨⟨fun _ => rfl, fun _ => ⟨fun t h => ?_, trivial⟩⟩, fun _ => hs⟩
      rw [ht] at h
      cases h
  | some t =>
      rw [Option.any_some]
      cases hs.whole t ht with
      | inl hconnected =>
          cases disconnect_connected (o := o) hconnected with
          | inl hfails =>
              rw [hfails.1]
              refine ⟨⟨fun h => ?_, fun h => by cases h⟩, fun h => by cases h⟩
              exact absurd (h.1 _ rfl) hfails.2
          | inr hcloses =>
              rw [hcloses.1]
              refine ⟨⟨fun _ => rfl, fun _ => ⟨fun t' h => ?_, trivial⟩⟩,
                fun _ => ready_of_transport (.inr hcloses.2)⟩
              cases h
              exact .inl hcloses.2.1
      | inr hclosed =>
          obtain ⟨hdisconnect, hfails⟩ := disconnect_closed (o := o) hclosed
          simp only [hdisconnect]
          rw [hfails]
          refine ⟨⟨fun _ => rfl, fun _ => ⟨fun t' h => ?_, trivial⟩⟩,
            fun _ => ready_of_transport (.inr hclosed)⟩
          cases h
          exact .inl hclosed.1

/-- From a ready client, a call is atomic exactly if it does not slip, and then leaves
the client ready. -/
theorem call_step (hs : Ready s) (a : Action) :
    (Atomic urlsplit s a ↔ slips urlsplit s a = false) ∧
      (slips urlsplit s a = false → Ready (s.call urlsplit a).1) := by
  cases a with
  | connect o =>
      cases ht : s.transport with
      | none =>
          have hslips : slips urlsplit s (.connect o) = false := by rw [slips, ht]
          obtain ⟨hatomic, hready⟩ := connect_own hs ht o
          exact ⟨⟨fun _ => hslips, fun _ => hatomic⟩, fun _ => hready⟩
      | some t =>
          cases hconnected : t.isConnected with
          | true =>
              obtain ⟨hatomic, hslips, hready⟩ := connect_connected ht hconnected o
              exact ⟨⟨fun _ => hslips, fun _ => hatomic⟩, fun _ => hready⟩
          | false => exact connect_kept hs ht hconnected o
  | disconnect o =>
      obtain ⟨hatomic, hready⟩ := disconnect_step hs o
      exact ⟨⟨fun _ => rfl, fun _ => hatomic⟩, fun _ => hready⟩
  | transportConnect o => exact transportConnect_step hs o
  | transportDisconnect o => exact transportDisconnect_step hs o

end Calls

/-! ## Runs of calls -/

/-- A new client, with a new transport where one is injected. -/
def CloudEventsClient.new (endpoint token : Text) (injected : Option (Text × Text)) :
    CloudEventsClient where
  endpoint := endpoint
  token := token
  transport := injected.map fun (endpoint, token) => HTTPTransport.new endpoint token

theorem ready_new (endpoint token : Text) (injected : Option (Text × Text)) :
    Ready (CloudEventsClient.new endpoint token injected) where
  whole := by
    intro t ht
    obtain ⟨⟨endpoint, token⟩, -, rfl⟩ := Option.map_eq_some_iff.mp ht
    exact .inr ⟨rfl, rfl⟩
  unmarked := fun _ => rfl

/-- The calls of a run are atomic exactly if none of them slips. -/
theorem connecting_atomic_iff (urlsplit : Text → Except Exc SplitResult) (endpoint token : Text)
    (injected : Option (Text × Text)) (actions : List Action) :
    AllSteps (fun s a => (s.call urlsplit a).1) (Atomic urlsplit)
        (CloudEventsClient.new endpoint token injected) actions ↔
      AllSteps (fun s a => (s.call urlsplit a).1) (fun s a => slips urlsplit s a = false)
        (CloudEventsClient.new endpoint token injected) actions :=
  AllSteps.iff_of_invariant (I := Ready) (fun _ a hs => (call_step hs a).1)
    (fun _ a hs => (call_step hs a).2) (ready_new endpoint token injected)

/-! ## A connection that fails while the session is entered -/

def splitHost : Text → Except Exc SplitResult := fun host => .ok ⟨"https".toList, host, []⟩

def unreachable : Opening := ⟨.ok (), .error (.client .clientConnectionError), .ok ()⟩

def reachable : Opening := ⟨.ok (), .ok (), .ok ()⟩

/-- The second `connect` returns although nothing is connected, and the client is marked
connected. -/
theorem connect_not_retried :
    let start := CloudEventsClient.new ['h'] ['t'] (some (['h'], ['t']))
    let failed := start.call splitHost (.connect unreachable)
    let retried := failed.1.call splitHost (.connect reachable)
    failed.2 = .error (.sdk ⟨.connectionError, .connectFailed, none⟩) ∧
      retried.2 = .ok () ∧ retried.1.connected = true ∧ retried.1.isConnected = false ∧
      ¬ AllSteps (fun s a => (s.call splitHost a).1) (Atomic splitHost) start
        [.connect unreachable, .connect reachable] := by
  refine ⟨rfl, rfl, rfl, rfl, fun h => ?_⟩
  exact absurd (h.2.1.2.2 rfl) (by decide)

end DualeAI.Connecting
