import DualeAI.Events.Client
import DualeAI.Events.SseFraming

/-!
Resuming a stream behind its last event.

The Bridge keeps one log of a task's events and answers a request with the
framed events behind the cursor it carries. Attempts may fail, be cut anywhere
or deliver an event whose checksum fails. Every cut leaves a beginning of the
events asked for, and the next request asks for what is behind it, so the
attempts together deliver a beginning of the log, without gap or repetition.
-/
namespace DualeAI.Http
open Foundation Sse Client

variable (D : HttpDecoders)

/-- The events of a task, in the order and under the cursors the Bridge keeps. -/
structure BridgeLog where
  events : List WireEvent
  valid : ∀ e ∈ events, e.Valid D.toDecoders
  cursors : (events.map WireEvent.id).Nodup

namespace BridgeLog
variable {D}

def sseEvents (log : BridgeLog D) : List BridgeSSEEvent := log.events.map WireEvent.event

theorem cursors_nodup (log : BridgeLog D) : (log.sseEvents.map BridgeSSEEvent.id).Nodup := by
  have hids : log.sseEvents.map BridgeSSEEvent.id = log.events.map WireEvent.id := by
    simp [sseEvents, WireEvent.event, Function.comp_def]
  rw [hids]
  exact log.cursors

def after (log : BridgeLog D) (cursor : Option Text) : List BridgeSSEEvent :=
  Log.after BridgeSSEEvent.id cursor log.sseEvents

/-- A request without a cursor, or with a cursor of the log. -/
def Knows (log : BridgeLog D) (cursor : Option Text) : Prop :=
  ∀ c ∈ cursor, c ∈ log.sseEvents.map BridgeSSEEvent.id

end BridgeLog

/-- A block the parser reads up to its checksum, which is not that of its data. -/
structure ChecksumFails (blk : List Text) : Prop where
  acceptable : Acceptable blk
  payload : strip (blockData blk) ≠ []
  mismatch : ∃ expected, blockChecksum blk = some expected ∧
    computeChecksum D.toDecoders (blockEventType blk) (blockData blk) ≠ expected

structure FramesEvents (items : List Item) (events : List BridgeSSEEvent) : Prop where
  framed : ∀ i ∈ items, i.Framed D.toDecoders
  bounded : ∀ i ∈ items, i.event? = none → blockDataBytes i.block ≤ maxSseEventBytes
  events_eq : items.filterMap Item.event? = events

/-- What the Bridge and the connection can make of a request behind `cursor`. -/
inductive Resumes (log : BridgeLog D) (cursor : Option Text) : Reply → Prop where
  | failed (e : Exc) : Resumes log cursor (.raises e)
  | refused (response : Response) (hstatus : 400 ≤ response.status) :
      Resumes log cursor (.answers response)
  /-- The framed events behind the cursor, cut after any byte. -/
  | streamed (response : Response) (hstatus : response.status < 400) (items : List Item)
      (trailer : List WireLine) (hitems : FramesEvents D items (log.after cursor))
      (htrailer : ∀ l ∈ trailer, l.Sendable ∧ IsNoise l.seen)
      (hcut : response.stream.chunks.flatten <+: wire items trailer) :
      Resumes log cursor (.answers response)
  /-- The same, one event of it corrupted on the way. -/
  | corrupted (response : Response) (hstatus : response.status < 400) (items : List Item)
      (sent rest : List BridgeSSEEvent) (hsplit : log.after cursor = sent ++ rest)
      (hitems : FramesEvents D items sent) (lines : List WireLine) (crlf : Bool)
      (hlines : ∀ l ∈ lines, l.Sendable) (hcorrupt : ChecksumFails D (lines.map WireLine.seen))
      (following : Bytes)
      (hcut : response.stream.chunks.flatten <+:
        sendLines (items.flatMap Item.wireLines ++ (lines ++ [.blank crlf])) ++ following) :
      Resumes log cursor (.answers response)

/-! ## One attempt -/

theorem parseSseStream_cut {content : Content} {stream : Bytes}
    (h : content.chunks.flatten <+: stream) :
    (parseSseStream D.toDecoders content).yields <+: (parseBytes D.toDecoders stream).yields := by
  obtain ⟨rest, rfl⟩ := h
  rw [parseSseStream_yields]
  exact LineBuffer.wholeStream_yields_isPrefix ({} : ParserState) content.chunks.flatten rest

theorem parseBytes_corrupted {items : List Item} {events : List BridgeSSEEvent}
    (hitems : FramesEvents D items events) {lines : List WireLine} (crlf : Bool)
    (hlines : ∀ l ∈ lines, l.Sendable) (hcorrupt : ChecksumFails D (lines.map WireLine.seen))
    (following : Bytes) :
    (parseBytes D.toDecoders (sendLines (items.flatMap Item.wireLines ++
      (lines ++ [.blank crlf])) ++ following)).yields = events := by
  have hsend : ∀ l ∈ lines ++ [.blank crlf], l.Sendable := by
    intro l hl
    cases List.mem_append.mp hl with
    | inl hl => exact hlines l hl
    | inr hl =>
        rw [List.mem_singleton.mp hl]
        exact blank_sendable crlf
  have hseen : (lines ++ [WireLine.blank crlf]).map WireLine.seen =
      lines.map WireLine.seen ++ [[]] := by
    simp [WireLine.blank, WireLine.seen, rstripChar]
  obtain ⟨expected, hsum, hne⟩ := hcorrupt.mismatch
  have hraise : ∃ e, dispatchBlock D.toDecoders (blockState (lines.map WireLine.seen)) =
      Gen.raise e := by
    refine ⟨.sse (.checksum (blockId (lines.map WireLine.seen)) expected
      (computeChecksum D.toDecoders (blockEventType (lines.map WireLine.seen))
        (blockData (lines.map WireLine.seen)))
      (blockEventType (lines.map WireLine.seen))), ?_⟩
    have hpayload : strip (joinLines (blockDataLines (lines.map WireLine.seen))) ≠ [] :=
      hcorrupt.payload
    rw [dispatchBlock]
    simp only [blockState, hpayload, hsum, ite_false]
    exact if_pos hne
  obtain ⟨e, hraise⟩ := hraise
  rw [parseBytes_items D.toDecoders hitems.framed hitems.bounded hsend, hseen, Gen.mk_ok_bind,
    foldlM_block D.toDecoders hcorrupt.acceptable, hraise, hitems.events_eq]
  simp

/-- Step: whatever becomes of an attempt, its events are the first ones asked for. -/
theorem Resumes.events_isPrefix {log : BridgeLog D} {cursor : Option Text} {reply : Reply}
    (h : Resumes D log cursor reply) : reply.events D <+: log.after cursor := by
  cases h with
  | failed e => exact List.nil_prefix
  | refused response hstatus =>
      rw [Reply.events, if_neg (Nat.not_lt.mpr hstatus)]
      exact List.nil_prefix
  | streamed response hstatus items trailer hitems htrailer hcut =>
      have hparse := parseSseStream_cut D hcut
      rw [parseBytes_wire D.toDecoders hitems.framed hitems.bounded htrailer] at hparse
      rw [Reply.events, if_pos hstatus, ← hitems.events_eq]
      exact hparse
  | corrupted response hstatus items sent rest hsplit hitems lines crlf hlines hcorrupt following
      hcut =>
      have hparse := parseSseStream_cut D hcut
      rw [parseBytes_corrupted D hitems crlf hlines hcorrupt following] at hparse
      rw [Reply.events, if_pos hstatus, hsplit]
      exact hparse.trans (List.prefix_append sent rest)

/-! ## The whole stream -/

section Run
variable {D} (log : BridgeLog D) (initial : Option Text)

/-- What holds before an attempt: the events so far are the first ones behind the
caller's cursor, and the loop's cursor is the last of them. -/
structure Resuming (past : List StreamAction) (s : StreamState) : Prop where
  sent : eventsOf past <+: log.after initial
  cursor : s.currentLastEventId = Log.advance BridgeSSEEvent.id initial (eventsOf past)

variable {log initial}

theorem Resuming.knows {past : List StreamAction} {s : StreamState}
    (h : Resuming log initial past s) (hinitial : log.Knows initial) :
    log.Knows s.currentLastEventId := by
  obtain ⟨rest, hrest⟩ := h.sent
  rw [h.cursor]
  cases hlast : eventsOf past using List.reverseRecOn with
  | nil => exact hinitial
  | append_singleton events event =>
      rw [Log.advance_concat]
      intro c hc
      cases hc
      have hmem : event ∈ log.after initial := by simp [← hrest, hlast]
      exact List.mem_map.mpr ⟨event, (Log.after_isSuffix initial log.sseEvents).subset hmem, rfl⟩

/-- Step: the events of the next attempt continue those before it. -/
theorem Resuming.attempt {past : List StreamAction} {s : StreamState}
    (h : Resuming log initial past s) {reply : Reply}
    (hreply : Resumes D log s.currentLastEventId reply) (r : Request) (established : Bool) :
    Resuming log initial (past ++ .sent r :: replyLog D reply)
      ⟨Log.advance BridgeSSEEvent.id s.currentLastEventId (reply.events D), established⟩ := by
  obtain ⟨rest, hrest⟩ := h.sent
  have hafter : log.after s.currentLastEventId = rest := by
    rw [h.cursor]
    exact Log.after_advance log.cursors_nodup hrest.symm
  obtain ⟨unsent, hunsent⟩ := hreply.events_isPrefix
  have hevents : eventsOf (past ++ .sent r :: replyLog D reply) =
      eventsOf past ++ reply.events D := by
    rw [eventsOf_append, eventsOf_sent, eventsOf_replyLog]
  refine ⟨?_, ?_⟩
  · rw [hevents]
    exact ⟨unsent, by rw [List.append_assoc, hunsent, hafter, hrest]⟩
  · rw [hevents, h.cursor, Log.advance_append]

/-- Run: the events of a streaming request are the first ones behind the
caller's cursor. -/
theorem streamRequest_resumes (isConnected : Bool) {session : Nat → Request → Reply}
    (hinitial : log.Knows initial)
    (hsession : ∀ number r, log.Knows r.lastEventId →
      Resumes D log r.lastEventId (session number r))
    (method : Method) (path : Text) (jsonData : Option Body) :
    eventsOf (streamRequest D isConnected session method path jsonData initial).yields <+:
      log.after initial := by
  cases isConnected with
  | false => exact List.nil_prefix
  | true =>
      have hattempt (number : Nat) (s : StreamState) (past : List StreamAction)
          (h : Resuming log initial past s) :
          Resuming log initial
            (past ++ (streamAttempt D session method path jsonData number s).yields)
            (streamAttempt D session method path jsonData number s).state := by
        rw [streamAttempt_eq D session method path jsonData number s _ rfl]
        have hresumes := hsession number (attemptRequest method path jsonData s) (h.knows hinitial)
        exact h.attempt hresumes _ _
      have hstart : Resuming log initial [] ⟨initial, false⟩ := ⟨List.nil_prefix, rfl⟩
      obtain ⟨_, -, hend⟩ := Retry.attemptsFrom_rule
        (fun number s past h _ => hattempt number s past h) hattempt (maxRetries - 1) 1 _ [] hstart
      exact hend.sent

/-- Every failure pattern delivers a beginning of the log behind the caller's
cursor, in order and without gap or repetition, and the consumer's callbacks are
those of the delivered events before the first terminal one. -/
theorem streamRequest_exactly_once (isConnected : Bool) {session : Nat → Request → Reply}
    (hinitial : log.Knows initial)
    (hsession : ∀ number r, log.Knows r.lastEventId →
      Resumes D log r.lastEventId (session number r))
    (method : Method) (path : Text) (jsonData : Option Body) (callbacks : Callbacks)
    (taskId : Text) (operation : String) :
    let stream := received (streamRequest D isConnected session method path jsonData initial)
    stream.yields <+: log.after initial ∧
      (consumeTerminalStream callbacks taskId operation stream).yields =
        firedBy callbacks (beforeTerminal stream.yields) :=
  ⟨streamRequest_resumes isConnected hinitial hsession method path jsonData,
    consumeTerminalStream_yields callbacks taskId operation _⟩

end Run

/-! The frozen event and a stop: the first answer is cut behind the one, the next
delivers the other. -/

def stoppedType : Text := "task.stopped".toList

def stoppedReason : Text := "user".toList

def stoppedText : Text :=
  "\x7b\"type\":\"task.stopped\",\"timestamp\":\"2025-01-01T00:00:01Z\",".toList ++
    "\"reason\":\"user\"\x7d".toList

def stoppedJson : Json :=
  .obj [("type".toList, .str stoppedType), ("timestamp".toList, .str "2025-01-01T00:00:01Z".toList),
    ("reason".toList, .str stoppedReason)]

def stopDecoders : HttpDecoders where
  crc32 := zlibCrc32
  loads t :=
    if t = stoppedText then .ok stoppedJson else frozenDecoders.loads t
  validateData data :=
    match data with
    | .obj [(_, .str type), _, (_, .str value)] =>
        .ok (if type = stoppedType then .taskStopped value else .contentDelta value)
    | _ => .error .rejected
  loadsBody _ := .error .rejected
  validateProblem _ := .error .rejected

def stoppedWireEvent : WireEvent :=
  ⟨"1:2".toList, stoppedType, stoppedText, .taskStopped stoppedReason⟩

theorem frozen_valid : frozenWireEvent.Valid stopDecoders.toDecoders where
  cursor := by decide
  wireType := by decide
  nonblank := by decide +kernel
  noTrailingCr := by decide +kernel
  size := by decide +kernel
  decodes := ⟨frozenJson, by rfl, by decide +kernel, rfl⟩

theorem stopped_valid : stoppedWireEvent.Valid stopDecoders.toDecoders where
  cursor := by decide
  wireType := by decide
  nonblank := by decide +kernel
  noTrailingCr := by decide +kernel
  size := by decide +kernel
  decodes := ⟨stoppedJson, by rfl, by decide +kernel, rfl⟩

def stopLog : BridgeLog stopDecoders where
  events := [frozenWireEvent, stoppedWireEvent]
  valid := List.forall_mem_cons.mpr ⟨frozen_valid, List.forall_mem_singleton.mpr stopped_valid⟩
  cursors := by decide

def plainItem (e : WireEvent) : Item :=
  .event e ((e.frame stopDecoders.toDecoders).map (⟨·, false⟩)) false

def stopSession (_ : Nat) (r : Request) : Reply :=
  match r.lastEventId with
  | none => .answers ⟨200, "OK".toList, .ok [],
      ⟨[wire [plainItem frozenWireEvent] []], some (.client .clientPayloadError)⟩⟩
  | some c =>
      if c = "1:1".toList then
        .answers ⟨200, "OK".toList, .ok [], ⟨[wire [plainItem stoppedWireEvent] []], none⟩⟩
      else .raises (.client .clientConnectionError)

theorem plainItem_framed {e : WireEvent} (hvalid : e.Valid stopDecoders.toDecoders)
    (hsend : ∀ l ∈ (plainItem e).lines, l.Sendable) :
    (plainItem e).Framed stopDecoders.toDecoders := by
  refine ⟨hsend, hvalid, ?_⟩
  have htexts : ((e.frame stopDecoders.toDecoders).map (WireLine.mk · false)).map (·.text) =
      e.frame stopDecoders.toDecoders := (List.map_map ..).trans (List.map_id _)
  rw [htexts]
  exact WithNoise.refl _

theorem plainItems_framesEvents {es : List WireEvent}
    (hframed : ∀ e ∈ es, (plainItem e).Framed stopDecoders.toDecoders) :
    FramesEvents stopDecoders (es.map plainItem) (es.map WireEvent.event) := by
  refine ⟨?_, ?_, ?_⟩
  · simpa using hframed
  · simp [plainItem, Item.event?]
  · simp [plainItem, Item.event?, List.filterMap_map, Function.comp_def]

theorem stopSession_resumes (number : Nat) (r : Request) :
    Resumes stopDecoders stopLog r.lastEventId (stopSession number r) := by
  have hframed : ∀ e ∈ [frozenWireEvent, stoppedWireEvent],
      (plainItem e).Framed stopDecoders.toDecoders :=
    List.forall_mem_cons.mpr ⟨plainItem_framed frozen_valid (by decide +kernel),
      List.forall_mem_singleton.mpr (plainItem_framed stopped_valid (by decide +kernel))⟩
  rw [stopSession]
  cases r.lastEventId with
  | none =>
      refine .streamed _ (by decide) ([frozenWireEvent, stoppedWireEvent].map plainItem) []
        (plainItems_framesEvents hframed) (by simp) ?_
      simp [wire, sendLines]
  | some c =>
      dsimp only
      by_cases hc : c = "1:1".toList
      · rw [if_pos hc, hc]
        exact .streamed _ (by decide) ([stoppedWireEvent].map plainItem) []
          (plainItems_framesEvents fun e he => hframed e (List.mem_cons_of_mem _ he)) (by simp)
          (by simp)
      · rw [if_neg hc]
        exact .failed _

theorem streamRequest_exactly_once_resumed :
    let stream := received (streamRequest stopDecoders true stopSession .post
      (taskPath "t".toList) none none)
    stream.yields = [frozenWireEvent.event, stoppedWireEvent.event] ∧
      (consumeTerminalStream ⟨true, true, true⟩ "t".toList "Task run" stream).yields =
        [.delta frozenDelta] := by
  have hknows : stopLog.Knows none := by simp [BridgeLog.Knows]
  obtain ⟨hyielded, hfired⟩ := streamRequest_exactly_once true hknows
    (fun number r _ => stopSession_resumes number r) .post (taskPath "t".toList) none
    ⟨true, true, true⟩ "t".toList "Task run"
  have hlength : (received (streamRequest stopDecoders true stopSession .post
      (taskPath "t".toList) none none)).yields.length = 2 := by decide +kernel
  have hall := hyielded.eq_of_length hlength
  refine ⟨hall, ?_⟩
  rw [hfired, hall]
  rfl

end DualeAI.Http
