import DualeAI.Events.HttpTransport

/-!
Which requests a streaming POST sends.

Until a response below 400 was read, every request is the original one. After
it, every request is a bodyless GET that resumes behind the last yielded event.
The loop invariant ties the method flag and the cursor of the retry loop to the
log of what was done so far.
-/
namespace DualeAI.Http
open Foundation Sse

/-- The id of the last yielded event, or the caller's. -/
def lastYieldedId (initial : Option Text) (log : List StreamAction) : Option Text :=
  match (eventsOf log).getLast? with
  | some event => some event.id
  | none => initial

/-- An HTTP error status or a parse error that is no checksum mismatch. -/
def StreamAction.isFinal : StreamAction → Bool
  | .answered status => 400 ≤ status
  | .failed (.sse e) => !e.isChecksumError
  | _ => false

/-- The one request that may be sent after `before`. -/
def disciplinedRequest (path : Text) (jsonData : Option Body) (initial : Option Text)
    (before : List StreamAction) : Request :=
  if accepted before then ⟨.get, path, lastYieldedId initial before, none⟩
  else ⟨.post, path, initial, jsonData⟩

section Discipline
variable (D : HttpDecoders) (session : Nat → Request → Reply) (path : Text)
variable (jsonData : Option Body) (initial : Option Text)

def Permitted (before : List StreamAction) (a : StreamAction) : Prop :=
  ∀ r, a = .sent r → r = disciplinedRequest path jsonData initial before ∧
    ∀ b ∈ before, b.isFinal = false

/-- What a whole log of a streaming POST keeps to. -/
structure Disciplined (log : List StreamAction) : Prop where
  requests : ∀ before r later, log = before ++ .sent r :: later →
    r = disciplinedRequest path jsonData initial before
  final : ∀ before a later, log = before ++ a :: later → a.isFinal = true → requestsOf later = []
  attempts : (requestsOf log).length ≤ maxRetries

/-- What holds before the attempt of this number. -/
structure LoopInvariant (number : Nat) (past : List StreamAction) (s : StreamState) : Prop where
  established : s.streamEstablished = accepted past
  cursor : s.currentLastEventId = lastYieldedId initial past
  silent : accepted past = false → eventsOf past = []
  count : (requestsOf past).length + 1 = number
  permitted : Log.EachAgainstPast (Permitted path jsonData initial) past
  unfinished : ∀ a ∈ past, a.isFinal = false

theorem advance_lastYieldedId (past : List StreamAction) (events : List BridgeSSEEvent) :
    Log.advance BridgeSSEEvent.id (lastYieldedId initial past) events =
      lastYieldedId initial (past ++ events.map .yielded) := by
  rw [lastYieldedId, lastYieldedId, eventsOf_append, eventsOf_yielded, List.getLast?_append]
  induction events using List.reverseRecOn with
  | nil => simp
  | append_singleton events event _ => simp

theorem not_retryable_of_interrupt {e : Exc} (h : e.isException = false) :
    isRetryableStreamError (exceptClauses e) = false := by
  cases e with
  | cancelled | fatal _ => rfl
  | client _ | sse _ | unicodeDecodeError | transport _ | sdk _ | other _ => cases h

theorem replyLog_unfinished {reply : Reply} {e : Exc}
    (h : closing (reply.outcome D) = .error e) (hretry : isRetryableStreamError e = true) :
    ∀ a ∈ replyLog D reply, a.isFinal = false := by
  cases houtcome : reply.outcome D with
  | ok _ => rw [houtcome] at h; cases h
  | error cause =>
      rw [houtcome] at h
      cases h
      have hcause : (StreamAction.failed cause).isFinal = false := by
        cases cause with
        | sse cause =>
            by_cases hsum : cause.isChecksumError = true
            · simp [StreamAction.isFinal, hsum]
            · simp [exceptClauses, hsum, isRetryableStreamError] at hretry
        | client _ | unicodeDecodeError | transport _ | sdk _ | cancelled | other _ | fatal _ => rfl
      have hstatus : ∀ status ∈ reply.status?, status < 400 := by
        cases reply with
        | raises _ => simp [Reply.status?]
        | answers response =>
            by_cases hok : response.status < 400
            · simpa [Reply.status?] using hok
            · obtain ⟨e, hraise, hkind⟩ := raiseForHttpStatus_cases D hok
              rw [Reply.outcome, if_neg hok, hraise] at houtcome
              cases houtcome
              rcases hkind with hinterrupt | ⟨_, rfl⟩ | ⟨_, rfl⟩
              · rw [not_retryable_of_interrupt hinterrupt] at hretry
                cases hretry
              · cases hretry
              · cases hretry
      intro a ha
      simp only [replyLog, houtcome, failureOf, List.mem_append, List.mem_map,
        Option.mem_toList, List.mem_singleton] at ha
      rcases ha with ⟨status, hmem, rfl⟩ | ⟨event, -, rfl⟩ | rfl
      · simpa [StreamAction.isFinal] using hstatus status hmem
      · rfl
      · exact hcause

theorem LoopInvariant.attemptRequest_eq {number : Nat} {past : List StreamAction} {s : StreamState}
    (h : LoopInvariant path jsonData initial number past s) :
    attemptRequest .post path jsonData s = disciplinedRequest path jsonData initial past := by
  rw [attemptRequest, h.established, h.cursor, disciplinedRequest, resolveRetryMethod]
  cases hacc : accepted past with
  | true => rfl
  | false => simp [lastYieldedId, h.silent hacc]

/-- Step: one more attempt keeps the log permitted and counts one more request. -/
theorem LoopInvariant.attempt {number : Nat} {past : List StreamAction} {s : StreamState}
    (h : LoopInvariant path jsonData initial number past s) (reply : Reply) :
    let log := past ++ .sent (attemptRequest .post path jsonData s) :: replyLog D reply
    Log.EachAgainstPast (Permitted path jsonData initial) log ∧
      (requestsOf log).length = number := by
  refine ⟨?_, ?_⟩
  · rw [Log.eachAgainstPast_append]
    refine ⟨h.permitted, Log.eachAgainstPast_cons ?_ ?_⟩
    · rintro r heq
      cases heq
      rw [List.append_nil]
      exact ⟨h.attemptRequest_eq, h.unfinished⟩
    · rintro b hb before r rfl
      exact absurd hb (replyLog_not_sent D reply r)
  · rw [requestsOf_append, List.length_append, ← h.count, requestsOf_sent, requestsOf_replyLog]
    rfl

/-- Step: the invariant holds again after an attempt the loop goes on after. -/
theorem LoopInvariant.next {number : Nat} {past : List StreamAction} {s : StreamState}
    (h : LoopInvariant path jsonData initial number past s) {reply : Reply} {e : Exc}
    (hend : closing (reply.outcome D) = .error e) (hretry : isRetryableStreamError e = true) :
    LoopInvariant path jsonData initial (number + 1)
      (past ++ .sent (attemptRequest .post path jsonData s) :: replyLog D reply)
      ⟨Log.advance BridgeSSEEvent.id s.currentLastEventId (reply.events D),
        s.streamEstablished || reply.accepts⟩ := by
  obtain ⟨hpermitted, hcount⟩ := h.attempt D path jsonData initial reply
  refine ⟨?_, ?_, ?_, by rw [hcount], hpermitted, ?_⟩
  · rw [accepted_append, accepted_sent, accepted_replyLog, h.established]
  · rw [h.cursor, advance_lastYieldedId]
    simp only [lastYieldedId, eventsOf_append, eventsOf_sent, eventsOf_replyLog, eventsOf_yielded]
  · intro hacc
    rw [accepted_append, Bool.or_eq_false_iff, accepted_sent, accepted_replyLog] at hacc
    rw [eventsOf_append, h.silent hacc.1, eventsOf_sent, eventsOf_replyLog]
    cases reply with
    | raises _ => rfl
    | answers response => exact if_neg (of_decide_eq_false hacc.2)
  · intro a ha
    cases List.mem_append.mp ha with
    | inl ha => exact h.unfinished a ha
    | inr ha =>
        rcases List.mem_cons.mp ha with rfl | ha
        · rfl
        · exact replyLog_unfinished D hend hretry a ha

/-- Run: every entry of a streaming POST's log is permitted after what came before it. -/
theorem streamRequest_permitted (isConnected : Bool) :
    Log.EachAgainstPast (Permitted path jsonData initial)
        (streamRequest D isConnected session .post path jsonData initial).yields ∧
      (requestsOf
        (streamRequest D isConnected session .post path jsonData initial).yields).length ≤
          maxRetries := by
  have hstart : LoopInvariant path jsonData initial 1 [] ⟨initial, false⟩ :=
    ⟨rfl, rfl, fun _ => rfl, rfl, Log.eachAgainstPast_nil _, by simp⟩
  cases isConnected with
  | false => exact ⟨Log.eachAgainstPast_nil _, Nat.zero_le _⟩
  | true =>
      have hnext (number : Nat) (s : StreamState) (past : List StreamAction)
          (h : LoopInvariant path jsonData initial number past s)
          (hgoes : Retry.GoesOn isRetryableStreamError
            (streamAttempt D session .post path jsonData number s)) :
          LoopInvariant path jsonData initial (number + 1)
            (past ++ (streamAttempt D session .post path jsonData number s).yields)
            (streamAttempt D session .post path jsonData number s).state := by
        obtain ⟨e, hend, hretry⟩ := hgoes
        rw [streamAttempt_eq D session .post path jsonData number s _ rfl] at hend ⊢
        exact h.next D path jsonData initial hend hretry
      have hstop (number : Nat) (s : StreamState) (past : List StreamAction)
          (h : LoopInvariant path jsonData initial number past s) :
          Log.EachAgainstPast (Permitted path jsonData initial)
              (past ++ (streamAttempt D session .post path jsonData number s).yields) ∧
            (requestsOf (past ++
              (streamAttempt D session .post path jsonData number s).yields)).length =
                number := by
        rw [streamAttempt_eq D session .post path jsonData number s _ rfl]
        exact h.attempt D path jsonData initial _
      obtain ⟨last, hlast, hpermitted, hcount⟩ := Retry.attemptsFrom_rule
        (Q := fun number log _ => Log.EachAgainstPast (Permitted path jsonData initial) log ∧
          (requestsOf log).length = number) hnext hstop (maxRetries - 1) 1 _ [] hstart
      exact ⟨hpermitted, by rw [← hcount] at hlast; exact hlast⟩

/-- A streaming POST sends the original request until a response below 400 was
read, then only bodyless GETs behind the last yielded event; it sends nothing
after an error status or a malformed stream, and at most `maxRetries` requests.
A consumer that stops early sees a beginning of this log. -/
theorem streamRequest_discipline (isConnected : Bool) :
    Disciplined path jsonData initial
      (streamRequest D isConnected session .post path jsonData initial).yields := by
  obtain ⟨hpermitted, hattempts⟩ :=
    streamRequest_permitted D session path jsonData initial isConnected
  refine ⟨?_, ?_, hattempts⟩
  · intro before r later heq
    exact (hpermitted before (.sent r) later heq r rfl).1
  · intro before a later heq hfinal
    apply requestsOf_eq_nil
    intro r hmem
    -- a request further on would have the final entry behind it
    obtain ⟨front, back, rfl⟩ := List.append_of_mem hmem
    have hpast := (hpermitted (before ++ a :: front) (.sent r) back (by simp [heq]) r rfl).2
    rw [hpast a (by simp)] at hfinal
    cases hfinal

end Discipline
end DualeAI.Http
