import DualeAI.Events.DecidingReply

/-!
Which exceptions reach the caller of `run_task` and `submit_tool_results`.

The client translates the transport's own errors. Whatever else leaves the retry
loop passes through it: a retryable error when the budget is used up, and every
error outside the retryable classes. The caller gets a terminal event or an SDK
error exactly when a settling reply comes within the budget and only passing
ones come before it.
-/
namespace DualeAI.Client
open Foundation Http

/-- A received terminal event, or one of the SDK's errors. Interrupting the
caller, by cancellation for one, is no error of the stream. -/
inductive Settled (events : List BridgeSSEEvent) : Except Exc BridgeEventData → Prop where
  | terminal (event : BridgeSSEEvent) (hmem : event ∈ events)
      (hterminal : event.data.isTerminal = true) : Settled events (.ok event.data)
  | translated (e : DualeAIError) : Settled events (.error (.sdk e))
  | interrupted (e : Exc) (h : e.isException = false) : Settled events (.error e)

/-- An exception the client translates, its own, or an interruption of the caller. -/
def isTranslated : Exc → Bool
  | .transport _ | .sdk _ | .cancelled | .fatal _ => true
  | _ => false

def EndsTranslated (result : Except Exc Unit) : Prop :=
  result = .ok () ∨ ∃ e, result = .error e ∧ isTranslated e = true

section Replies
variable (D : HttpDecoders)

/-- The reply ends the stream with a terminal event, cleanly, with an HTTP error
status, or with a parse error other than a checksum mismatch. -/
def Settles (reply : Reply) : Prop :=
  DeliversTerminal D reply ∨ EndsTranslated (closing (reply.outcome D))

/-- A settling reply comes within the retry budget, passing ones before it. -/
def SettlesInBudget (replies : Nat → Reply) : Prop :=
  ∃ k < maxRetries, (∀ j < k, Passes D (replies (1 + j))) ∧ Settles D (replies (1 + k))

variable {D}

theorem not_isRetryable_of_isTranslated {e : Exc} (h : isTranslated e = true) :
    isRetryableStreamError e = false := by
  cases e with
  | transport _ | sdk _ | cancelled | fatal _ => rfl
  | client _ | sse _ | unicodeDecodeError | other _ => cases h

theorem Passes.not_settles {reply : Reply} (h : Passes D reply) : ¬ Settles D reply := by
  obtain ⟨hopen, e, hend, hretry⟩ := h
  rintro (hterminal | hends)
  · exact hopen hterminal
  · rw [hend] at hends
    cases hends with
    | inl hok => cases hok
    | inr h =>
        obtain ⟨e', hend', htranslated⟩ := h
        cases hend'
        rw [← isRetryableStreamError_exceptClauses, not_isRetryable_of_isTranslated htranslated]
          at hretry
        cases hretry

theorem Decides.settlesInBudget_iff {replies : Nat → Reply} {k : Nat}
    (h : DecidesTask D replies k) :
    SettlesInBudget D replies ↔ Settles D (replies (1 + k)) := by
  constructor
  · rintro ⟨i, hi, hpassed, hsettles⟩
    rcases Nat.lt_trichotomy i k with hlt | rfl | hlt
    · exact absurd hsettles (h.passed i hlt).not_settles
    · exact hsettles
    · have hlast : k < maxRetries - 1 := by omega
      exact absurd (hpassed k hlt) (h.last hlast)
  · intro hsettles
    have hbudget : k < maxRetries := Nat.lt_of_le_of_lt h.inBudget (by decide)
    exact ⟨k, hbudget, h.passed, hsettles⟩

end Replies

/-! ## The consumer -/

/-- Whether a result is settled does not depend on the stream it came from. -/
theorem settled_consume_iff (callbacks : Callbacks) (taskId : Text) (operation : String)
    (stream : Gen Exc BridgeSSEEvent Unit) :
    Settled stream.yields (consumeTerminalStream callbacks taskId operation stream).result ↔
      ∃ events, Settled events
        (consumeTerminalStream callbacks taskId operation stream).result := by
  constructor
  · exact fun h => ⟨_, h⟩
  · rintro ⟨events, h⟩
    cases hfind : stream.yields.find? fun event : BridgeSSEEvent => event.data.isTerminal with
    | some first =>
        rw [consumeTerminalStream_terminal callbacks taskId operation hfind]
        have hterminal : first.data.isTerminal = true := by simpa using List.find?_some hfind
        exact .terminal first (List.mem_of_find?_eq_some hfind) hterminal
    | none =>
        have hopen : ∀ event ∈ stream.yields, event.data.isTerminal = false := by
          simpa [List.find?_eq_none] using hfind
        rw [consumeTerminalStream_open callbacks taskId operation hopen] at h ⊢
        generalize streamEndError taskId operation stream.result = e at h ⊢
        cases h with
        | translated e => exact .translated e
        | interrupted _ hexc => exact .interrupted _ hexc

theorem settled_replyResult_iff (D : HttpDecoders) (callbacks : Callbacks) (taskId : Text)
    (operation : String) (reply : Reply) :
    (∃ events, Settled events (replyResult D callbacks taskId operation reply)) ↔
      Settles D reply := by
  rw [replyResult, ← settled_consume_iff]
  by_cases hterminal : DeliversTerminal D reply
  · refine ⟨fun _ => .inl hterminal, fun _ => ?_⟩
    obtain ⟨event, hmem, hevent⟩ := hterminal
    cases hfind : (reply.events D).find? fun event => event.data.isTerminal with
    | none => exact absurd hevent (by simpa using List.find?_eq_none.mp hfind event hmem)
    | some first =>
        have hfirst : first.data.isTerminal = true := by simpa using List.find?_some hfind
        rw [consumeTerminalStream_terminal callbacks taskId operation hfind]
        exact .terminal first (List.mem_of_find?_eq_some hfind) hfirst
  · have hopen : ∀ event ∈ reply.events D, event.data.isTerminal = false := by
      intro event hmem
      exact Bool.eq_false_iff.mpr fun h => hterminal ⟨event, hmem, h⟩
    rw [consumeTerminalStream_open callbacks taskId operation hopen, Settles]
    simp only [hterminal, false_or]
    cases closing (reply.outcome D) with
    | ok u => exact ⟨fun _ => .inl rfl, fun _ => .translated _⟩
    | error e =>
        constructor
        · intro h
          refine .inr ⟨e, rfl, ?_⟩
          cases e with
          | transport _ | sdk _ | cancelled | fatal _ => rfl
          | client _ | sse _ | unicodeDecodeError | other _ =>
              cases h with
              | interrupted _ hexc => cases hexc
        · rintro (h | ⟨e', h, htranslated⟩)
          · cases h
          · cases h
            cases e with
            | transport _ | sdk _ => exact .translated _
            | cancelled | fatal _ => exact .interrupted _ rfl
            | client _ | sse _ | unicodeDecodeError | other _ => cases htranslated

/-! ## The operations -/

section Operations
variable (D : HttpDecoders) (client : CloudEventsClient) (replies : Nat → Reply)
variable (callbacks : Callbacks) (taskId : Text)

def SettlesInTime : Prop :=
  (client.connected && client.hasTransport && client.transportConnected) = false ∨
    SettlesInBudget D replies

theorem settled_operation_iff (operation : String) (body : Body) (lastEventId : Option Text) :
    let stream := taskStream D client (fun number _ => replies number) taskId body lastEventId
    Settled stream.yields
        (ensureConnected client
          (consumeTerminalStream callbacks taskId operation stream)).result ↔
      SettlesInTime D client replies := by
  intro stream
  rw [ensureConnected, SettlesInTime]
  cases hclient : client.connected && client.hasTransport with
  | false => exact ⟨fun _ => .inl rfl, fun _ => .translated _⟩
  | true =>
      simp only [ite_true, Bool.true_and]
      cases htransport : client.transportConnected with
      | false =>
          have hstream : stream = Gen.raise (.transport ⟨.connection, .notConnected, none⟩) := by
            simp only [stream, taskStream, streamRequest, htransport]
            rfl
          rw [hstream]
          exact ⟨fun _ => .inl rfl, fun _ => .translated _⟩
      | true =>
          have hdecides : ∃ k, DecidesTask D replies k := exists_decides (maxRetries - 1) 1
          obtain ⟨k, hk⟩ := hdecides
          rw [settled_consume_iff, consume_taskStream D replies callbacks taskId htransport
            operation body lastEventId hk, settled_replyResult_iff, hk.settlesInBudget_iff]
          simp

/-- Both operations return a received terminal event or raise an SDK error
exactly when the client is not connected or a settling reply comes within the
retry budget, before any reply that neither settles nor passes. -/
theorem operations_settled_iff (request : BridgeTaskRequest) (results : Body)
    (lastEventId : Option Text) :
    let session := fun (number : Nat) (_ : Request) => replies number
    (Settled (taskStream D client session taskId request.json none).yields
        (runTask D client session callbacks taskId request).result ↔
      SettlesInTime D client replies) ∧
    (Settled (taskStream D client session taskId results lastEventId).yields
        (submitToolResults D client session callbacks taskId results lastEventId).result ↔
      SettlesInTime D client replies) :=
  ⟨settled_operation_iff D client replies callbacks taskId _ request.json none,
    settled_operation_iff D client replies callbacks taskId _ results lastEventId⟩

/-- A Bridge that is unreachable for the whole retry budget: the caller gets the
session's own exception. -/
theorem runTask_unreachable_raises :
    (runTask frozenHttpDecoders ⟨true, true, true⟩
        (fun _ _ => .raises (.client .clientConnectionError)) ⟨true, true, true⟩ "t".toList
        ⟨"create".toList, []⟩).result = .error (.client .clientConnectionError) ∧
      ∀ events, ¬ Settled events (.error (.client .clientConnectionError)) :=
  ⟨by rfl, fun _ h => by cases h with | interrupted _ hexc => cases hexc⟩

end Operations
end DualeAI.Client
