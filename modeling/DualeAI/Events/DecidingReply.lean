import DualeAI.Events.Client

/-!
The reply that decides a streaming request.

A reply passes when it ends in a retryable failure and delivers no terminal
event. The consumer of a streaming request gets what the first reply that does
not pass makes of it, or the last one if the whole retry budget passes.
-/
namespace DualeAI.Client
open Foundation Http

def DeliversTerminal (D : HttpDecoders) (reply : Reply) : Prop :=
  ∃ event ∈ reply.events D, event.data.isTerminal = true

def Passes (D : HttpDecoders) (reply : Reply) : Prop :=
  ¬ DeliversTerminal D reply ∧
    ∃ e, reply.outcome D = .error e ∧ isRetryableStreamError e = true

/-- Reply `k` of those from `number` on decides, with `remaining` retries allowed. -/
structure Decides (D : HttpDecoders) (replies : Nat → Reply) (remaining number k : Nat) :
    Prop where
  inBudget : k ≤ remaining
  passed : ∀ j < k, Passes D (replies (number + j))
  last : k < remaining → ¬ Passes D (replies (number + k))

def replyResult (D : HttpDecoders) (callbacks : Callbacks) (taskId : Text) (operation : String)
    (reply : Reply) : Except Exc BridgeEventData :=
  (consumeTerminalStream callbacks taskId operation
    ⟨reply.events D, closing (reply.outcome D)⟩).result

section
variable {D : HttpDecoders} {replies : Nat → Reply}

theorem exists_decides (remaining number : Nat) :
    ∃ k, Decides D replies remaining number k := by
  induction remaining generalizing number with
  | zero => exact ⟨0, Nat.le_refl 0, by simp, by simp⟩
  | succ remaining ih =>
      by_cases h : Passes D (replies number)
      · obtain ⟨k, hk⟩ := ih (number + 1)
        have hshift (j : Nat) : number + 1 + j = number + (j + 1) := by omega
        refine ⟨k + 1, Nat.succ_le_succ hk.inBudget, ?_, ?_⟩
        · intro j hj
          cases j with
          | zero => exact h
          | succ j => exact hshift j ▸ hk.passed j (Nat.lt_of_succ_lt_succ hj)
        · intro hlt
          exact hshift k ▸ hk.last (Nat.lt_of_succ_lt_succ hlt)
      · exact ⟨0, Nat.zero_le _, by simp, fun _ => h⟩

theorem Decides.shift {remaining number k : Nat}
    (h : Decides D replies (remaining + 1) number (k + 1)) :
    Decides D replies remaining (number + 1) k := by
  have hshift (j : Nat) : number + 1 + j = number + (j + 1) := by omega
  refine ⟨Nat.le_of_succ_le_succ h.inBudget, ?_, ?_⟩
  · intro j hj
    exact hshift j ▸ h.passed (j + 1) (Nat.succ_lt_succ hj)
  · intro hlt
    exact hshift k ▸ h.last (Nat.succ_lt_succ hlt)

theorem isRetryableStreamError_exceptClauses (e : Exc) :
    isRetryableStreamError (exceptClauses e) = isRetryableStreamError e := by
  cases e with
  | sse e => cases h : e.isChecksumError <;> simp [exceptClauses, isRetryableStreamError, h]
  | client _ | unicodeDecodeError | transport _ | sdk _ | cancelled | other _ | fatal _ => rfl

end

/-! ## The consumer across attempts -/

section Consumer
variable (callbacks : Callbacks) (taskId : Text) (operation : String)

/-- Nothing after a terminal event matters to the consumer. -/
theorem consumeTerminalStream_of_terminal {events : List BridgeSSEEvent}
    (h : ∃ event ∈ events, event.data.isTerminal = true) (more : List BridgeSSEEvent)
    (result result' : Except Exc Unit) :
    (consumeTerminalStream callbacks taskId operation ⟨events ++ more, result⟩).result =
      (consumeTerminalStream callbacks taskId operation ⟨events, result'⟩).result := by
  obtain ⟨event, hmem, hterminal⟩ := h
  cases hfind : events.find? fun event : BridgeSSEEvent => event.data.isTerminal with
  | none => exact absurd hterminal (by simpa using List.find?_eq_none.mp hfind event hmem)
  | some first =>
      have hlong : (events ++ more).find? (fun event => event.data.isTerminal) = some first := by
        rw [List.find?_append, hfind]
        rfl
      exact (consumeTerminalStream_terminal callbacks taskId operation hlong).trans
        (consumeTerminalStream_terminal callbacks taskId operation hfind).symm

theorem consumeTerminalStream_append {events : List BridgeSSEEvent}
    (h : ¬ ∃ event ∈ events, event.data.isTerminal = true) (more : List BridgeSSEEvent)
    (result : Except Exc Unit) :
    (consumeTerminalStream callbacks taskId operation ⟨events ++ more, result⟩).result =
      (consumeTerminalStream callbacks taskId operation ⟨more, result⟩).result := by
  have hfind : events.find? (fun event => event.data.isTerminal) = none := by
    simpa [List.find?_eq_none] using h
  rw [consumeTerminalStream, consumeTerminalStream, dispatchStream_eq, dispatchStream_eq]
  simp only [List.find?_append, hfind, Option.none_or]
  cases more.find? fun event : BridgeSSEEvent => event.data.isTerminal <;> rfl

variable (D : HttpDecoders) (replies : Nat → Reply) (path : Text) (body : Body)

abbrev attemptOn : Nat → StreamState → AttemptRun StreamState Exc StreamAction Unit :=
  streamAttempt D (fun number _ => replies number) .post path (some body)

theorem attemptOn_reads (number : Nat) (s : StreamState) :
    eventsOf (attemptOn D replies path body number s).yields = (replies number).events D ∧
      (attemptOn D replies path body number s).result = closing ((replies number).outcome D) := by
  rw [attemptOn, streamAttempt_eq D _ .post path (some body) number s (replies number) rfl]
  exact ⟨by rw [eventsOf_sent, eventsOf_replyLog], rfl⟩

theorem goesOn_attemptOn_iff (number : Nat) (s : StreamState) :
    Retry.GoesOn isRetryableStreamError (attemptOn D replies path body number s) ↔
      ∃ e, (replies number).outcome D = .error e ∧ isRetryableStreamError e = true := by
  rw [Retry.GoesOn, (attemptOn_reads D replies path body number s).2]
  cases (replies number).outcome D with
  | ok u => simp [closing]
  | error e => simp [closing, isRetryableStreamError_exceptClauses]

/-- Run: the consumer of the loop gets what the deciding reply makes of it. -/
theorem consume_attemptsFrom (remaining number k : Nat) (s : StreamState)
    (h : Decides D replies remaining number k) :
    let run := Retry.attemptsFrom isRetryableStreamError (attemptOn D replies path body) remaining
      number s
    (consumeTerminalStream callbacks taskId operation ⟨eventsOf run.yields, run.result⟩).result =
      replyResult D callbacks taskId operation (replies (number + k)) := by
  induction remaining generalizing number k s with
  | zero =>
      obtain ⟨hevents, hresult⟩ := attemptOn_reads D replies path body number s
      cases Nat.le_zero.mp h.inBudget
      simp only [Retry.attemptsFrom, hevents, hresult]
      rfl
  | succ remaining ih =>
      obtain ⟨hevents, hresult⟩ := attemptOn_reads D replies path body number s
      have hgoes := goesOn_attemptOn_iff D replies path body number s
      cases k with
      | zero =>
          have hstay := h.last (Nat.succ_pos remaining)
          by_cases hretry : Retry.GoesOn isRetryableStreamError
              (attemptOn D replies path body number s)
          · have hterminal : DeliversTerminal D (replies number) := by
              by_contra hopen
              exact hstay ⟨hopen, hgoes.mp hretry⟩
            simp only [Retry.attemptsFrom_next hretry, eventsOf_append, hevents]
            exact consumeTerminalStream_of_terminal callbacks taskId operation hterminal _ _ _
          · simp only [Retry.attemptsFrom_stop hretry, hevents, hresult]
            rfl
      | succ k =>
          have hpass : Passes D (replies number) := h.passed 0 (Nat.succ_pos k)
          obtain ⟨hopen, hretry⟩ := hpass
          simp only [Retry.attemptsFrom_next (hgoes.mpr hretry), eventsOf_append, hevents]
          rw [consumeTerminalStream_append callbacks taskId operation hopen,
            ih (number + 1) k _ h.shift, Nat.add_right_comm, Nat.add_assoc]

end Consumer

/-! ## The operations -/

section Operations
variable (D : HttpDecoders) (replies : Nat → Reply) (callbacks : Callbacks) (taskId : Text)

abbrev DecidesTask (k : Nat) : Prop := Decides D replies (maxRetries - 1) 1 k

theorem consume_taskStream {client : CloudEventsClient} (hclient : client.transportConnected = true)
    (operation : String) (body : Body) (lastEventId : Option Text) {k : Nat}
    (h : DecidesTask D replies k) :
    (consumeTerminalStream callbacks taskId operation
      (taskStream D client (fun number _ => replies number) taskId body lastEventId)).result =
      replyResult D callbacks taskId operation (replies (1 + k)) := by
  rw [taskStream, streamRequest, if_pos hclient]
  exact consume_attemptsFrom callbacks taskId operation D replies (taskPath taskId) body
    (maxRetries - 1) 1 k ⟨lastEventId, false⟩ h

end Operations
end DualeAI.Client
