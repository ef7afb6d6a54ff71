import DualeAI.Foundation.Streak
import DualeAI.Sdk.AgentLifecycle

/-!
When the heartbeat loop gives up.

The two counters of the loop are the streaks of authentication failures and of
other failures at the end of its history. `heartbeatLoop` follows the outcomes of
the heartbeats alone; every run of the coroutine does the same.
-/
namespace DualeAI.Agent
open Foundation

/-- One heartbeat of the loop, by how `_send_heartbeat_once` ended. -/
def Failures.beat (failures : Failures) : Outcome → Except Exc Failures
  | .ok _ => .ok {}
  | .error e => failures.record e

/-- What `_heartbeat_loop` comes to: it goes on with its counters, or the heartbeat
at an index made it raise. -/
inductive LoopState where
  | beating (failures : Failures)
  | stopped (index : Nat) (e : Exc)

/-- `_heartbeat_loop` from heartbeat `index` on. -/
def heartbeatLoop (failures : Failures) (index : Nat) : List Outcome → LoopState
  | [] => .beating failures
  | outcome :: rest =>
      match failures.beat outcome with
      | .ok failures => heartbeatLoop failures (index + 1) rest
      | .error e => .stopped index e

theorem heartbeatLoop_concat {failures goesOn : Failures} {index : Nat} {past : List Outcome}
    (h : heartbeatLoop failures index past = .beating goesOn) (outcome : Outcome) :
    heartbeatLoop failures index (past ++ [outcome]) =
      match goesOn.beat outcome with
      | .ok failures => .beating failures
      | .error e => .stopped (index + past.length) e := by
  induction past generalizing failures index with
  | nil =>
      cases h
      rfl
  | cons first rest ih =>
      rw [heartbeatLoop] at h
      rw [List.cons_append, heartbeatLoop]
      cases hbeat : failures.beat first with
      | ok next =>
          rw [hbeat] at h
          have hrest := ih h
          rw [Nat.add_assoc, Nat.add_comm 1 rest.length] at hrest
          exact hrest
      | error e =>
          rw [hbeat] at h
          cases h

/-! ## The coroutine -/

def LoopPoint.failures : LoopPoint → Failures
  | .sleeping failures => failures
  | .heartbeat failures _ => failures

/-- The heartbeat that ends with a stretch of `_send_heartbeat_once`, if any. -/
def heartbeatEnded : Progress Exc HeartbeatPoint Unit → List Outcome
  | .suspended _ => []
  | .returned _ => [.ok ()]
  | .raised e => [.error e]

/-- The heartbeat that ends with a stretch of the loop. -/
def loopHeartbeat (H : Host) (reading : Reading) (P : Publisher) (outcome : Outcome) :
    LoopPoint → List Outcome
  | .sleeping _ => []
  | .heartbeat _ point => heartbeatEnded (resumeHeartbeat H reading P outcome point).2

/-- The coroutine of the loop, resumed while others change the manager in any way,
with the outcomes of its heartbeats so far. -/
inductive LoopRun (H : Host) : List Outcome → Progress Exc LoopPoint Empty → Prop where
  | start : LoopRun H [] (.suspended (.sleeping {}))
  | resume {past : List Outcome} {point : LoopPoint} (hrun : LoopRun H past (.suspended point))
      (reading : Reading) (P : Publisher) (outcome : Outcome) :
      LoopRun H (past ++ loopHeartbeat H reading P outcome point)
        (resumeLoop H reading P outcome point).2

/-- Where the coroutine is, `heartbeatLoop` is; only its sleep may raise besides. -/
def Follows (past : List Outcome) : Progress Exc LoopPoint Empty → Prop
  | .suspended point => heartbeatLoop {} 0 past = .beating point.failures
  | .returned result => result.elim
  | .raised e =>
      heartbeatLoop {} 0 past = .stopped (past.length - 1) e ∨
        ∃ failures, heartbeatLoop {} 0 past = .beating failures

theorem follows_resume {H : Host} {past : List Outcome} {point : LoopPoint}
    (h : Follows past (.suspended point)) (reading : Reading) (P : Publisher) (outcome : Outcome) :
    Follows (past ++ loopHeartbeat H reading P outcome point)
      (resumeLoop H reading P outcome point).2 := by
  cases point with
  | sleeping failures =>
      rw [loopHeartbeat, List.append_nil]
      cases outcome with
      | ok u => exact h
      | error e => exact .inr ⟨failures, h⟩
  | heartbeat failures point =>
      have hlast : ∀ outcome : Outcome, (past ++ [outcome]).length - 1 = past.length := by simp
      rw [loopHeartbeat, resumeLoop]
      cases hresume : resumeHeartbeat H reading P outcome point with
      | mk publisher progress =>
          cases progress with
          | suspended point =>
              rw [heartbeatEnded, List.append_nil]
              exact h
          | returned u => exact heartbeatLoop_concat h (.ok ())
          | raised e =>
              have hnext := heartbeatLoop_concat h (.error e)
              rw [LoopPoint.failures, Failures.beat, Nat.zero_add] at hnext
              simp only [heartbeatEnded, Progress.nest]
              cases hrecord : failures.record e with
              | ok next =>
                  rw [hrecord] at hnext
                  exact hnext
              | error raised =>
                  rw [hrecord] at hnext
                  refine .inl ?_
                  rw [hlast]
                  exact hnext

theorem LoopRun.follows {H : Host} {past : List Outcome} {progress : Progress Exc LoopPoint Empty}
    (h : LoopRun H past progress) : Follows past progress := by
  induction h with
  | start => rfl
  | resume _ reading P outcome ih => exact follows_resume ih reading P outcome

/-! ## Streaks of failures -/

def isAuthFailure : Outcome → Bool
  | .ok _ => false
  | .error e => isAuthError e

def isOtherFailure : Outcome → Bool
  | .ok _ => false
  | .error e => !isAuthError e && e.isException

/-- The last heartbeats are as many failures of one kind as the loop takes. -/
def GivesUp (past : List Outcome) : Prop :=
  EndsIn isAuthFailure maxConsecutiveHeartbeatAuthFailures past ∨
    EndsIn isOtherFailure maxConsecutiveHeartbeatFailures past

def Failures.after (past : List Outcome) : Failures :=
  ⟨streak isOtherFailure past, streak isAuthFailure past⟩

/-- A success, or a failure; what cancels the loop is neither. -/
def isHeartbeat : Outcome → Bool
  | .ok _ => true
  | .error e => e.isException

variable {past outcomes : List Outcome} {outcome : Outcome}

theorem after_success {u : Unit} : Failures.after (past ++ [.ok u]) = {} := by
  have hother : streak isOtherFailure (past ++ [.ok u]) = 0 := streak_concat_of_neg rfl
  have hauth : streak isAuthFailure (past ++ [.ok u]) = 0 := streak_concat_of_neg rfl
  rw [Failures.after, hother, hauth]

theorem after_authFailure {e : Exc} (h : isAuthError e = true) :
    Failures.after (past ++ [.error e]) = ⟨0, streak isAuthFailure past + 1⟩ := by
  have hother : streak isOtherFailure (past ++ [.error e]) = 0 :=
    streak_concat_of_neg (by simp [isOtherFailure, h])
  have hauth : streak isAuthFailure (past ++ [.error e]) = streak isAuthFailure past + 1 :=
    streak_concat_of_pos h
  rw [Failures.after, hother, hauth]

theorem after_otherFailure {e : Exc} (hauth : isAuthError e = false) (h : e.isException = true) :
    Failures.after (past ++ [.error e]) = ⟨streak isOtherFailure past + 1, 0⟩ := by
  have hother : streak isOtherFailure (past ++ [.error e]) = streak isOtherFailure past + 1 :=
    streak_concat_of_pos (by simp [isOtherFailure, hauth, h])
  have hnone : streak isAuthFailure (past ++ [.error e]) = 0 := streak_concat_of_neg hauth
  rw [Failures.after, hother, hnone]

theorem givesUp_iff :
    GivesUp past ↔ (Failures.after past).consecutiveAuth ≥ maxConsecutiveHeartbeatAuthFailures ∨
      (Failures.after past).consecutive ≥ maxConsecutiveHeartbeatFailures := by
  rw [GivesUp, endsIn_iff, endsIn_iff]
  rfl

/-- The counters stay the streaks, and the loop raises the failure that completes
one. -/
theorem beat_after (past : List Outcome) (h : isHeartbeat outcome = true) :
    (¬ GivesUp (past ++ [outcome]) ∧
      (Failures.after past).beat outcome = .ok (Failures.after (past ++ [outcome]))) ∨
    (GivesUp (past ++ [outcome]) ∧
      ∃ e, outcome = .error e ∧ (Failures.after past).beat outcome = .error e) := by
  rw [givesUp_iff]
  cases outcome with
  | ok u =>
      refine .inl ⟨?_, ?_⟩
      · rw [after_success]
        decide
      · rw [after_success, Failures.beat]
  | error e =>
      cases hauth : isAuthError e with
      | true =>
          rw [after_authFailure hauth, Failures.beat, Failures.record, if_pos hauth]
          by_cases hmany : streak isAuthFailure past + 1 ≥ maxConsecutiveHeartbeatAuthFailures
          · exact .inr ⟨.inl hmany, e, rfl, if_pos hmany⟩
          · refine .inl ⟨?_, if_neg hmany⟩
            intro hstop
            cases hstop with
            | inl hauth => exact hmany hauth
            | inr hother =>
                have hnone : ¬ (0 : Nat) ≥ maxConsecutiveHeartbeatFailures := by decide
                exact hnone hother
      | false =>
          have hexception : e.isException = true := h
          rw [after_otherFailure hauth hexception, Failures.beat, Failures.record,
            if_neg (by simp [hauth]), if_pos hexception]
          by_cases hmany : streak isOtherFailure past + 1 ≥ maxConsecutiveHeartbeatFailures
          · exact .inr ⟨.inr hmany, e, rfl, if_pos hmany⟩
          · refine .inl ⟨?_, if_neg hmany⟩
            intro hstop
            cases hstop with
            | inl hauth =>
                have hnone : ¬ (0 : Nat) ≥ maxConsecutiveHeartbeatAuthFailures := by decide
                exact hnone hauth
            | inr hother => exact hmany hother

/-! ## The first index where the loop gives up -/

/-- Heartbeat `n` raised `e`, and with it the loop gives up. -/
def GivesUpAt (outcomes : List Outcome) (n : Nat) (e : Exc) : Prop :=
  outcomes[n]? = some (.error e) ∧ GivesUp (outcomes.take (n + 1))

theorem take_append_singleton (past : List Outcome) (outcome : Outcome) (rest : List Outcome) :
    (past ++ outcome :: rest).take (past.length + 1) = past ++ [outcome] := by
  rw [List.take_length_add_append, List.take_succ_cons, List.take_zero]

theorem heartbeatLoop_after (past : List Outcome)
    (h : ∀ outcome ∈ outcomes, isHeartbeat outcome = true) (n : Nat) (e : Exc) :
    heartbeatLoop (Failures.after past) past.length outcomes = .stopped n e ↔
      past.length ≤ n ∧ GivesUpAt (past ++ outcomes) n e ∧
        ∀ m, past.length ≤ m → m < n → ¬ GivesUp ((past ++ outcomes).take (m + 1)) := by
  induction outcomes generalizing past with
  | nil =>
      constructor
      · intro hstop
        cases hstop
      · intro hstop
        obtain ⟨hle, ⟨hget, -⟩, -⟩ := hstop
        rw [List.append_nil, List.getElem?_eq_none hle] at hget
        cases hget
  | cons outcome rest ih =>
      have hhead : isHeartbeat outcome = true := h outcome List.mem_cons_self
      have htail : ∀ outcome ∈ rest, isHeartbeat outcome = true := fun later hmem =>
        h later (List.mem_cons_of_mem _ hmem)
      have hindex : (past ++ outcome :: rest)[past.length]? = some outcome := by
        rw [List.getElem?_append_right (Nat.le_refl _), Nat.sub_self, List.getElem?_cons_zero]
      rw [heartbeatLoop]
      cases beat_after past hhead with
      | inl hgoesOn =>
          obtain ⟨hnot, hbeat⟩ := hgoesOn
          rw [← take_append_singleton past outcome rest] at hnot
          have hsplit : past ++ outcome :: rest = past ++ [outcome] ++ rest := by
            rw [List.append_assoc, List.singleton_append]
          have hlength : (past ++ [outcome]).length = past.length + 1 := by
            rw [List.length_append, List.length_singleton]
          have hrest := ih (past ++ [outcome]) htail
          rw [hlength, ← hsplit] at hrest
          rw [hbeat, hrest]
          constructor
          · intro hstop
            obtain ⟨hle, hat, hbefore⟩ := hstop
            refine ⟨Nat.le_of_succ_le hle, hat, ?_⟩
            intro m hm hlt
            cases Nat.eq_or_lt_of_le hm with
            | inl heq => rwa [← heq]
            | inr hlater => exact hbefore m hlater hlt
          · intro hstop
            obtain ⟨hle, hat, hbefore⟩ := hstop
            cases Nat.eq_or_lt_of_le hle with
            | inl heq =>
                rw [GivesUpAt, ← heq] at hat
                exact absurd hat.2 hnot
            | inr hlater =>
                exact ⟨hlater, hat, fun m hm hlt => hbefore m (Nat.le_of_succ_le hm) hlt⟩
      | inr hends =>
          obtain ⟨hgives, raised, rfl, hbeat⟩ := hends
          rw [← take_append_singleton past _ rest] at hgives
          rw [hbeat]
          constructor
          · intro hstop
            cases hstop
            exact ⟨Nat.le_refl _, ⟨hindex, hgives⟩, fun m hm hlt => absurd hlt (by omega)⟩
          · intro hstop
            obtain ⟨hle, hat, hbefore⟩ := hstop
            cases Nat.eq_or_lt_of_le hle with
            | inl heq =>
                rw [GivesUpAt, ← heq, hindex] at hat
                cases hat.1
                rw [heq]
            | inr hlater => exact absurd hgives (hbefore _ (Nat.le_refl _) hlater)

/-- The loop stops by itself exactly at the first heartbeat that completes a streak,
and raises that heartbeat's failure. -/
theorem heartbeatLoop_stopped_iff (h : ∀ outcome ∈ outcomes, isHeartbeat outcome = true) (n : Nat)
    (e : Exc) :
    heartbeatLoop {} 0 outcomes = .stopped n e ↔
      outcomes[n]? = some (.error e) ∧ GivesUp (outcomes.take (n + 1)) ∧
        ∀ m < n, ¬ GivesUp (outcomes.take (m + 1)) := by
  have hloop := heartbeatLoop_after [] h n e
  have hfresh : Failures.after [] = {} := by
    rw [Failures.after, streak_nil, streak_nil]
  rw [hfresh, List.nil_append, List.length_nil] at hloop
  rw [hloop]
  constructor
  · intro hstop
    obtain ⟨-, hat, hbefore⟩ := hstop
    exact ⟨hat.1, hat.2, fun m hlt => hbefore m (Nat.zero_le m) hlt⟩
  · intro hstop
    obtain ⟨hget, hgives, hbefore⟩ := hstop
    exact ⟨Nat.zero_le n, ⟨hget, hgives⟩, fun m _ hlt => hbefore m hlt⟩

def rejected : Outcome := .error (.sdk ⟨.authError, .connectFailed, none⟩)

def missed : Outcome := .error (.other "ConnectionResetError")

/-- Kinds that take turns do not add up. -/
def mixedOutcomes : List Outcome := [rejected, missed, missed, .ok (), rejected, missed, rejected,
  rejected, missed]

theorem heartbeatLoop_stopped_mixed :
    mixedOutcomes[7]? = some (.error (.sdk ⟨.authError, .connectFailed, none⟩)) ∧
      GivesUp (mixedOutcomes.take 8) ∧ ∀ m < 7, ¬ GivesUp (mixedOutcomes.take (m + 1)) := by
  have hmixed : ∀ outcome ∈ mixedOutcomes, isHeartbeat outcome = true := List.all_eq_true.mp rfl
  exact (heartbeatLoop_stopped_iff hmixed 7 _).mp rfl

end DualeAI.Agent
