import Mathlib.Algebra.Order.Field.Rat
import Mathlib.Data.Rat.Cast.Order
import Mathlib.Tactic.Linarith
import Mathlib.Tactic.Ring

/-!
The offset of the server's clock that the heartbeats estimate.

Times are seconds, as exact rationals. The two clocks run at one pace, the
server's ahead by `trueOffset`. A heartbeat that is not answered gives no
sample; the delays of one that is are arbitrary.
-/
namespace DualeAI.Agent

structure AgentHeartbeatResponse where
  serverReceivedAt : Rat
  serverSentAt : Rat

/-- Samples with a longer round trip are discarded. -/
def maxRoundTrip : Rat := 5

def updateClockOffset (clockOffset localSentAt localReceivedAt : Rat)
    (response : AgentHeartbeatResponse) : Rat :=
  let roundTrip := localReceivedAt - localSentAt
  if roundTrip > maxRoundTrip then clockOffset
  else
    let serverMidpoint :=
      response.serverReceivedAt + (response.serverSentAt - response.serverReceivedAt) / 2
    let localMidpoint := localSentAt + roundTrip / 2
    serverMidpoint - localMidpoint

def estimatedServerTime (clockOffset localNow : Rat) : Rat := localNow + clockOffset

/-- One answered heartbeat: when it was sent, on the local clock, and how long it
was on its way, at the server, and on its way back. -/
structure Exchange where
  sentAt : Rat
  outward : Rat
  processing : Rat
  homeward : Rat
  outward_nonneg : 0 ≤ outward
  processing_nonneg : 0 ≤ processing
  homeward_nonneg : 0 ≤ homeward

namespace Exchange

def roundTrip (x : Exchange) : Rat := x.outward + x.processing + x.homeward

def receivedAt (x : Exchange) : Rat := x.sentAt + x.roundTrip

/-- What the server's clock, `trueOffset` ahead, put into the response. -/
def response (trueOffset : Rat) (x : Exchange) : AgentHeartbeatResponse where
  serverReceivedAt := x.sentAt + x.outward + trueOffset
  serverSentAt := x.sentAt + x.outward + x.processing + trueOffset

def Accepted (x : Exchange) : Prop := x.roundTrip ≤ maxRoundTrip

theorem outward_add_homeward_le (x : Exchange) (h : x.Accepted) :
    x.outward + x.homeward ≤ maxRoundTrip := by
  have hprocessing := x.processing_nonneg
  rw [Accepted, roundTrip] at h
  linarith

/-- Half the asymmetry of the delays is at most half their sum. -/
theorem abs_asymmetry_le (x : Exchange) :
    |(x.outward - x.homeward) / 2| ≤ (x.outward + x.homeward) / 2 := by
  have houtward := x.outward_nonneg
  have hhomeward := x.homeward_nonneg
  rw [abs_le]
  constructor <;> linarith

end Exchange

/-- What came of sending a heartbeat. -/
inductive Sample where
  | missing
  | answered (x : Exchange)

def Sample.Accepted : Sample → Prop
  | .missing => False
  | .answered x => x.Accepted

/-- `_send_heartbeat_once`, as far as the offset goes. -/
def sampleOffset (trueOffset clockOffset : Rat) : Sample → Rat
  | .missing => clockOffset
  | .answered x =>
      updateClockOffset clockOffset x.sentAt x.receivedAt (x.response trueOffset)

def offsetAfter (trueOffset clockOffset : Rat) (samples : List Sample) : Rat :=
  samples.foldl (sampleOffset trueOffset) clockOffset

variable {trueOffset clockOffset : Rat}

theorem receivedAt_sub_sentAt (x : Exchange) : x.receivedAt - x.sentAt = x.roundTrip := by
  rw [Exchange.receivedAt, add_sub_cancel_left]

theorem sampleOffset_accepted {x : Exchange} (h : x.Accepted) :
    sampleOffset trueOffset clockOffset (.answered x) =
      trueOffset + (x.outward - x.homeward) / 2 := by
  have hkept : ¬ x.roundTrip > maxRoundTrip := not_lt.mpr h
  rw [sampleOffset, updateClockOffset, receivedAt_sub_sentAt, if_neg hkept]
  simp only [Exchange.response, Exchange.roundTrip]
  ring

theorem sampleOffset_of_not_accepted {sample : Sample} (h : ¬ sample.Accepted) :
    sampleOffset trueOffset clockOffset sample = clockOffset := by
  cases sample with
  | missing => rfl
  | answered x =>
      have hdiscarded : x.roundTrip > maxRoundTrip := not_le.mp h
      simp only [sampleOffset, updateClockOffset, receivedAt_sub_sentAt, if_pos hdiscarded]

/-- The offset is within half the longest round trip of the true one. -/
def Close (trueOffset clockOffset : Rat) : Prop := |clockOffset - trueOffset| ≤ maxRoundTrip / 2

theorem error_of_accepted {x : Exchange} (h : x.Accepted) :
    |sampleOffset trueOffset clockOffset (.answered x) - trueOffset| ≤
      (x.outward + x.homeward) / 2 := by
  rw [sampleOffset_accepted h, add_sub_cancel_left]
  exact x.abs_asymmetry_le

theorem close_of_accepted {sample : Sample} (h : sample.Accepted) :
    Close trueOffset (sampleOffset trueOffset clockOffset sample) := by
  cases sample with
  | missing => exact False.elim h
  | answered x =>
      have hsum := x.outward_add_homeward_le h
      calc |sampleOffset trueOffset clockOffset (.answered x) - trueOffset|
          ≤ (x.outward + x.homeward) / 2 := error_of_accepted h
        _ ≤ maxRoundTrip / 2 := by linarith

theorem Close.sampleOffset (h : Close trueOffset clockOffset) (sample : Sample) :
    Close trueOffset (sampleOffset trueOffset clockOffset sample) := by
  by_cases haccepted : sample.Accepted
  · exact close_of_accepted haccepted
  · rw [sampleOffset_of_not_accepted haccepted]
    exact h

theorem Close.offsetAfter (h : Close trueOffset clockOffset) (samples : List Sample) :
    Close trueOffset (offsetAfter trueOffset clockOffset samples) := by
  induction samples generalizing clockOffset with
  | nil => exact h
  | cons sample samples ih => exact ih (h.sampleOffset sample)

theorem close_after_accepted {samples : List Sample} (h : ∃ sample ∈ samples, sample.Accepted) :
    Close trueOffset (offsetAfter trueOffset clockOffset samples) := by
  induction samples generalizing clockOffset with
  | nil =>
      obtain ⟨sample, hmem, -⟩ := h
      exact absurd hmem List.not_mem_nil
  | cons sample samples ih =>
      obtain ⟨accepted, hmem, haccepted⟩ := h
      cases List.mem_cons.mp hmem with
      | inl heq =>
          rw [heq] at haccepted
          exact (close_of_accepted haccepted).offsetAfter samples
      | inr hlater => exact ih ⟨accepted, hlater, haccepted⟩

theorem Close.estimate (h : Close trueOffset clockOffset) (localNow : Rat) :
    |estimatedServerTime clockOffset localNow - (localNow + trueOffset)| ≤ maxRoundTrip / 2 := by
  rw [estimatedServerTime, add_sub_add_left_eq_sub]
  exact h

/-- An accepted sample is off by half the asymmetry of its delays, other heartbeats
leave the offset, and from the first accepted one on the estimate is within
two and a half seconds of the server's clock. -/
theorem heartbeat_offset_within (trueOffset clockOffset : Rat) :
    (∀ x : Exchange, x.Accepted →
      sampleOffset trueOffset clockOffset (.answered x) =
          trueOffset + (x.outward - x.homeward) / 2 ∧
        |sampleOffset trueOffset clockOffset (.answered x) - trueOffset| ≤
          (x.outward + x.homeward) / 2 ∧
        |sampleOffset trueOffset clockOffset (.answered x) - trueOffset| ≤ 5 / 2) ∧
    (∀ sample : Sample, ¬ sample.Accepted →
      sampleOffset trueOffset clockOffset sample = clockOffset) ∧
    (∀ samples : List Sample, (∃ sample ∈ samples, sample.Accepted) → ∀ localNow : Rat,
      |estimatedServerTime (offsetAfter trueOffset clockOffset samples) localNow -
        (localNow + trueOffset)| ≤ 5 / 2) := by
  refine ⟨?_, ?_, ?_⟩
  · intro x haccepted
    have hsample : Sample.Accepted (.answered x) := haccepted
    exact ⟨sampleOffset_accepted haccepted, error_of_accepted haccepted,
      close_of_accepted hsample⟩
  · intro sample hdiscarded
    exact sampleOffset_of_not_accepted hdiscarded
  · intro samples haccepted localNow
    exact (close_after_accepted haccepted).estimate localNow

/-- A second out, three back, and nothing at the server. -/
def unevenExchange : Exchange where
  sentAt := 0
  outward := 1
  processing := 0
  homeward := 3
  outward_nonneg := by decide
  processing_nonneg := by decide
  homeward_nonneg := by decide

theorem heartbeat_offset_within_uneven :
    sampleOffset 10 0 (.answered unevenExchange) = 10 + (1 - 3) / 2 ∧
      |estimatedServerTime
        (offsetAfter 10 0 [.missing, .answered unevenExchange, .missing]) 100 - (100 + 10)| ≤
          5 / 2 := by
  have haccepted : unevenExchange.Accepted := by
    rw [Exchange.Accepted]
    decide +kernel
  have hbound := heartbeat_offset_within 10 0
  have hmem : Sample.answered unevenExchange ∈
      [Sample.missing, .answered unevenExchange, .missing] :=
    List.mem_cons_of_mem _ List.mem_cons_self
  exact ⟨(hbound.1 unevenExchange haccepted).1, hbound.2.2 _ ⟨_, hmem, haccepted⟩ 100⟩

end DualeAI.Agent
