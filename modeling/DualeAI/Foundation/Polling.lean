import Mathlib.Algebra.Order.Floor.Semiring
import Mathlib.Data.Rat.Floor
import Mathlib.Tactic.Linarith

/-!
Reading something again and again until a reading decides, or until a deadline.

A reading takes its time, and the next one starts an interval after its end. What is
still going on at the deadline is cut off.
-/
namespace Foundation.Polling
variable {τ ε α : Type}

structure Reading (τ ε α : Type) where
  duration : τ
  /-- `none` where it leaves the question open. -/
  outcome : Option (Except ε α)

/-- `tie` is whether what comes just at the limit still comes in time. -/
structure Deadline (τ : Type) where
  limit : τ
  tie : Bool

section Due
variable [LinearOrder τ] {deadline : Deadline τ} {time later : τ}

def Deadline.due (deadline : Deadline τ) (time : τ) : Bool :=
  time < deadline.limit || time == deadline.limit && deadline.tie

theorem due_iff :
    deadline.due time = true ↔
      time < deadline.limit ∨ time = deadline.limit ∧ deadline.tie = true := by
  simp [Deadline.due]

theorem le_limit_of_due (h : deadline.due time = true) : time ≤ deadline.limit := by
  cases due_iff.mp h with
  | inl hlt => exact le_of_lt hlt
  | inr htie => exact le_of_eq htie.1

theorem due_of_le (h : deadline.due later = true) (hle : time ≤ later) :
    deadline.due time = true := by
  refine due_iff.mpr ?_
  cases due_iff.mp h with
  | inl hlt => exact .inl (lt_of_le_of_lt hle hlt)
  | inr htie =>
      cases lt_or_eq_of_le hle with
      | inl hlt => exact .inl (htie.1 ▸ hlt)
      | inr heq => exact .inr ⟨heq.trans htie.1, htie.2⟩

end Due

section Loop
variable [Field τ] [LinearOrder τ]

variable (deadline : Deadline τ) (interval : τ) (source : Nat → Reading τ ε α)

/-- When its readings start, and what one of them decides: up to `fuel` readings from
number `n` on. -/
def readsFrom : (fuel n : Nat) → (now : τ) → List τ × Option (Except ε α)
  | 0, _, _ => ([], none)
  | fuel + 1, n, now =>
      if deadline.due now then
        let ended := now + (source n).duration
        match (source n).outcome with
        | some result => ([now], if deadline.due ended then some result else none)
        | none =>
            let rest := readsFrom fuel (n + 1) (ended + interval)
            (now :: rest.1, rest.2)
      else ([], none)

/-- When reading `n` starts where all before it leave the question open. -/
def startOf (start : τ) : Nat → τ
  | 0 => start
  | n + 1 => startOf start n + (source n).duration + interval

def endOf (start : τ) (n : Nat) : τ := startOf interval source start n + (source n).duration

/-- Reading `n` is the first to decide. -/
def Decides (n : Nat) (result : Except ε α) : Prop :=
  (∀ k < n, (source k).outcome = none) ∧ (source n).outcome = some result

/-- More readings than the deadline leaves time for. -/
def readings [FloorSemiring τ] : Nat := ⌊deadline.limit / interval⌋₊ + 1

def poll [FloorSemiring τ] (start : τ) : List τ × Option (Except ε α) :=
  readsFrom deadline interval source (readings deadline interval) 0 start

end Loop

/-- Where the deadline has come before the readings run out, more of them change nothing. -/
theorem readsFrom_add [Field τ] [LinearOrder τ] {deadline : Deadline τ} {interval : τ}
    {source : Nat → Reading τ ε α} {fuel n : Nat} (start : τ)
    (h : deadline.due (startOf interval source start (n + fuel)) = false) (more : Nat) :
    readsFrom deadline interval source (fuel + more) n (startOf interval source start n) =
      readsFrom deadline interval source fuel n (startOf interval source start n) := by
  induction fuel generalizing n with
  | zero =>
      rw [Nat.add_zero] at h
      rw [Nat.zero_add]
      cases more with
      | zero => rfl
      | succ more => simp only [readsFrom, h, Bool.false_eq_true, if_false]
  | succ fuel ih =>
      have hrest := ih (n := n + 1) (by rwa [Nat.add_right_comm, Nat.add_assoc])
      rw [startOf] at hrest
      rw [Nat.succ_add, readsFrom, readsFrom]
      simp only [hrest]

section Times
variable [Field τ] [LinearOrder τ] [IsStrictOrderedRing τ]
variable {deadline : Deadline τ} {interval start : τ} {source : Nat → Reading τ ε α}

variable (hinterval : 0 < interval) (hstart : 0 ≤ start)
  (hduration : ∀ n, 0 ≤ (source n).duration)
include hinterval hduration

theorem startOf_mono (start : τ) {n m : Nat} (h : n ≤ m) :
    startOf interval source start n ≤ startOf interval source start m := by
  induction h with
  | refl => exact le_rfl
  | @step m _ ih =>
      rw [startOf]
      linarith [hduration m]

theorem startOf_le_endOf (start : τ) {n m : Nat} (h : n ≤ m) :
    startOf interval source start n ≤ endOf interval source start m := by
  have hmono := startOf_mono hinterval hduration start h
  rw [endOf]
  linarith [hduration m]

omit hinterval in
include hstart in
theorem mul_le_startOf (interval : τ) (n : Nat) :
    n * interval ≤ startOf interval source start n := by
  induction n with
  | zero => simpa [startOf] using hstart
  | succ n ih =>
      rw [startOf, Nat.cast_succ]
      linarith [hduration n]

/-! ## What is decided -/

/-- A reading decides in time exactly if it is the first to decide and ends in time. -/
theorem readsFrom_eq_some_iff (deadline : Deadline τ) (start : τ) (fuel n : Nat)
    (result : Except ε α) :
    (readsFrom deadline interval source fuel n (startOf interval source start n)).2 =
        some result ↔
      ∃ m, n ≤ m ∧ m < n + fuel ∧ (∀ k, n ≤ k → k < m → (source k).outcome = none) ∧
        (source m).outcome = some result ∧ deadline.due (endOf interval source start m) = true := by
  induction fuel generalizing n with
  | zero =>
      refine iff_of_false nofun ?_
      rintro ⟨m, hle, hlt, -⟩
      omega
  | succ fuel ih =>
      rw [readsFrom]
      split
      · cases houtcome : (source n).outcome with
        | some decided =>
            have hfirst : ∀ m, n ≤ m → (∀ k, n ≤ k → k < m → (source k).outcome = none) →
                m = n := by
              intro m hle hopen
              by_contra hne
              have hnone := hopen n le_rfl (by omega)
              rw [houtcome] at hnone
              cases hnone
            simp only [Option.ite_none_right_eq_some, Option.some.injEq]
            constructor
            · rintro ⟨hdue, rfl⟩
              exact ⟨n, le_rfl, by omega, fun k hk hlt => absurd hk (by omega), houtcome, hdue⟩
            · rintro ⟨m, hle, -, hopen, hm, hdue⟩
              cases hfirst m hle hopen
              rw [houtcome] at hm
              exact ⟨hdue, Option.some.inj hm⟩
        | none =>
            change (readsFrom deadline interval source fuel (n + 1)
              (startOf interval source start (n + 1))).2 = _ ↔ _
            rw [ih (n + 1)]
            constructor
            · rintro ⟨m, hle, hlt, hopen, hm⟩
              refine ⟨m, by omega, by omega, fun k hk hkm => ?_, hm⟩
              cases Nat.eq_or_lt_of_le hk with
              | inl heq => exact heq ▸ houtcome
              | inr hnext => exact hopen k hnext hkm
            · rintro ⟨m, hle, hlt, hopen, hm, hdue⟩
              have hne : m ≠ n := by
                rintro rfl
                rw [houtcome] at hm
                cases hm
              exact ⟨m, by omega, by omega, fun k hk => hopen k (by omega), hm, hdue⟩
      · next hlate =>
          refine iff_of_false nofun ?_
          rintro ⟨m, hle, -, -, -, hdue⟩
          exact hlate (due_of_le hdue (startOf_le_endOf hinterval hduration start hle))

include hstart in
theorem late_startOf [FloorSemiring τ] (deadline : Deadline τ) :
    deadline.due (startOf interval source start (readings deadline interval)) = false := by
  rw [Bool.eq_false_iff]
  intro hdue
  have hbefore := mul_le_startOf hstart hduration interval (readings deadline interval)
  have hlimit := le_limit_of_due hdue
  have hfloor := Nat.lt_floor_add_one (deadline.limit / interval)
  rw [div_lt_iff₀ hinterval] at hfloor
  rw [readings] at hbefore hlimit
  rw [Nat.cast_succ] at hbefore
  linarith

include hstart in
theorem readsFrom_eq_poll [FloorSemiring τ] {fuel : Nat} (h : readings deadline interval ≤ fuel) :
    readsFrom deadline interval source fuel 0 start = poll deadline interval source start := by
  obtain ⟨more, rfl⟩ := Nat.exists_eq_add_of_le h
  have hlate := late_startOf hinterval hstart hduration deadline
  exact readsFrom_add start (by rwa [Nat.zero_add]) more

include hstart in
theorem poll_eq_some_iff [FloorSemiring τ] {result : Except ε α} :
    (poll deadline interval source start).2 = some result ↔
      ∃ n, Decides source n result ∧ deadline.due (endOf interval source start n) = true := by
  have hreads (fuel : Nat) := readsFrom_eq_some_iff hinterval hduration deadline start fuel 0 result
  constructor
  · intro h
    obtain ⟨n, -, -, hopen, hn, hdue⟩ := (hreads _).mp h
    exact ⟨n, ⟨fun k => hopen k (Nat.zero_le _), hn⟩, hdue⟩
  · rintro ⟨n, ⟨hopen, hn⟩, hdue⟩
    rw [← readsFrom_eq_poll hinterval hstart hduration (Nat.le_add_left _ (n + 1))]
    exact (hreads _).mpr ⟨n, Nat.zero_le _, by omega, fun k _ => hopen k, hn, hdue⟩

/-! ## The readings themselves -/

theorem le_of_mem_readsFrom {fuel n : Nat} {now time : τ}
    (h : time ∈ (readsFrom deadline interval source fuel n now).1) :
    now ≤ time ∧ deadline.due time = true := by
  induction fuel generalizing n now with
  | zero => cases h
  | succ fuel ih =>
      rw [readsFrom] at h
      split at h
      · next hdue =>
          split at h
          · obtain rfl := List.mem_singleton.mp h
            exact ⟨le_rfl, hdue⟩
          · cases List.mem_cons.mp h with
            | inl hself =>
                subst hself
                exact ⟨le_rfl, hdue⟩
            | inr hrest =>
                obtain ⟨hle, hlater⟩ := ih hrest
                exact ⟨by linarith [hduration n], hlater⟩
      · cases h

theorem readsFrom_spaced {fuel n : Nat} {now : τ} :
    (readsFrom deadline interval source fuel n now).1.Pairwise
        (fun time later => time + interval ≤ later) ∧
      (readsFrom deadline interval source fuel n now).1.length ≤ fuel := by
  induction fuel generalizing n now with
  | zero => exact ⟨.nil, le_rfl⟩
  | succ fuel ih =>
      rw [readsFrom]
      split
      · split
        · exact ⟨List.pairwise_singleton _ _, Nat.succ_le_succ (Nat.zero_le _)⟩
        · obtain ⟨hspaced, hlength⟩ := ih
          refine ⟨List.pairwise_cons.mpr ⟨fun time hmem => ?_, hspaced⟩, Nat.succ_le_succ hlength⟩
          have hle := (le_of_mem_readsFrom hinterval hduration hmem).1
          linarith [hduration n]
      · exact ⟨.nil, Nat.zero_le _⟩

end Times
end Foundation.Polling
