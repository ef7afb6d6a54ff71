import DualeAI.Foundation.Indexed
import DualeAI.Foundation.Transition
import DualeAI.Sdk.CircuitBreaker
import Mathlib.Data.List.DropRight
import Mathlib.Data.List.Nodup

/-!
Any number of concurrent `protect` bodies on one breaker.

A step is one atomic stretch of a body: its admission, a mark on its attempt, or
its exit with the completion that follows. A body that never exits is an
abandoned attempt. `completions` logs every completion in order, whether or not
it took effect, and is read by no step.
-/
namespace DualeAI.Breaker
open Foundation

/-- An admitted body; a probe is one that was admitted half-open. -/
structure Body where
  attempt : Attempt
  probe : Bool
  running : Bool

structure Completion where
  body : Nat
  generation : Nat
  probe : Bool
  verdict : Verdict
  tookEffect : Bool

structure System where
  breaker : State := {}
  bodies : List Body := []
  completions : List Completion := []

inductive Action where
  | enter (now : Rat)
  | fail (i : Nat)
  | ignore (i : Nat)
  | leave (i : Nat) (now : Rat) (result : Except Exc Unit)

def Action.reading : Action → Option Rat
  | .enter now | .leave _ now _ => some now
  | .fail _ | .ignore _ => none

def readings (past : List Action) : List Rat := past.filterMap Action.reading

def ClockMonotone (past : List Action) : Prop := (readings past).Pairwise (· ≤ ·)

instance (past : List Action) : Decidable (ClockMonotone past) :=
  inferInstanceAs (Decidable ((readings past).Pairwise (· ≤ ·)))

section Steps
variable (b : CircuitBreaker)

/-- A rejected admission changes nothing. -/
def enter (now : Rat) (s : System) : System :=
  match admitAttempt b now s.breaker with
  | .ok (breaker, attempt) =>
      { s with
        breaker := breaker
        bodies := s.bodies ++ [⟨attempt, breaker.phase = .halfOpen, true⟩] }
  | .error _ => s

def mark (f : Attempt → Attempt) (i : Nat) (s : System) : System :=
  { s with bodies := s.bodies.modify i fun body => { body with attempt := f body.attempt } }

def leave (i : Nat) (body : Body) (now : Rat) (result : Except Exc Unit) (s : System) : System :=
  let exit := protectExit body.attempt result
  let breaker := complete b now exit.1 exit.2 s.breaker
  { breaker := breaker
    bodies := s.bodies.modify i fun body => { body with running := false }
    completions := s.completions ++
      [⟨i, body.attempt.generation, body.probe, verdict exit.1 exit.2, breaker ≠ s.breaker⟩] }

def running (i : Nat) (s : System) : Option Body :=
  (s.bodies[i]?).filter fun body => body.running

def step (s : System) : Action → Option System
  | .enter now => some (enter b now s)
  | .fail i => (running i s).map fun _ => mark Attempt.fail i s
  | .ignore i => (running i s).map fun _ => mark Attempt.ignore i s
  | .leave i now result => (running i s).map fun body => leave b i body now result s

end Steps

/-! ## Admissions and completions -/

variable {b : CircuitBreaker}

/-- When an attempt is admitted, and what the admission makes of the breaker. -/
theorem admitAttempt_ok {now : Rat} {s t : State} {attempt : Attempt}
    (h : admitAttempt b now s = .ok (t, attempt)) :
    s.phase = .closed ∧ t = s ∧ attempt = ⟨s.generation, none⟩ ∨
      (s.phase = .opened ∧ s.openUntil ≤ now ∨ s.phase = .halfOpen ∧ s.probeUntil ≤ now) ∧
        (t, attempt) = reserveProbe b now s := by
  rw [admitAttempt] at h
  split at h
  · next hphase => cases h; exact .inl ⟨hphase, rfl, rfl⟩
  · next hphase =>
      split at h
      · cases h
      · next hnow => cases h; exact .inr ⟨.inl ⟨hphase, not_lt.mp hnow⟩, rfl⟩
  · next hphase =>
      split at h
      · cases h
      · next hnow => cases h; exact .inr ⟨.inr ⟨hphase, not_lt.mp hnow⟩, rfl⟩

theorem admitAttempt_error {now retryAfter : Rat} {s : State}
    (h : admitAttempt b now s = .error retryAfter) :
    s.phase = .opened ∧ now < s.openUntil ∧ retryAfter = s.openUntil - now ∨
      s.phase = .halfOpen ∧ now < s.probeUntil ∧ retryAfter = s.probeUntil - now := by
  rw [admitAttempt] at h
  split at h
  · cases h
  · next hphase =>
      split at h
      · next hnow =>
          cases h
          exact .inl ⟨hphase, hnow, max_eq_right (sub_pos.mpr hnow).le⟩
      · cases h
  · next hphase =>
      split at h
      · next hnow =>
          cases h
          exact .inr ⟨hphase, hnow, max_eq_right (sub_pos.mpr hnow).le⟩
      · cases h

theorem fail_generation (attempt : Attempt) :
    attempt.fail.generation = attempt.generation := by
  rw [Attempt.fail]
  split <;> rfl

theorem ignore_generation (attempt : Attempt) :
    attempt.ignore.generation = attempt.generation := by
  rw [Attempt.ignore]
  split <;> rfl

/-- A completion leaves phase and generation as they are, or starts a generation. -/
theorem complete_advances (now : Rat) (attempt : Attempt) (raised : Bool) (s : State) :
    (complete b now attempt raised s).phase = s.phase ∧
        (complete b now attempt raised s).generation = s.generation ∨
      (complete b now attempt raised s).generation = s.generation + 1 := by
  by_cases h : attempt.generation = s.generation
  · rw [complete_eq_record h]
    cases verdict attempt raised with
    | neutral =>
        simp only [record, recordIgnoredProbe]
        split
        · exact .inr rfl
        · exact .inl ⟨rfl, rfl⟩
    | failure =>
        cases hphase : s.phase with
        | halfOpen => simp [record, hphase, openBreaker]
        | closed | opened =>
            simp only [record, hphase]
            split
            · exact .inr rfl
            · exact .inl ⟨rfl, rfl⟩
    | success => cases hphase : s.phase <;> simp [record, hphase, close]
  · rw [complete_stale h]
    exact .inl ⟨rfl, rfl⟩

/-! ## What a step can do -/

inductive Effect (b : CircuitBreaker) (s : System) : Action → System → Prop where
  | rejected (now retryAfter : Rat) (h : admitAttempt b now s.breaker = .error retryAfter) :
      Effect b s (.enter now) s
  | admitted (now : Rat) (hphase : s.breaker.phase = .closed) :
      Effect b s (.enter now)
        { s with bodies := s.bodies ++ [⟨⟨s.breaker.generation, none⟩, false, true⟩] }
  | probed (now : Rat) (hready : s.breaker.phase = .opened ∧ s.breaker.openUntil ≤ now ∨
      s.breaker.phase = .halfOpen ∧ s.breaker.probeUntil ≤ now) :
      Effect b s (.enter now)
        { s with
          breaker := (reserveProbe b now s.breaker).1
          bodies := s.bodies ++ [⟨⟨s.breaker.generation + 1, none⟩, true, true⟩] }
  | marked (a : Action) (i : Nat) (f : Attempt → Attempt) (ha : a.reading = none)
      (hf : ∀ attempt, (f attempt).generation = attempt.generation) :
      Effect b s a (mark f i s)
  | left (i : Nat) (now : Rat) (result : Except Exc Unit) (body : Body)
      (hget : s.bodies[i]? = some body) (hrunning : body.running = true) :
      Effect b s (.leave i now result) (leave b i body now result s)

theorem running_eq_some {i : Nat} {s : System} {body : Body} :
    running i s = some body ↔ s.bodies[i]? = some body ∧ body.running = true :=
  Option.filter_eq_some_iff

theorem enter_effect (now : Rat) (s : System) : Effect b s (.enter now) (enter b now s) := by
  rw [enter]
  split
  · next t attempt h =>
      rcases admitAttempt_ok h with ⟨hphase, rfl, rfl⟩ | ⟨hready, hprobe⟩
      · have hclosed : decide (s.breaker.phase = .halfOpen) = false := by simp [hphase]
        rw [hclosed]
        exact .admitted now hphase
      · cases hprobe
        exact .probed now hready
  · next r h => exact .rejected now r h

theorem step_effect {s t : System} {a : Action} (h : step b s a = some t) : Effect b s a t := by
  cases a with
  | enter now =>
      cases h
      exact enter_effect now s
  | fail i =>
      obtain ⟨body, -, rfl⟩ := Option.map_eq_some_iff.mp h
      exact .marked _ i _ rfl fail_generation
  | ignore i =>
      obtain ⟨body, -, rfl⟩ := Option.map_eq_some_iff.mp h
      exact .marked _ i _ rfl ignore_generation
  | leave i now result =>
      obtain ⟨body, hbody, rfl⟩ := Option.map_eq_some_iff.mp h
      obtain ⟨hget, hrunning⟩ := running_eq_some.mp hbody
      exact .left i now result body hget hrunning

/-! ## Generations -/

/-- No attempt is ahead of the breaker. Those of its own generation are probes
half-open and ordinary attempts while it is closed, and there is none while it is
open. A generation has one probe, and a body completes once. -/
structure Consistent (s : System) : Prop where
  bounded : ∀ (i : Nat) (body : Body), s.bodies[i]? = some body →
    body.attempt.generation ≤ s.breaker.generation
  current : ∀ (i : Nat) (body : Body), s.bodies[i]? = some body →
    body.attempt.generation = s.breaker.generation →
    s.breaker.phase = if body.probe then .halfOpen else .closed
  probes : ∀ (i j : Nat) (body body' : Body), s.bodies[i]? = some body →
    s.bodies[j]? = some body' → body.probe = true → body'.probe = true →
    body.attempt.generation = body'.attempt.generation → i = j
  logged : ∀ c ∈ s.completions, ∃ body, s.bodies[c.body]? = some body ∧ body.running = false ∧
    body.attempt.generation = c.generation ∧ body.probe = c.probe
  once : (s.completions.map Completion.body).Nodup

/-- Changing a body keeps its attempt's generation, and whether it is a probe. -/
structure Keeps (f : Body → Body) : Prop where
  generation : ∀ body, (f body).attempt.generation = body.attempt.generation
  probe : ∀ body, (f body).probe = body.probe
  completed : ∀ body, body.running = false → (f body).running = false

theorem Keeps.origin {f : Body → Body} (hf : Keeps f) {bodies : List Body} {i m : Nat}
    {body : Body} (hget : (bodies.modify i f)[m]? = some body) :
    ∃ old, bodies[m]? = some old ∧ body.attempt.generation = old.attempt.generation ∧
      body.probe = old.probe := by
  obtain ⟨old, hold, rfl⟩ := getElem?_modify_eq_some.mp hget
  refine ⟨old, hold, ?_⟩
  split
  · exact ⟨hf.generation old, hf.probe old⟩
  · exact ⟨rfl, rfl⟩

theorem Keeps.logged {f : Body → Body} (hf : Keeps f) {bodies : List Body} {i m : Nat}
    {old : Body} (hget : bodies[m]? = some old) (hdone : old.running = false) :
    ∃ body, (bodies.modify i f)[m]? = some body ∧ body.running = false ∧
      body.attempt.generation = old.attempt.generation ∧ body.probe = old.probe := by
  refine ⟨_, getElem?_modify_eq_some.mpr ⟨old, hget, rfl⟩, ?_⟩
  split
  · exact ⟨hf.completed old hdone, hf.generation old, hf.probe old⟩
  · exact ⟨hdone, rfl, rfl⟩

theorem keeps_mark {f : Attempt → Attempt}
    (hf : ∀ attempt, (f attempt).generation = attempt.generation) :
    Keeps fun body => { body with attempt := f body.attempt } :=
  ⟨fun body => hf body.attempt, fun _ => rfl, fun _ => id⟩

theorem keeps_done : Keeps fun body => { body with running := false } :=
  ⟨fun _ => rfl, fun _ => rfl, fun _ _ => rfl⟩

theorem Consistent.bodies_modify {s : System} {f : Body → Body} {i : Nat} {breaker : State}
    {completions : List Completion} (hs : Consistent s) (hf : Keeps f)
    (hbreaker : breaker.phase = s.breaker.phase ∧ breaker.generation = s.breaker.generation ∨
      breaker.generation = s.breaker.generation + 1)
    (hlogged : ∀ c ∈ completions, c ∈ s.completions ∨ ∃ body,
      (s.bodies.modify i f)[c.body]? = some body ∧ body.running = false ∧
        body.attempt.generation = c.generation ∧ body.probe = c.probe)
    (honce : (completions.map Completion.body).Nodup) :
    Consistent ⟨breaker, s.bodies.modify i f, completions⟩ := by
  have hold (m : Nat) (body : Body) (hget : (s.bodies.modify i f)[m]? = some body) :
      body.attempt.generation ≤ s.breaker.generation := by
    obtain ⟨old, hold, hgeneration, -⟩ := hf.origin hget
    rw [hgeneration]
    exact hs.bounded m old hold
  refine ⟨?_, ?_, ?_, ?_, honce⟩
  · intro m body hget
    have hle := hold m body hget
    show body.attempt.generation ≤ breaker.generation
    omega
  · intro m body hget hcurrent
    have hle := hold m body hget
    cases hbreaker with
    | inl hsame =>
        obtain ⟨hphase, hgeneration⟩ := hsame
        obtain ⟨old, hold, holdGeneration, hprobe⟩ := hf.origin hget
        show breaker.phase = _
        rw [hphase, hprobe]
        exact hs.current m old hold
          (holdGeneration.symm.trans (hcurrent.trans hgeneration))
    | inr hnext =>
        have hcurrent : body.attempt.generation = breaker.generation := hcurrent
        omega
  · intro m n body body' hget hget' hprobe hprobe' hsame
    obtain ⟨old, hold, hgeneration, hkept⟩ := hf.origin hget
    obtain ⟨old', hold', hgeneration', hkept'⟩ := hf.origin hget'
    exact hs.probes m n old old' hold hold' (hkept ▸ hprobe) (hkept' ▸ hprobe')
      (by rw [← hgeneration, ← hgeneration', hsame])
  · intro c hmem
    cases hlogged c hmem with
    | inl hpast =>
        obtain ⟨old, hget, hdone, hgeneration, hprobe⟩ := hs.logged c hpast
        rw [← hgeneration, ← hprobe]
        exact hf.logged hget hdone
    | inr hnew => exact hnew

theorem Consistent.enter {s : System} (hs : Consistent s) {breaker : State} {attempt : Attempt}
    {probe : Bool} (hgeneration : attempt.generation = breaker.generation)
    (hphase : breaker.phase = if probe then .halfOpen else .closed)
    (hbreaker : breaker = s.breaker ∧ probe = false ∨
      breaker.generation = s.breaker.generation + 1) :
    Consistent { s with breaker := breaker, bodies := s.bodies ++ [⟨attempt, probe, true⟩] } := by
  refine ⟨forall_getElem?_concat ?_ (Nat.le_of_eq hgeneration),
    forall_getElem?_concat ?_ (fun _ => hphase), ?_, ?_, hs.once⟩
  · intro m body hget
    have hle := hs.bounded m body hget
    rcases hbreaker with ⟨rfl, -⟩ | hnext
    · exact hle
    · show body.attempt.generation ≤ breaker.generation
      omega
  · intro m body hget hcurrent
    rcases hbreaker with ⟨rfl, -⟩ | hnext
    · exact hs.current m body hget hcurrent
    · have hle := hs.bounded m body hget
      have hcurrent : body.attempt.generation = breaker.generation := hcurrent
      omega
  · -- a new probe starts its generation, so no earlier one has it
    have hnew (m : Nat) (body : Body) (hget : s.bodies[m]? = some body) (hprobe : probe = true) :
        body.attempt.generation ≠ attempt.generation := by
      have hle := hs.bounded m body hget
      rcases hbreaker with ⟨-, hfalse⟩ | hnext
      · rw [hprobe] at hfalse
        cases hfalse
      · omega
    intro m n body body' hget hget' hprobe hprobe' hsame
    cases getElem?_concat_eq_some hget with
    | inl hold =>
        cases getElem?_concat_eq_some hget' with
        | inl hold' => exact hs.probes m n body body' hold hold' hprobe hprobe' hsame
        | inr hlast =>
            obtain ⟨rfl, rfl⟩ := hlast
            exact absurd hsame (hnew m body hold hprobe')
    | inr hlast =>
        obtain ⟨rfl, rfl⟩ := hlast
        cases getElem?_concat_eq_some hget' with
        | inl hold' => exact absurd hsame.symm (hnew n body' hold' hprobe)
        | inr hlast' => exact hlast'.1.symm
  · intro c hmem
    obtain ⟨body, hget, hrest⟩ := hs.logged c hmem
    exact ⟨body, List.getElem?_append_left (List.getElem?_eq_some_iff.mp hget).1 ▸ hget, hrest⟩

theorem Effect.consistent {s t : System} {a : Action} (h : Effect b s a t) (hs : Consistent s) :
    Consistent t := by
  cases h with
  | rejected now retryAfter h => exact hs
  | admitted now hphase => exact hs.enter rfl hphase (.inl ⟨rfl, rfl⟩)
  | probed now hready => exact hs.enter rfl rfl (.inr rfl)
  | marked a i f ha hf =>
      exact hs.bodies_modify (keeps_mark hf) (.inl ⟨rfl, rfl⟩) (fun _ => .inl) hs.once
  | left i now result body hget hrunning =>
      refine hs.bodies_modify keeps_done (complete_advances now _ _ s.breaker) ?_ ?_
      · refine List.forall_mem_append.mpr ⟨fun _ => .inl, List.forall_mem_singleton.mpr (.inr ?_)⟩
        exact ⟨_, getElem?_modify_eq_some.mpr ⟨body, hget, rfl⟩, by simp⟩
      · rw [List.map_append, List.map_singleton]
        refine List.nodup_append_comm.mp (List.nodup_cons.mpr ⟨fun hmem => ?_, hs.once⟩)
        -- a body that completed is no longer running
        obtain ⟨c, hc, hbody⟩ := List.mem_map.mp hmem
        obtain ⟨done, hdone, hstopped, -⟩ := hs.logged c hc
        rw [hbody, hget] at hdone
        cases hdone
        rw [hrunning] at hstopped
        cases hstopped

variable {past : List Action} {s : System}

theorem consistent_initial : Consistent {} where
  bounded _ _ h := nomatch h
  current _ _ h := nomatch h
  probes _ _ _ _ h := nomatch h
  logged _ h := nomatch h
  once := .nil

theorem consistent_of_run (h : Run (step b) {} past s) : Consistent s :=
  h.invariant (I := fun _ s => Consistent s) consistent_initial
    fun _ _ _ _ hs hstep => (step_effect hstep).consistent hs

end DualeAI.Breaker
