import DualeAI.Sdk.DispatchRuns

/-!
A tool use is run at most once, whatever is redelivered.

An entry of the dedup table outlives its event's deadline, so once it is pruned
the deadline has passed on the clock. A later delivery may then schedule the
event again, but that execution, like one still waiting for the semaphore, finds
the deadline expired before it reaches the callable.
-/
namespace DualeAI.Dispatch
open Foundation

def deliveries (past : List Action) : List Delivery :=
  past.filterMap fun
    | .deliver d => some d
    | _ => none

/-- The time an action reads; an event that is ignored is dropped before that. -/
def Action.reading (D : Dispatcher) : Action → Option Int
  | .deliver d => if D.handles d then some d.now else none
  | .attempt _ now => some now
  | _ => none

def readings (D : Dispatcher) (past : List Action) : List Int := past.filterMap (Action.reading D)

/-- The time read at successive steps never decreases. -/
def ClockMonotone (D : Dispatcher) (past : List Action) : Prop :=
  (readings D past).Pairwise (· ≤ ·)

def Passed (D : Dispatcher) (deadline : Int) (past : List Action) : Prop :=
  ∃ now ∈ readings D past, deadline ≤ now

def startsBy (n : Nat) (s : State) : List Start := s.starts.filter fun start => start.execution = n

def startsOf (key : Key) (s : State) : List Start :=
  s.starts.filter fun start =>
    (s.executions[start.execution]?).any fun e => e.delivery.key = key

/-! ## Within one execution -/

/-- The starts an execution may have made by then. -/
def Phase.attempts (retries : Nat) : Phase → Nat
  | .queued => 0
  | .ready attempt => attempt - 1
  | .running attempt | .failed attempt => attempt
  | .recorded | .aborted => retries + 1

def Phase.InBudget (retries : Nat) : Phase → Prop
  | .ready attempt | .running attempt | .failed attempt => 1 ≤ attempt ∧ attempt ≤ retries + 1
  | .queued | .recorded | .aborted => True

theorem Phase.InBudget.attempts_le {retries : Nat} {phase : Phase} (h : phase.InBudget retries) :
    phase.attempts retries ≤ retries + 1 := by
  cases phase with
  | queued => exact Nat.zero_le _
  | ready attempt => exact Nat.le_trans (Nat.sub_le _ _) h.2
  | running attempt | failed attempt => exact h.2
  | recorded | aborted => exact Nat.le_refl _

structure StartsInBudget (D : Dispatcher) (s : State) : Prop where
  executions : ∀ (n : Nat) (e : Execution), s.executions[n]? = some e →
    e.phase.InBudget (D.retries e.delivery.toolUse.name) ∧
      (startsBy n s).length ≤ e.phase.attempts (D.retries e.delivery.toolUse.name)
  starts : ∀ start ∈ s.starts, start.execution < s.executions.length

theorem Moves.inBudget {D : Dispatcher} {e : Execution} {a : Action} {phase : Phase}
    (h : Moves D e a phase) (hbudget : e.phase.InBudget (D.retries e.delivery.toolUse.name)) :
    phase.InBudget (D.retries e.delivery.toolUse.name) ∧
      e.phase.attempts (D.retries e.delivery.toolUse.name) ≤
        phase.attempts (D.retries e.delivery.toolUse.name) := by
  cases h with
  | acquired n h => rw [h]; exact ⟨⟨Nat.le_refl 1, Nat.le_add_left 1 _⟩, Nat.zero_le _⟩
  | expired n now attempt h hnow => rw [h] at hbudget ⊢; exact ⟨hbudget, Nat.sub_le _ _⟩
  | raised n attempt h => rw [h] at hbudget ⊢; exact ⟨hbudget, Nat.le_refl _⟩
  | retried n elapsed message attempt h hretry =>
      rw [h]
      exact ⟨⟨Nat.le_add_left 1 _, Nat.succ_le_succ hretry⟩, Nat.le_refl _⟩
  | aborted n h => exact ⟨trivial, hbudget.attempts_le⟩

theorem StartsInBudget.modify {D : Dispatcher} {s t : State} {n : Nat}
    {f : Execution → Execution} (hs : StartsInBudget D s)
    (hexecutions : t.executions = s.executions.modify n f) (hstarts : t.starts = s.starts)
    (hdelivery : ∀ e, (f e).delivery = e.delivery)
    (hf : ∀ e, s.executions[n]? = some e →
      (f e).phase.InBudget (D.retries e.delivery.toolUse.name) ∧
        e.phase.attempts (D.retries e.delivery.toolUse.name) ≤
          (f e).phase.attempts (D.retries e.delivery.toolUse.name)) :
    StartsInBudget D t := by
  constructor
  · intro m e' hget
    rw [hexecutions] at hget
    obtain ⟨e, hget', rfl⟩ := getElem?_modify_eq_some.mp hget
    obtain ⟨hbudget, hcount⟩ := hs.executions m e hget'
    rw [startsBy, hstarts]
    by_cases hm : n = m
    · subst hm
      rw [if_pos rfl, hdelivery]
      exact ⟨(hf e hget').1, Nat.le_trans hcount (hf e hget').2⟩
    · rw [if_neg hm]
      exact ⟨hbudget, hcount⟩
  · intro start hmem
    rw [hexecutions, List.length_modify]
    exact hs.starts start (hstarts ▸ hmem)

theorem StartsInBudget.schedule {D : Dispatcher} {s t : State} {e : Execution}
    (hs : StartsInBudget D s) (hexecutions : t.executions = s.executions ++ [e])
    (hstarts : t.starts = s.starts) (hqueued : e.phase = .queued) : StartsInBudget D t := by
  have hnone : startsBy s.executions.length s = [] := by
    refine List.filter_eq_nil_iff.mpr fun start hmem => ?_
    have hlt := hs.starts start hmem
    simp only [decide_eq_true_eq]
    omega
  constructor
  · rw [hexecutions]
    simp only [startsBy, hstarts]
    refine forall_getElem?_concat hs.executions ?_
    rw [hqueued]
    exact ⟨trivial, Nat.le_of_eq (List.length_eq_zero_iff.mpr hnone)⟩
  · intro start hmem
    rw [hexecutions, List.length_append]
    exact Nat.lt_of_lt_of_le (hs.starts start (hstarts ▸ hmem)) (Nat.le_add_right _ _)

theorem StartsInBudget.start {D : Dispatcher} {s t : State} {n attempt : Nat} {e : Execution}
    {now : Int} (hs : StartsInBudget D s) (hget : s.executions[n]? = some e)
    (hphase : e.phase = .ready attempt)
    (hexecutions : t.executions = (s.setPhase n (.running attempt)).executions)
    (hstarts : t.starts = s.starts ++ [⟨n, attempt, now⟩]) : StartsInBudget D t := by
  obtain ⟨hbudget, hcount⟩ := hs.executions n e hget
  rw [hphase] at hbudget hcount
  have hlength : (s.setPhase n (.running attempt)).executions.length = s.executions.length :=
    List.length_modify ..
  constructor
  · intro m e' hget'
    rw [hexecutions] at hget'
    obtain ⟨e'', hget'', rfl⟩ := getElem?_modify_eq_some.mp hget'
    have hmore : startsBy m t = startsBy m s ++ if n = m then [⟨n, attempt, now⟩] else [] := by
      simp only [startsBy, hstarts, List.filter_append, List.filter_singleton, Bool.cond_decide]
    rw [hmore, List.length_append]
    by_cases hm : n = m
    · subst hm
      rw [hget] at hget''
      cases hget''
      rw [if_pos rfl, if_pos rfl]
      refine ⟨hbudget, ?_⟩
      have hone := hbudget.1
      simp only [Phase.attempts, List.length_singleton] at hcount ⊢
      omega
    · rw [if_neg hm, if_neg hm]
      exact hs.executions m e'' hget''
  · rw [hexecutions, hlength, hstarts]
    exact List.forall_mem_append.mpr ⟨hs.starts,
      List.forall_mem_singleton.mpr (List.getElem?_eq_some_iff.mp hget).1⟩

theorem Effect.startsInBudget {D : Dispatcher} {s t : State} {a : Action} (h : Effect D s a t)
    (hs : StartsInBudget D s) : StartsInBudget D t := by
  cases h with
  | ignored d h => exact hs
  | resubmitted d n e result hhandles hentry hresult | duplicate d n e hhandles hentry hresult
  | ended i failed => exact ⟨hs.executions, hs.starts⟩
  | scheduled d deadlineAt hhandles hdeadline hentry => exact hs.schedule rfl rfl rfl
  | moved a n e phase ha hget hmoves =>
      refine hs.modify rfl rfl (fun _ => rfl) ?_
      intro e' he'
      rw [hget] at he'
      cases he'
      exact hmoves.inBudget (hs.executions n e hget).1
  | started n attempt e now hget hphase hnow => exact hs.start hget hphase rfl rfl
  | recorded a n e outcome ha hget hopen =>
      refine hs.modify rfl rfl (fun _ => rfl) ?_
      intro e' he'
      rw [hget] at he'
      cases he'
      exact ⟨trivial, (hs.executions n e hget).1.attempts_le⟩

variable {D : Dispatcher} {past more : List Action} {s t : State}

theorem startsInBudget_initial : StartsInBudget D {} where
  executions _ _ h := nomatch h
  starts _ h := nomatch h

theorem startsInBudget_of_run (h : Run (step D) {} past s) : StartsInBudget D s :=
  h.invariant (I := fun _ s => StartsInBudget D s) startsInBudget_initial
    fun _ _ _ _ hs hstep => (step_effect hstep).startsInBudget hs

/-! ## Across the executions of one key -/

theorem deliveries_concat (past : List Action) (a : Action) :
    deliveries (past ++ [a]) = deliveries past ++ deliveries [a] := List.filterMap_append

theorem readings_concat (past : List Action) (a : Action) :
    readings D (past ++ [a]) = readings D past ++ readings D [a] := List.filterMap_append

theorem ClockMonotone.of_concat {a : Action} (h : ClockMonotone D (past ++ [a])) :
    ClockMonotone D past := by
  rw [ClockMonotone, readings_concat] at h
  exact (List.pairwise_append.mp h).1

theorem ClockMonotone.not_passed {a : Action} {now deadline : Int}
    (h : ClockMonotone D (past ++ [a])) (ha : a.reading D = some now) (hnow : now < deadline) :
    ¬ Passed D deadline past := by
  rintro ⟨reading, hmem, hpassed⟩
  rw [ClockMonotone, readings_concat] at h
  have hle := (List.pairwise_append.mp h).2.2 reading hmem now (by simp [readings, ha])
  omega

theorem Passed.concat {deadline : Int} (h : Passed D deadline past) (a : Action) :
    Passed D deadline (past ++ [a]) := by
  obtain ⟨now, hmem, hnow⟩ := h
  exact ⟨now, by rw [readings_concat]; exact List.mem_append_left _ hmem, hnow⟩

def SharesDeadline (key : Key) (deadline : Int) (s : State) : Prop :=
  ∀ (n : Nat) (e : Execution), s.executions[n]? = some e → e.delivery.key = key →
    e.deadlineAt = deadline

/-- What links the executions under `key`, its table entry and the clock. -/
structure RunsOnce (D : Dispatcher) (key : Key) (deadline : Int) (past : List Action)
    (s : State) : Prop where
  /-- Scheduled again only after the deadline. -/
  later : ∀ (m n : Nat) (e e' : Execution), s.executions[m]? = some e → e.delivery.key = key →
    s.executions[n]? = some e' → e'.delivery.key = key → m ≠ n → Passed D deadline past
  /-- Without an entry only after the deadline. -/
  pruned : ∀ (n : Nat) (e : Execution), s.executions[n]? = some e → e.delivery.key = key →
    (∀ entry ∈ s.scheduledToolUses, entry.1 ≠ key) → Passed D deadline past
  /-- Only the first execution reaches the callable. -/
  first : ∀ start ∈ s.starts, ∀ (e : Execution), s.executions[start.execution]? = some e →
    e.delivery.key = key → ∀ (n : Nat) (e' : Execution), s.executions[n]? = some e' →
    e'.delivery.key = key → start.execution ≤ n

theorem le_dedupExpiresAt (toolUse : BridgeToolUseResponse) (now : Int) {deadline : Int}
    (h : toolUse.deadlineAt = some deadline) : deadline ≤ toolUseDedupExpiresAt toolUse now := by
  simp only [toolUseDedupExpiresAt, h, Option.getD_some, dedupReplayMargin]
  omega

theorem RunsOnce.passed_of_unlisted {key : Key} {deadline : Int} {d : Delivery} {n : Nat}
    {e : Execution} (h : RunsOnce D key deadline past s) (hs : WellFormed s)
    (hshares : SharesDeadline key deadline s) (hhandles : D.handles d = true)
    (hunlisted : ∀ entry ∈ (s.pruneScheduledToolUses d.now).scheduledToolUses, entry.1 ≠ key)
    (hget : s.executions[n]? = some e) (hkey : e.delivery.key = key) :
    Passed D deadline (past ++ [.deliver d]) := by
  by_cases hlisted : ∃ entry ∈ s.scheduledToolUses, entry.1 = key
  · obtain ⟨entry, hmem, hentry⟩ := hlisted
    obtain ⟨e', hget', hkey'⟩ := hs.table entry hmem
    have hexpired : ¬ d.now < e'.scheduled.expiresAt := fun hlive =>
      hunlisted entry (mem_prune.mpr ⟨hmem, e', hget', hlive⟩) hentry
    have hdeadline : e'.deadlineAt = deadline := hshares entry.2 e' hget' (hkey'.trans hentry)
    have hle := le_dedupExpiresAt e'.delivery.toolUse e'.delivery.now e'.hasDeadline
    rw [← hs.expiry entry.2 e' hget', hdeadline] at hle
    refine ⟨d.now, ?_, by omega⟩
    rw [readings_concat]
    exact List.mem_append_right _ (by simp [readings, Action.reading, hhandles])
  · refine (h.pruned n e hget hkey fun entry hmem hentry => ?_).concat _
    exact hlisted ⟨entry, hmem, hentry⟩

theorem RunsOnce.step_later {key : Key} {deadline : Int} {a : Action}
    (h : RunsOnce D key deadline past s) (heffect : Effect D s a t) (hs : WellFormed s)
    (hshares : SharesDeadline key deadline s) {m n : Nat} {e e' : Execution}
    (hget : t.executions[m]? = some e) (hkey : e.delivery.key = key)
    (hget' : t.executions[n]? = some e') (hkey' : e'.delivery.key = key) (hne : m ≠ n) :
    Passed D deadline (past ++ [a]) := by
  rcases heffect.execution_origin hget with
    ⟨e₀, hold, hdelivery⟩ | ⟨d, rfl, hhandles, rfl, hm, hentry, -⟩
  · rw [hdelivery] at hkey
    rcases heffect.execution_origin hget' with
      ⟨e₁, hold', hdelivery'⟩ | ⟨d, rfl, hhandles, rfl, -, hentry, -⟩
    · rw [hdelivery'] at hkey'
      exact (h.later m n e₀ e₁ hold hkey hold' hkey' hne).concat a
    · exact h.passed_of_unlisted hs hshares hhandles (hkey' ▸ hs.entry_eq_none hentry) hold hkey
  · rcases heffect.execution_origin hget' with
      ⟨e₁, hold', hdelivery'⟩ | ⟨d', -, -, -, hn, -⟩
    · rw [hdelivery'] at hkey'
      exact h.passed_of_unlisted hs hshares hhandles (hkey ▸ hs.entry_eq_none hentry) hold' hkey'
    · exact absurd (hm.trans hn.symm) hne

theorem RunsOnce.step_pruned {key : Key} {deadline : Int} {a : Action}
    (h : RunsOnce D key deadline past s) (heffect : Effect D s a t) (hs : WellFormed s)
    (hshares : SharesDeadline key deadline s) {n : Nat} {e : Execution}
    (hget : t.executions[n]? = some e) (hkey : e.delivery.key = key)
    (hunlisted : ∀ entry ∈ t.scheduledToolUses, entry.1 ≠ key) :
    Passed D deadline (past ++ [a]) := by
  rcases heffect.execution_origin hget with
    ⟨e₀, hold, hdelivery⟩ | ⟨d, -, -, rfl, -, -, hlisted⟩
  · rw [hdelivery] at hkey
    cases heffect.table_kept with
    | inl htable =>
        rw [htable] at hunlisted
        exact (h.pruned n e₀ hold hkey hunlisted).concat a
    | inr hpruned =>
        obtain ⟨d, rfl, hhandles, hkept⟩ := hpruned
        exact h.passed_of_unlisted hs hshares hhandles
          (fun entry hmem => hunlisted entry (hkept entry hmem)) hold hkey
  · exact absurd hkey (hunlisted _ hlisted)

theorem RunsOnce.step_first {key : Key} {deadline : Int} {a : Action}
    (h : RunsOnce D key deadline past s) (heffect : Effect D s a t) (hbudget : StartsInBudget D s)
    (hshares : SharesDeadline key deadline s) (hclock : ClockMonotone D (past ++ [a]))
    {start : Start} (hmem : start ∈ t.starts) {n : Nat} {e e' : Execution}
    (hget : t.executions[start.execution]? = some e) (hkey : e.delivery.key = key)
    (hget' : t.executions[n]? = some e') (hkey' : e'.delivery.key = key) :
    start.execution ≤ n := by
  cases heffect.start_origin hmem with
  | inl hold =>
      have hlt := hbudget.starts start hold
      rcases heffect.execution_origin hget with ⟨e₁, hold₁, hdelivery⟩ | ⟨d, -, -, -, hlast, -⟩
      · rw [hdelivery] at hkey
        rcases heffect.execution_origin hget' with
          ⟨e₂, hold₂, hdelivery'⟩ | ⟨d, -, -, -, hlast, -⟩
        · rw [hdelivery'] at hkey'
          exact h.first start hold e₁ hold₁ hkey n e₂ hold₂ hkey'
        · exact Nat.le_of_lt (hlast ▸ hlt)
      · exact absurd hlast (Nat.ne_of_lt hlt)
  | inr hnew =>
      obtain ⟨e₀, now, rfl, hstart, hnow⟩ := hnew
      -- the clock has not reached the deadline, so there is no other execution
      rcases heffect.execution_origin hget with ⟨e₁, hold, hdelivery⟩ | ⟨d, ha, -⟩
      · rcases heffect.execution_origin hget' with ⟨e₂, hold', hdelivery'⟩ | ⟨d, ha, -⟩
        · rw [hstart] at hold
          cases hold
          rw [hdelivery] at hkey
          rw [hdelivery'] at hkey'
          rw [hshares _ e₀ hstart hkey] at hnow
          by_cases hne : start.execution = n
          · exact Nat.le_of_eq hne
          · exact absurd (h.later _ n e₀ e₂ hstart hkey hold' hkey' hne)
              (hclock.not_passed rfl hnow)
        · cases ha
      · cases ha

theorem RunsOnce.step {key : Key} {deadline : Int} {a : Action} (h : RunsOnce D key deadline past s)
    (heffect : Effect D s a t) (hs : WellFormed s) (hbudget : StartsInBudget D s)
    (hshares : SharesDeadline key deadline s) (hclock : ClockMonotone D (past ++ [a])) :
    RunsOnce D key deadline (past ++ [a]) t := by
  constructor
  · intro m n e e' hget hkey hget' hkey' hne
    exact h.step_later heffect hs hshares hget hkey hget' hkey' hne
  · intro n e hget hkey hunlisted
    exact h.step_pruned heffect hs hshares hget hkey hunlisted
  · intro start hmem e hget hkey n e' hget' hkey'
    exact h.step_first heffect hbudget hshares hclock hmem hget hkey hget' hkey'

theorem runsOnce_initial (key : Key) (deadline : Int) : RunsOnce D key deadline [] {} where
  later _ _ _ _ h := nomatch h
  pruned _ _ h := nomatch h
  first _ h := nomatch h

def SameToolUse (key : Key) (call : BridgeToolUseResponse) (past : List Action) : Prop :=
  ∀ d, .deliver d ∈ past → d.key = key → d.toolUse = call

theorem SameToolUse.sharesDeadline {key : Key} {call : BridgeToolUseResponse} {deadline : Int}
    (h : SameToolUse key call past) (hdeadline : call.deadlineAt = some deadline)
    (hrun : Run (step D) {} past s) : SharesDeadline key deadline s := by
  intro n e hget hkey
  have hcall := h e.delivery (delivered_of_run hrun hget).1 hkey
  have hown := e.hasDeadline
  rw [hcall, hdeadline] at hown
  exact (Option.some.inj hown).symm

theorem runsOnce_of_run {key : Key} {call : BridgeToolUseResponse} {deadline : Int}
    (hdeadline : call.deadlineAt = some deadline) (hrun : Run (step D) {} past s)
    (hclock : ClockMonotone D past) (hsame : SameToolUse key call past) :
    RunsOnce D key deadline past s := by
  induction hrun with
  | nil => exact runsOnce_initial key deadline
  | snoc hrun hstep ih =>
      have hsame' : SameToolUse key call _ := fun d hmem => hsame d (List.mem_append_left _ hmem)
      exact (ih hclock.of_concat hsame').step (step_effect hstep)
        (wellFormed_of_run hrun wellFormed_initial) (startsInBudget_of_run hrun)
        (hsame'.sharesDeadline hdeadline hrun) hclock

/-- Among the executions of one tool use only the first starts the callable. -/
theorem startsOf_eq_startsBy {key : Key} {call : BridgeToolUseResponse}
    (hrun : Run (step D) {} past s) (hclock : ClockMonotone D past)
    (hsame : SameToolUse key call past) (hne : startsOf key s ≠ []) :
    ∃ n e, s.executions[n]? = some e ∧ e.delivery.key = key ∧
      ∀ start ∈ startsOf key s, start.execution = n := by
  have hexecution {start : Start} (hmem : start ∈ startsOf key s) :
      start ∈ s.starts ∧ ∃ e, s.executions[start.execution]? = some e ∧ e.delivery.key = key := by
    simpa [startsOf, Option.any_eq_true] using hmem
  obtain ⟨start, hmem⟩ := List.exists_mem_of_ne_nil _ hne
  obtain ⟨hstart, e, hget, hkey⟩ := hexecution hmem
  have hdeadline : call.deadlineAt = some e.deadlineAt :=
    hsame e.delivery (delivered_of_run hrun hget).1 hkey ▸ e.hasDeadline
  have honce := runsOnce_of_run hdeadline hrun hclock hsame
  refine ⟨start.execution, e, hget, hkey, fun other hother => ?_⟩
  obtain ⟨hstart', e', hget', hkey'⟩ := hexecution hother
  exact Nat.le_antisymm (honce.first other hstart' e' hget' hkey' _ e hget hkey)
    (honce.first start hstart e hget hkey _ e' hget' hkey')

theorem length_startsOf_le {key : Key} {call : BridgeToolUseResponse}
    (hrun : Run (step D) {} past s) (hclock : ClockMonotone D past)
    (hsame : SameToolUse key call past) :
    (startsOf key s).length ≤ D.retries call.name + 1 := by
  by_cases hne : startsOf key s = []
  · rw [hne]
    exact Nat.zero_le _
  · obtain ⟨n, e, hget, hkey, hall⟩ := startsOf_eq_startsBy hrun hclock hsame hne
    have hsub : (startsOf key s).Sublist (startsBy n s) := by
      have hfilter : startsOf key s = (startsOf key s).filter fun start => start.execution = n :=
        (List.filter_eq_self.mpr fun start hmem => by simpa using hall start hmem).symm
      rw [hfilter]
      exact List.filter_sublist.filter _
    obtain ⟨hbudget, hcount⟩ := (startsInBudget_of_run hrun).executions n e hget
    rw [hsame e.delivery (delivered_of_run hrun hget).1 hkey] at hbudget hcount
    exact hsub.length_le.trans (hcount.trans hbudget.attempts_le)

/-! ## Redelivery -/

/-- A delivery that finds a live entry with a result resubmits that result. -/
theorem step_redelivery {d : Delivery} {n : Nat} {e : Execution} {result : BridgeToolResult}
    (hhandles : D.handles d = true) (hlookup : s.scheduledToolUses.lookup d.key = some n)
    (hget : s.executions[n]? = some e) (hlive : d.now < e.scheduled.expiresAt)
    (hresult : e.scheduled.result = some result) (hstep : step D s (.deliver d) = some t) :
    t.submissions = s.submissions ++ [⟨d, n, result⟩] ∧ t.executions = s.executions ∧
      t.starts = s.starts := by
  have hkept : (s.pruneScheduledToolUses d.now).scheduledToolUses.lookup d.key = some n :=
    Dict.lookup_filter_of_keep hlookup (by simp [hget, hlive])
  have hget' : (s.pruneScheduledToolUses d.now).executions[n]? = some e := hget
  have hentry : (s.pruneScheduledToolUses d.now).entry d.key = some (n, e) := by
    simp [State.entry, hkept, hget']
  cases step_effect hstep with
  | ignored d hignored => rw [hhandles] at hignored; cases hignored
  | resubmitted d m e' result' hhandles hentry' hresult' =>
      rw [hentry] at hentry'
      cases hentry'
      rw [hresult] at hresult'
      cases hresult'
      exact ⟨rfl, rfl, rfl⟩
  | duplicate d m e' hhandles hentry' hnone =>
      rw [hentry] at hentry'
      cases hentry'
      rw [hresult] at hnone
      cases hnone
  | scheduled d deadlineAt hhandles hdeadline hnone => rw [hentry] at hnone; cases hnone
  | moved a m e' phase ha hget' hmoves => cases ha
  | recorded a m e' outcome ha hget' hopen => cases ha

theorem handles_congr {d d' : Delivery} (h : d.toolUse = d'.toolUse) :
    D.handles d = D.handles d' := by
  simp only [Dispatcher.handles, h]

/-- In every run, whatever is delivered, recorded, pruned or fails to be
submitted in between: without retries the callable of a tool use is started at
most once, and a redelivery that finds the entry of a recorded result submits
that result again and runs nothing. -/
theorem toolUse_runs_once (D : Dispatcher) (key : Key) (call : BridgeToolUseResponse)
    {past : List Action} {s : State} (hrun : Run (step D) {} past s)
    (hclock : ClockMonotone D past) (hsame : SameToolUse key call past) :
    (D.retries call.name = 0 → (startsOf key s).length ≤ 1) ∧
    ∀ (n : Nat) (e : Execution) (result : BridgeToolResult), s.executions[n]? = some e →
      e.delivery.key = key → e.scheduled.result = some result →
      ∀ (more : List Action) (t : State), Run (step D) s more t →
      ∀ (d : Delivery) (u : State), d.key = key → d.toolUse = call →
        t.scheduledToolUses.lookup key = some n → d.now < e.scheduled.expiresAt →
        step D t (.deliver d) = some u →
        u.submissions = t.submissions ++ [⟨d, n, result⟩] ∧ u.executions = t.executions ∧
          u.starts = t.starts := by
  refine ⟨fun hretries => ?_, ?_⟩
  · have hle := length_startsOf_le hrun hclock hsame
    rwa [hretries] at hle
  · intro n e result hget hkey hresult more t hmore d u hdkey hcall hlookup hlive hstep
    have hdelivered := delivered_of_run hrun hget
    have hsameCall : d.toolUse = e.delivery.toolUse :=
      hcall.trans (hsame e.delivery hdelivered.1 hkey).symm
    obtain ⟨e', hget', hcontinues⟩ :=
      (extends_of_run hmore (wellFormed_of_run hrun wellFormed_initial)).executions n e hget
    exact step_redelivery ((handles_congr hsameCall).trans hdelivered.2) (hdkey ▸ hlookup) hget'
      (hcontinues.expiresAt ▸ hlive) (hcontinues.result result hresult) hstep

/-! ## A run -/

def singleTool : Dispatcher := ⟨fun name => if name = "f".toList then some ⟨0⟩ else none, 1⟩

def callAt (toolCallId : String) (input : List (Text × Json)) (now : Int) : Delivery :=
  ⟨"task".toList, ⟨toolCallId.toList, "f".toList, input, some 60000000⟩, none, none, now⟩

def answered : List Action :=
  [.deliver (callAt "call-1" [] 0), .acquire 0, .attempt 0 1,
    .finish 0 (.returned (.success (.str "done".toList)))]

theorem toolUse_runs_once_answered :
    ∃ s u, Run (step singleTool) {} answered s ∧
      (startsOf ("task".toList, "call-1".toList) s).length ≤ 1 ∧
      step singleTool s (.deliver (callAt "call-1" [] 2)) = some u ∧
      u.submissions = s.submissions ++
        [⟨callAt "call-1" [] 2, 0, "call-1".toList, .success (.str "done".toList)⟩] := by
  have hrun : Run (step singleTool) {} answered _ := .of_foldlM rfl
  have hsame : SameToolUse ("task".toList, "call-1".toList) (callAt "call-1" [] 0).toolUse
      answered := by
    intro d hmem _
    simp only [answered, List.mem_cons, Action.deliver.injEq, reduceCtorEq, List.not_mem_nil,
      or_false] at hmem
    rw [hmem]
  have hclock : ClockMonotone singleTool answered := by
    have hreadings : readings singleTool answered = [0, 1] := rfl
    rw [ClockMonotone, hreadings]
    decide
  have honce := toolUse_runs_once singleTool _ _ hrun hclock hsame
  refine ⟨_, _, hrun, honce.1 rfl, rfl, ?_⟩
  exact (honce.2 0 _ _ rfl rfl rfl [] _ .nil (callAt "call-1" [] 2) _ rfl rfl rfl (by decide) rfl).1

end DualeAI.Dispatch
