import DualeAI.Foundation.Dict
import DualeAI.Foundation.Indexed
import DualeAI.Sdk.ToolDispatch

/-!
What one step of the dispatch can do, and what every run keeps.

`Effect` lists the possible steps with their guards. Every later fact about runs
is proved over it: executions keep their event and their recorded result, and
the dedup table, the submissions and the duplicates name executions that exist.
-/
namespace DualeAI.Dispatch
open Foundation

def Dispatcher.handles (D : Dispatcher) (d : Delivery) : Bool :=
  (D.tools d.toolUse.name).isSome && d.toolUse.deadlineAt.isSome

section Effects
variable (D : Dispatcher)

/-- An execution's phase moves on and nothing else happens. -/
inductive Moves (e : Execution) : Action → Phase → Prop where
  | acquired (n : Nat) (h : e.phase = .queued) : Moves e (.acquire n) (.ready 1)
  | expired (n : Nat) (now : Int) (attempt : Nat) (h : e.phase = .ready attempt)
      (hnow : e.deadlineAt ≤ now) : Moves e (.attempt n now) (.failed attempt)
  | raised (n attempt : Nat) (h : e.phase = .running attempt) :
      Moves e (.finish n .raised) (.failed attempt)
  | retried (n : Nat) (elapsed : Bool) (message : Text) (attempt : Nat)
      (h : e.phase = .failed attempt) (hretry : attempt ≤ D.retries e.delivery.toolUse.name) :
      Moves e (.settle n elapsed message) (.ready (attempt + 1))
  | aborted (n : Nat) (h : e.phase ≠ .recorded) : Moves e (.abort n) .aborted

inductive Effect (s : State) : Action → State → Prop where
  | ignored (d : Delivery) (h : D.handles d = false) : Effect s (.deliver d) s
  | resubmitted (d : Delivery) (n : Nat) (e : Execution) (result : BridgeToolResult)
      (hhandles : D.handles d = true)
      (hentry : (s.pruneScheduledToolUses d.now).entry d.key = some (n, e))
      (hresult : e.scheduled.result = some result) :
      Effect s (.deliver d) { s.pruneScheduledToolUses d.now with
        submissions := s.submissions ++ [⟨d, n, result⟩] }
  | duplicate (d : Delivery) (n : Nat) (e : Execution) (hhandles : D.handles d = true)
      (hentry : (s.pruneScheduledToolUses d.now).entry d.key = some (n, e))
      (hresult : e.scheduled.result = none) :
      Effect s (.deliver d) { s.pruneScheduledToolUses d.now with
        duplicates := s.duplicates ++ [(d, n)] }
  | scheduled (d : Delivery) (deadlineAt : Int) (hhandles : D.handles d = true)
      (hdeadline : d.toolUse.deadlineAt = some deadlineAt)
      (hentry : (s.pruneScheduledToolUses d.now).entry d.key = none) :
      Effect s (.deliver d) { s.pruneScheduledToolUses d.now with
        executions := s.executions ++
          [⟨d, deadlineAt, ⟨toolUseDedupExpiresAt d.toolUse d.now, none⟩, .queued, hdeadline⟩]
        scheduledToolUses := (s.pruneScheduledToolUses d.now).scheduledToolUses ++
          [(d.key, s.executions.length)] }
  | moved (a : Action) (n : Nat) (e : Execution) (phase : Phase) (ha : a.execution = some n)
      (hget : s.executions[n]? = some e) (hmoves : Moves D e a phase) :
      Effect s a (s.setPhase n phase)
  | started (n attempt : Nat) (e : Execution) (now : Int) (hget : s.executions[n]? = some e)
      (hphase : e.phase = .ready attempt) (hnow : now < e.deadlineAt) :
      Effect s (.attempt n now) { s.setPhase n (.running attempt) with
        starts := s.starts ++ [⟨n, attempt, now⟩] }
  | recorded (a : Action) (n : Nat) (e : Execution) (outcome : ToolOutcome)
      (ha : a.execution = some n) (hget : s.executions[n]? = some e)
      (hopen : e.phase ≠ .recorded) : Effect s a (s.record n e outcome)
  | ended (i : Nat) (failed : Bool) :
      Effect s (.endSubmission i failed) { s with ended := s.ended ++ [(i, failed)] }

variable {D}

theorem scheduleToolUse_effect (d : Delivery) (s : State) :
    Effect D s (.deliver d) (scheduleToolUse D d s) := by
  rw [scheduleToolUse]
  split
  · next htool => exact .ignored d (by simp [Dispatcher.handles, htool])
  · next hdeadline => exact .ignored d (by simp [Dispatcher.handles, hdeadline])
  · next tool deadlineAt htool hdeadline =>
      have hhandles : D.handles d = true := by simp [Dispatcher.handles, htool, hdeadline]
      simp only
      split
      · next n e hentry =>
          split
          · next result hresult => exact .resubmitted d n e result hhandles hentry hresult
          · next hresult => exact .duplicate d n e hhandles hentry hresult
      · next hentry => exact .scheduled d deadlineAt hhandles hdeadline hentry

theorem stage_effect {s t : State} {a : Action} {n : Nat} {e : Execution}
    (ha : a.execution = some n) (hget : s.executions[n]? = some e)
    (h : stage D n e s a = some t) : Effect D s a t := by
  cases a with
  | deliver d | endSubmission i failed => cases ha
  | acquire m =>
      obtain ⟨hguard, hmoved⟩ := Option.ite_none_right_eq_some.mp h
      cases hmoved
      exact .moved _ n e _ ha hget (.acquired m hguard.1)
  | reject m message =>
      obtain ⟨hphase, hrecord⟩ := Option.ite_none_right_eq_some.mp h
      cases hrecord
      exact .recorded _ n e _ ha hget (by simp [hphase])
  | attempt m now =>
      cases ha
      simp only [stage] at h
      split at h
      · next attempt hphase =>
          split at h
          · next hlate =>
              cases h
              exact .moved _ n e _ rfl hget (.expired n now attempt hphase (by omega))
          · next hearly =>
              cases h
              exact .started n attempt e now hget hphase (by omega)
      · cases h
  | finish m runEnd =>
      simp only [stage] at h
      split at h
      · next hphase => cases h; exact .recorded _ n e _ ha hget (by simp [hphase])
      · next attempt hphase => cases h; exact .moved _ n e _ ha hget (.raised m attempt hphase)
      · cases h
  | settle m elapsed message =>
      simp only [stage] at h
      split at h
      · next attempt hphase =>
          split at h
          · cases h
            exact .recorded _ n e _ ha hget (by simp [hphase])
          · next hgoes =>
              cases h
              exact .moved _ n e _ ha hget
                (.retried m elapsed message attempt hphase (by omega))
      · cases h
  | abort m =>
      obtain ⟨hguard, hmoved⟩ := Option.ite_none_left_eq_some.mp h
      cases hmoved
      exact .moved _ n e _ ha hget (.aborted m fun hphase => hguard (.inl hphase))

theorem step_effect {s t : State} {a : Action} (h : step D s a = some t) : Effect D s a t := by
  have hstage (ha : a.execution.isSome = true)
      (h : (a.execution.bind fun n => (s.executions[n]?).bind fun e => stage D n e s a) = some t) :
      Effect D s a t := by
    obtain ⟨n, hn, hbind⟩ := Option.bind_eq_some_iff.mp h
    obtain ⟨e, he, hstep⟩ := Option.bind_eq_some_iff.mp hbind
    exact stage_effect hn he hstep
  cases a with
  | deliver d =>
      obtain ⟨-, hstep⟩ := Option.ite_none_right_eq_some.mp h
      cases hstep
      exact scheduleToolUse_effect d s
  | endSubmission i failed =>
      obtain ⟨-, hstep⟩ := Option.ite_none_right_eq_some.mp h
      cases hstep
      exact .ended i failed
  | acquire n | reject n message | attempt n now | finish n runEnd | settle n elapsed message
  | abort n => exact hstage rfl h

end Effects

/-! ## What a step keeps -/

/-- The execution goes on: its event and its table entry's expiry stay, and so
does a recorded result. -/
structure Continues (e e' : Execution) : Prop where
  delivery : e'.delivery = e.delivery
  expiresAt : e'.scheduled.expiresAt = e.scheduled.expiresAt
  result : ∀ r, e.scheduled.result = some r → e'.scheduled.result = some r

theorem Continues.refl (e : Execution) : Continues e e := ⟨rfl, rfl, fun _ => id⟩

theorem Continues.trans {e e' e'' : Execution} (h : Continues e e') (h' : Continues e' e'') :
    Continues e e'' :=
  ⟨h'.delivery.trans h.delivery, h'.expiresAt.trans h.expiresAt,
    fun r hr => h'.result r (h.result r hr)⟩

structure Extends (s t : State) : Prop where
  executions : ∀ (n : Nat) (e : Execution), s.executions[n]? = some e →
    ∃ e', t.executions[n]? = some e' ∧ Continues e e'
  submissions : s.submissions <+: t.submissions
  duplicates : s.duplicates <+: t.duplicates

/-- Entries, submissions and duplicates name executions of the state, and only an
execution that has ended its run has a result. -/
structure WellFormed (s : State) : Prop where
  table : ∀ entry ∈ s.scheduledToolUses, ∃ e, s.executions[entry.2]? = some e ∧
    e.delivery.key = entry.1
  expiry : ∀ (n : Nat) (e : Execution), s.executions[n]? = some e →
    e.scheduled.expiresAt = toolUseDedupExpiresAt e.delivery.toolUse e.delivery.now
  results : ∀ (n : Nat) (e : Execution), s.executions[n]? = some e →
    e.scheduled.result.isSome = true → e.phase = .recorded
  submissions : ∀ sub ∈ s.submissions, ∃ e, s.executions[sub.producer]? = some e ∧
    e.scheduled.result = some sub.result
  duplicates : ∀ dup ∈ s.duplicates, ∃ e, s.executions[dup.2]? = some e

theorem extends_modify {s t : State} {n : Nat} {f : Execution → Execution}
    (hf : ∀ e, s.executions[n]? = some e → Continues e (f e))
    (hexecutions : t.executions = s.executions.modify n f)
    (hsubmissions : s.submissions <+: t.submissions) (hduplicates : s.duplicates <+: t.duplicates) :
    Extends s t := by
  refine ⟨fun m e hget => ?_, hsubmissions, hduplicates⟩
  refine ⟨if n = m then f e else e, ?_, ?_⟩
  · rw [hexecutions]
    exact getElem?_modify_eq_some.mpr ⟨e, hget, rfl⟩
  · by_cases h : n = m
    · subst h
      rw [if_pos rfl]
      exact hf e hget
    · rw [if_neg h]
      exact .refl e

theorem continues_setPhase (e : Execution) (phase : Phase) :
    Continues e { e with phase := phase } := ⟨rfl, rfl, fun _ => id⟩

theorem Effect.extends {D : Dispatcher} {s t : State} {a : Action} (h : Effect D s a t)
    (hs : WellFormed s) : Extends s t := by
  have hsame (m : Nat) (e : Execution) (hget : s.executions[m]? = some e) :
      ∃ e', s.executions[m]? = some e' ∧ Continues e e' := ⟨e, hget, .refl e⟩
  cases h with
  | ignored d h => exact ⟨hsame, List.prefix_rfl, List.prefix_rfl⟩
  | resubmitted d n e result hhandles hentry hresult =>
      exact ⟨hsame, List.prefix_append _ _, List.prefix_rfl⟩
  | duplicate d n e hhandles hentry hresult =>
      exact ⟨hsame, List.prefix_rfl, List.prefix_append _ _⟩
  | scheduled d deadlineAt hhandles hdeadline hentry =>
      refine ⟨fun m e hget => ⟨e, ?_, .refl e⟩, List.prefix_rfl, List.prefix_rfl⟩
      exact List.getElem?_append_left (List.getElem?_eq_some_iff.mp hget).1 ▸ hget
  | moved a n e phase ha hget hmoves =>
      exact extends_modify (fun e _ => continues_setPhase e phase) rfl List.prefix_rfl
        List.prefix_rfl
  | started n attempt e now hget hphase hnow =>
      exact extends_modify (fun e _ => continues_setPhase e (.running attempt)) rfl
        List.prefix_rfl List.prefix_rfl
  | recorded a n e outcome ha hget hopen =>
      refine extends_modify ?_ rfl (List.prefix_append _ _) List.prefix_rfl
      intro e' he'
      rw [hget] at he'
      cases he'
      -- a recorded result would have ended the run
      exact ⟨rfl, rfl, fun r hr => absurd (hs.results n e hget (by simp [hr])) hopen⟩
  | ended i failed => exact ⟨hsame, List.prefix_rfl, List.prefix_rfl⟩

theorem Extends.refl (s : State) : Extends s s :=
  ⟨fun _ e hget => ⟨e, hget, .refl e⟩, List.prefix_rfl, List.prefix_rfl⟩

theorem Extends.trans {s t u : State} (h : Extends s t) (h' : Extends t u) : Extends s u := by
  refine ⟨fun n e hget => ?_, h.submissions.trans h'.submissions, h.duplicates.trans h'.duplicates⟩
  obtain ⟨e', hget', hcontinues⟩ := h.executions n e hget
  obtain ⟨e'', hget'', hcontinues'⟩ := h'.executions n e' hget'
  exact ⟨e'', hget'', hcontinues.trans hcontinues'⟩

/-! ## Well-formed states -/

theorem mem_prune {s : State} {now : Int} {entry : Key × Nat} :
    entry ∈ (s.pruneScheduledToolUses now).scheduledToolUses ↔
      entry ∈ s.scheduledToolUses ∧
        ∃ e, s.executions[entry.2]? = some e ∧ now < e.scheduled.expiresAt := by
  simp [State.pruneScheduledToolUses, List.mem_filter, Option.any_eq_true]

theorem entry_prune {s : State} {now : Int} {key : Key} {n : Nat} {e : Execution}
    (h : (s.pruneScheduledToolUses now).entry key = some (n, e)) :
    (key, n) ∈ s.scheduledToolUses ∧ s.executions[n]? = some e ∧ now < e.scheduled.expiresAt := by
  obtain ⟨m, hlookup, hbind⟩ := Option.bind_eq_some_iff.mp h
  obtain ⟨e', hget, hret⟩ := Option.bind_eq_some_iff.mp hbind
  cases hret
  obtain ⟨hmem, e', hget', hlive⟩ := mem_prune.mp (Dict.mem_of_lookup hlookup)
  have hget : s.executions[n]? = some e := hget
  rw [hget] at hget'
  cases hget'
  exact ⟨hmem, hget, hlive⟩

theorem WellFormed.table_of_extends {s t : State} (hs : WellFormed s) (h : Extends s t)
    {entry : Key × Nat} (hmem : entry ∈ s.scheduledToolUses) :
    ∃ e, t.executions[entry.2]? = some e ∧ e.delivery.key = entry.1 := by
  obtain ⟨e, hget, hkey⟩ := hs.table entry hmem
  obtain ⟨e', hget', hcontinues⟩ := h.executions entry.2 e hget
  exact ⟨e', hget', by rw [hcontinues.delivery, hkey]⟩

theorem WellFormed.submissions_of_extends {s t : State} (hs : WellFormed s) (h : Extends s t)
    {sub : Submission} (hmem : sub ∈ s.submissions) :
    ∃ e, t.executions[sub.producer]? = some e ∧ e.scheduled.result = some sub.result := by
  obtain ⟨e, hget, hresult⟩ := hs.submissions sub hmem
  obtain ⟨e', hget', hcontinues⟩ := h.executions sub.producer e hget
  exact ⟨e', hget', hcontinues.result _ hresult⟩

theorem WellFormed.duplicates_of_extends {s t : State} (hs : WellFormed s) (h : Extends s t)
    {dup : Delivery × Nat} (hmem : dup ∈ s.duplicates) : ∃ e, t.executions[dup.2]? = some e := by
  obtain ⟨e, hget⟩ := hs.duplicates dup hmem
  obtain ⟨e', hget', -⟩ := h.executions dup.2 e hget
  exact ⟨e', hget'⟩

theorem wellFormed_modify {s t : State} {n : Nat} {f : Execution → Execution} (hs : WellFormed s)
    (h : Extends s t) (hexecutions : t.executions = s.executions.modify n f)
    (hexpiry : ∀ e, (f e).delivery = e.delivery ∧
      (f e).scheduled.expiresAt = e.scheduled.expiresAt)
    (hresults : ∀ e, s.executions[n]? = some e → (f e).scheduled.result.isSome = true →
      (f e).phase = .recorded)
    (htable : t.scheduledToolUses = s.scheduledToolUses)
    (hsubmissions : ∀ sub ∈ t.submissions, sub ∈ s.submissions ∨
      ∃ e, t.executions[sub.producer]? = some e ∧ e.scheduled.result = some sub.result)
    (hduplicates : t.duplicates = s.duplicates) : WellFormed t := by
  refine ⟨?_, ?_, ?_, ?_, ?_⟩
  · intro entry hmem
    exact hs.table_of_extends h (htable ▸ hmem)
  · intro m e' hget
    rw [hexecutions] at hget
    obtain ⟨e, hget', rfl⟩ := getElem?_modify_eq_some.mp hget
    split
    · rw [(hexpiry e).1, (hexpiry e).2]; exact hs.expiry m e hget'
    · exact hs.expiry m e hget'
  · intro m e' hget hresult
    rw [hexecutions] at hget
    obtain ⟨e, hget', rfl⟩ := getElem?_modify_eq_some.mp hget
    by_cases hm : n = m
    · subst hm
      rw [if_pos rfl] at hresult ⊢
      exact hresults e hget' hresult
    · rw [if_neg hm] at hresult ⊢
      exact hs.results m e hget' hresult
  · intro sub hmem
    cases hsubmissions sub hmem with
    | inl hold => exact hs.submissions_of_extends h hold
    | inr hnew => exact hnew
  · intro dup hmem
    exact hs.duplicates_of_extends h (hduplicates ▸ hmem)

theorem Effect.wellFormed {D : Dispatcher} {s t : State} {a : Action} (h : Effect D s a t)
    (hs : WellFormed s) : WellFormed t := by
  have hextends := h.extends hs
  cases h with
  | ignored d h => exact hs
  | resubmitted d n e result hhandles hentry hresult =>
      obtain ⟨-, hget, -⟩ := entry_prune hentry
      refine ⟨?_, hs.expiry, hs.results, ?_, hs.duplicates⟩
      · exact fun entry hmem => hs.table_of_extends hextends (mem_prune.mp hmem).1
      · exact List.forall_mem_append.mpr
          ⟨hs.submissions, List.forall_mem_singleton.mpr ⟨e, hget, hresult⟩⟩
  | duplicate d n e hhandles hentry hresult =>
      obtain ⟨-, hget, -⟩ := entry_prune hentry
      refine ⟨?_, hs.expiry, hs.results, hs.submissions, ?_⟩
      · exact fun entry hmem => hs.table_of_extends hextends (mem_prune.mp hmem).1
      · exact List.forall_mem_append.mpr
          ⟨hs.duplicates, List.forall_mem_singleton.mpr ⟨e, hget⟩⟩
  | scheduled d deadlineAt hhandles hdeadline hentry =>
      refine ⟨List.forall_mem_append.mpr ⟨?_, ?_⟩, forall_getElem?_concat hs.expiry rfl,
        forall_getElem?_concat hs.results (fun h => nomatch h),
        fun sub hmem => hs.submissions_of_extends hextends hmem,
        fun dup hmem => hs.duplicates_of_extends hextends hmem⟩
      · exact fun entry hmem => hs.table_of_extends hextends (mem_prune.mp hmem).1
      · exact List.forall_mem_singleton.mpr ⟨_, List.getElem?_concat_length, rfl⟩
  | moved a n e phase ha hget hmoves =>
      refine wellFormed_modify hs hextends rfl (fun _ => ⟨rfl, rfl⟩) ?_ rfl (fun _ => .inl) rfl
      intro e' he' hresult
      rw [hget] at he'
      cases he'
      have hphase := hs.results n e hget hresult
      cases hmoves with
      | acquired m h | expired m now attempt h hnow | raised m attempt h
      | retried m elapsed message attempt h hretry => rw [h] at hphase; cases hphase
      | aborted m h => exact absurd hphase h
  | started n attempt e now hget hphase hnow =>
      refine wellFormed_modify hs hextends rfl (fun _ => ⟨rfl, rfl⟩) ?_ rfl (fun _ => .inl) rfl
      intro e' he' hresult
      rw [hget] at he'
      cases he'
      rw [hs.results n e hget hresult] at hphase
      cases hphase
  | recorded a n e outcome ha hget hopen =>
      refine wellFormed_modify hs hextends rfl (fun _ => ⟨rfl, rfl⟩) (fun _ _ _ => rfl) rfl
        (List.forall_mem_append.mpr ⟨fun sub => .inl, List.forall_mem_singleton.mpr ?_⟩) rfl
      exact .inr ⟨_, getElem?_modify_eq_some.mpr ⟨e, hget, rfl⟩, by rw [if_pos rfl]⟩
  | ended i failed => exact ⟨hs.table, hs.expiry, hs.results, hs.submissions, hs.duplicates⟩

/-! ## Where the parts of a state come from -/

theorem Effect.execution_origin {D : Dispatcher} {s t : State} {a : Action} (h : Effect D s a t)
    {n : Nat} {e' : Execution} (hget : t.executions[n]? = some e') :
    (∃ e, s.executions[n]? = some e ∧ e'.delivery = e.delivery) ∨
      ∃ d, a = .deliver d ∧ D.handles d = true ∧ e'.delivery = d ∧ n = s.executions.length ∧
        (s.pruneScheduledToolUses d.now).entry d.key = none ∧
        (d.key, n) ∈ t.scheduledToolUses := by
  have hmodify {m : Nat} {f : Execution → Execution}
      (hget : (s.executions.modify m f)[n]? = some e') (hf : ∀ e, (f e).delivery = e.delivery) :
      ∃ e, s.executions[n]? = some e ∧ e'.delivery = e.delivery := by
    obtain ⟨e, hget', rfl⟩ := getElem?_modify_eq_some.mp hget
    refine ⟨e, hget', ?_⟩
    split
    · exact hf e
    · rfl
  cases h with
  | ignored d h | resubmitted d m e result hhandles hentry hresult
  | duplicate d m e hhandles hentry hresult | ended i failed => exact .inl ⟨e', hget, rfl⟩
  | scheduled d deadlineAt hhandles hdeadline hentry =>
      cases getElem?_concat_eq_some hget with
      | inl hold => exact .inl ⟨e', hold, rfl⟩
      | inr h =>
          obtain ⟨rfl, rfl⟩ := h
          exact .inr ⟨d, rfl, hhandles, rfl, rfl, hentry,
            List.mem_append_right _ (List.mem_singleton_self _)⟩
  | moved a m e phase ha hget' hmoves | started m attempt e now hget' hphase hnow
  | recorded a m e outcome ha hget' hopen => exact .inl (hmodify hget fun _ => rfl)

theorem Effect.start_origin {D : Dispatcher} {s t : State} {a : Action} (h : Effect D s a t)
    {start : Start} (hmem : start ∈ t.starts) :
    start ∈ s.starts ∨ ∃ e now, a = .attempt start.execution now ∧
      s.executions[start.execution]? = some e ∧ now < e.deadlineAt := by
  cases h with
  | started n attempt e now hget hphase hnow =>
      cases List.mem_append.mp hmem with
      | inl hold => exact .inl hold
      | inr hnew =>
          cases List.mem_singleton.mp hnew
          exact .inr ⟨e, now, rfl, hget, hnow⟩
  | ignored | resubmitted | duplicate | scheduled | moved | recorded | ended => exact .inl hmem

/-- Entries leave the dedup table by pruning only. -/
theorem Effect.table_kept {D : Dispatcher} {s t : State} {a : Action} (h : Effect D s a t) :
    t.scheduledToolUses = s.scheduledToolUses ∨
      ∃ d, a = .deliver d ∧ D.handles d = true ∧
        ∀ entry ∈ (s.pruneScheduledToolUses d.now).scheduledToolUses,
          entry ∈ t.scheduledToolUses := by
  cases h with
  | ignored | moved | started | recorded | ended => exact .inl rfl
  | resubmitted d n e result hhandles hentry hresult => exact .inr ⟨d, rfl, hhandles, fun _ => id⟩
  | duplicate d n e hhandles hentry hresult => exact .inr ⟨d, rfl, hhandles, fun _ => id⟩
  | scheduled d deadlineAt hhandles hdeadline hentry =>
      exact .inr ⟨d, rfl, hhandles, fun _ hmem => List.mem_append_left _ hmem⟩

theorem WellFormed.entry_eq_none {s : State} (hs : WellFormed s) {now : Int} {key : Key}
    (h : (s.pruneScheduledToolUses now).entry key = none) :
    ∀ entry ∈ (s.pruneScheduledToolUses now).scheduledToolUses, entry.1 ≠ key := by
  rintro ⟨k, n⟩ hmem rfl
  cases hlookup : (s.pruneScheduledToolUses now).scheduledToolUses.lookup k with
  | none =>
      have hne := List.lookup_eq_none_iff.mp hlookup (k, n) hmem
      simp at hne
  | some m =>
      obtain ⟨e, hget, -⟩ := hs.table (k, m) (mem_prune.mp (Dict.mem_of_lookup hlookup)).1
      have hget' : (s.pruneScheduledToolUses now).executions[m]? = some e := hget
      simp [State.entry, hlookup, hget'] at h

/-! ## Runs -/

theorem wellFormed_initial : WellFormed {} where
  table _ h := nomatch h
  expiry _ _ h := nomatch h
  results _ _ h := nomatch h
  submissions _ h := nomatch h
  duplicates _ h := nomatch h

variable {D : Dispatcher} {past more : List Action} {s t : State}

theorem wellFormed_of_run (h : Run (step D) s past t) (hs : WellFormed s) : WellFormed t :=
  h.invariant (I := fun _ t => WellFormed t) hs fun _ _ _ _ ht hstep =>
    (step_effect hstep).wellFormed ht

theorem delivered_of_run (h : Run (step D) {} past s) {n : Nat} {e : Execution}
    (hget : s.executions[n]? = some e) :
    .deliver e.delivery ∈ past ∧ D.handles e.delivery = true := by
  refine h.invariant (I := fun past s => ∀ (n : Nat) (e : Execution), s.executions[n]? = some e →
    .deliver e.delivery ∈ past ∧ D.handles e.delivery = true) ?_ ?_ n e hget
  · intro n e hget
    cases hget
  · intro past s a t hs hstep n e' hget'
    rcases (step_effect hstep).execution_origin hget' with
      ⟨e, hget, hdelivery⟩ | ⟨d, rfl, hhandles, rfl, -⟩
    · rw [hdelivery]
      exact ⟨List.mem_append_left _ (hs n e hget).1, (hs n e hget).2⟩
    · exact ⟨List.mem_append_right _ (List.mem_singleton_self _), hhandles⟩

theorem extends_of_run (h : Run (step D) s past t) (hs : WellFormed s) : Extends s t :=
  h.invariant_of (I := fun _ t => WellFormed t) (J := fun _ t => Extends s t)
    (fun _ _ hrun => wellFormed_of_run hrun hs) (.refl s)
    fun _ _ _ _ ht hextends hstep => hextends.trans ((step_effect hstep).extends ht)

end DualeAI.Dispatch
