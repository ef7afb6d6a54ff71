import DualeAI.Foundation.Log
import DualeAI.Sdk.ToolReplay
import Mathlib.Data.List.Forall2

/-!
Which call a delivered tool use is answered for.

The dedup table knows a call by its ids alone. Which delivery opened the entry
that answers an event is settled by the deliveries, whatever the executions do
meanwhile: the table refines a list of replay windows. Every event is answered
for its own call exactly when no window is met by another one.
-/
namespace DualeAI.Dispatch
open Foundation

def SameCall (c c' : BridgeToolUseResponse) : Prop := c.name = c'.name ∧ c.input = c'.input

/-! ## Replay windows -/

def Delivery.dedupExpiresAt (d : Delivery) : Int := toolUseDedupExpiresAt d.toolUse d.now

def liveAt (now : Int) (windows : List Delivery) : List Delivery :=
  windows.filter fun d => now < d.dedupExpiresAt

def windowFor (key : Key) (windows : List Delivery) : Option Delivery :=
  windows.find? fun d => d.key = key

/-- The delivery that opened the window `d` arrives in. -/
def openerOf (d : Delivery) (windows : List Delivery) : Option Delivery :=
  windowFor d.key (liveAt d.now windows)

section Windows
variable (D : Dispatcher)

/-- A handled delivery closes the windows that are over, and opens its own unless
one is open under its key. -/
def openWindow (windows : List Delivery) (d : Delivery) : List Delivery :=
  if D.handles d then
    if (openerOf d windows).isSome then liveAt d.now windows else liveAt d.now windows ++ [d]
  else windows

def openWindows (ds : List Delivery) : List Delivery := ds.foldl (openWindow D) []

/-- No handled delivery arrives in a window that another call opened. -/
def NoReuse (ds : List Delivery) : Prop :=
  ∀ before d after, ds = before ++ d :: after → D.handles d = true →
    ∀ opener ∈ openerOf d (openWindows D before), SameCall opener.toolUse d.toolUse

variable {D}

theorem noReuse_nil : NoReuse D [] := Log.eachAgainstPast_nil _

theorem noReuse_concat {ds : List Delivery} {d : Delivery} :
    NoReuse D (ds ++ [d]) ↔ NoReuse D ds ∧ (D.handles d = true →
      ∀ opener ∈ openerOf d (openWindows D ds), SameCall opener.toolUse d.toolUse) :=
  Log.eachAgainstPast_concat (P := fun before d => D.handles d = true →
    ∀ opener ∈ openerOf d (openWindows D before), SameCall opener.toolUse d.toolUse)

end Windows

/-! ## The dedup table refines the windows -/

/-- A table entry stands for the window of the delivery its execution was made for. -/
def Stands (s : State) (entry : Key × Nat) (d : Delivery) : Prop :=
  entry.1 = d.key ∧ ∃ e, s.executions[entry.2]? = some e ∧ e.delivery = d

def Refines (s : State) (windows : List Delivery) : Prop :=
  List.Forall₂ (Stands s) s.scheduledToolUses windows

theorem Stands.of_extends {s t : State} {entry : Key × Nat} {d : Delivery} (h : Extends s t)
    (hstands : Stands s entry d) : Stands t entry d := by
  obtain ⟨hkey, e, hget, rfl⟩ := hstands
  obtain ⟨e', hget', hcontinues⟩ := h.executions entry.2 e hget
  exact ⟨hkey, e', hget', hcontinues.delivery⟩

theorem Refines.prune {s : State} {windows : List Delivery} (h : Refines s windows)
    (hs : WellFormed s) (now : Int) :
    List.Forall₂ (Stands s) (s.pruneScheduledToolUses now).scheduledToolUses
      (liveAt now windows) := by
  refine List.rel_filter ?_ h
  rintro entry d ⟨-, e, hget, rfl⟩
  simp only [hget, Option.any_some, hs.expiry entry.2 e hget]
  exact Iff.rfl

theorem stands_lookup {s : State} {table : List (Key × Nat)} {windows : List Delivery}
    (h : List.Forall₂ (Stands s) table windows) (key : Key) :
    windowFor key windows =
      (table.lookup key).bind fun n => (s.executions[n]?).map Execution.delivery := by
  induction h with
  | nil => rfl
  | @cons entry d table windows hstands _ ih =>
      obtain ⟨k, n⟩ := entry
      obtain ⟨hkey, e, hget, hdelivery⟩ := hstands
      simp only at hkey hget
      rw [windowFor, List.find?_cons, List.lookup_cons, ← hkey]
      by_cases hk : k = key
      · subst hk
        simp [hget, hdelivery]
      · have hbeq : (key == k) = false := beq_eq_false_iff_ne.mpr (Ne.symm hk)
        simp only [hk, decide_false, hbeq]
        exact ih

theorem Refines.entry {s : State} {windows : List Delivery} (h : Refines s windows)
    (hs : WellFormed s) (d : Delivery) :
    openerOf d windows =
      ((s.pruneScheduledToolUses d.now).entry d.key).map fun found => found.2.delivery := by
  rw [openerOf, stands_lookup (h.prune hs d.now), State.entry]
  cases (s.pruneScheduledToolUses d.now).scheduledToolUses.lookup d.key with
  | none => rfl
  | some n =>
      have hexecutions : (s.pruneScheduledToolUses d.now).executions = s.executions := rfl
      simp only [Option.bind_eq_bind, Option.bind_some, hexecutions]
      cases s.executions[n]? <;> rfl

theorem Refines.openerOf_of_entry {s : State} {windows : List Delivery} (h : Refines s windows)
    (hs : WellFormed s) {d : Delivery} {n : Nat} {e : Execution}
    (hentry : (s.pruneScheduledToolUses d.now).entry d.key = some (n, e)) :
    openerOf d windows = some e.delivery := by
  rw [h.entry hs d, hentry, Option.map_some]

theorem Refines.openerOf_of_no_entry {s : State} {windows : List Delivery} (h : Refines s windows)
    (hs : WellFormed s) {d : Delivery}
    (hentry : (s.pruneScheduledToolUses d.now).entry d.key = none) : openerOf d windows = none := by
  rw [h.entry hs d, hentry, Option.map_none]

theorem deliveries_deliver (d : Delivery) : deliveries [.deliver d] = [d] := rfl

theorem deliveries_stage {a : Action} {n : Nat} (h : a.execution = some n) :
    deliveries [a] = [] := by
  cases a with
  | deliver d | endSubmission i failed => cases h
  | acquire | reject | attempt | finish | settle | abort => rfl

variable {D : Dispatcher} {past : List Action} {s t : State}

theorem Refines.step {windows : List Delivery} {a : Action} (h : Refines s windows)
    (heffect : Effect D s a t) (hs : WellFormed s) :
    Refines t ((deliveries [a]).foldl (openWindow D) windows) := by
  have hextends := heffect.extends hs
  have hkept (entries : List (Key × Nat)) (windows : List Delivery)
      (h : List.Forall₂ (Stands s) entries windows) : List.Forall₂ (Stands t) entries windows :=
    h.imp fun _ _ hstands => hstands.of_extends hextends
  cases heffect with
  | ignored d hignored =>
      rw [deliveries_deliver, List.foldl_cons, List.foldl_nil, openWindow, hignored]
      exact h
  | resubmitted d n e result hhandles hentry hresult
  | duplicate d n e hhandles hentry hresult =>
      rw [deliveries_deliver, List.foldl_cons, List.foldl_nil, openWindow, hhandles, if_pos rfl,
        h.entry hs d, hentry]
      exact hkept _ _ (h.prune hs d.now)
  | scheduled d deadlineAt hhandles hdeadline hentry =>
      rw [deliveries_deliver, List.foldl_cons, List.foldl_nil, openWindow, hhandles, if_pos rfl,
        h.entry hs d, hentry]
      refine List.rel_append (hkept _ _ (h.prune hs d.now)) (.cons ⟨rfl, ?_⟩ .nil)
      exact ⟨_, List.getElem?_concat_length, rfl⟩
  | moved a n e phase ha hget hmoves => rw [deliveries_stage ha]; exact hkept _ _ h
  | started n attempt e now hget hphase hnow => exact hkept _ _ h
  | recorded a n e outcome ha hget hopen => rw [deliveries_stage ha]; exact hkept _ _ h
  | ended i failed => exact hkept _ _ h

/-- The dedup table of a run is settled by what was delivered. -/
theorem refines_of_run (h : Run (step D) {} past s) :
    Refines s (openWindows D (deliveries past)) := by
  refine h.invariant_of (I := fun _ s => WellFormed s)
    (J := fun past s => Refines s (openWindows D (deliveries past)))
    (fun _ _ hrun => wellFormed_of_run hrun wellFormed_initial) .nil ?_
  intro past s a t hs hrefines hstep
  rw [deliveries_concat, openWindows, List.foldl_append]
  exact hrefines.step (step_effect hstep) hs

/-! ## Answers -/

def RanFor (s : State) (n : Nat) (call : BridgeToolUseResponse) : Prop :=
  ∃ e, s.executions[n]? = some e ∧ SameCall e.delivery.toolUse call

/-- Every result submitted for an event was recorded by an execution of the
event's own tool with its own input, and so was every execution a dropped event
is a duplicate of. -/
structure OwnAnswers (s : State) : Prop where
  submissions : ∀ sub ∈ s.submissions,
    (∃ e, s.executions[sub.producer]? = some e ∧ e.scheduled.result = some sub.result) ∧
      RanFor s sub.producer sub.delivery.toolUse
  duplicates : ∀ dup ∈ s.duplicates, RanFor s dup.2 dup.1.toolUse

theorem ranFor_iff {n : Nat} {e : Execution} (hget : s.executions[n]? = some e)
    (call : BridgeToolUseResponse) : RanFor s n call ↔ SameCall e.delivery.toolUse call := by
  constructor
  · rintro ⟨e', hget', hsame⟩
    rw [hget] at hget'
    cases hget'
    exact hsame
  · exact fun hsame => ⟨e, hget, hsame⟩

theorem RanFor.iff_of_extends {n : Nat} {call : BridgeToolUseResponse} (h : Extends s t)
    {e : Execution} (hget : s.executions[n]? = some e) : RanFor t n call ↔ RanFor s n call := by
  obtain ⟨e', hget', hcontinues⟩ := h.executions n e hget
  rw [ranFor_iff hget', ranFor_iff hget, hcontinues.delivery]

theorem ownAnswers_append_iff {subs : List Submission} {dups : List (Delivery × Nat)}
    (h : Extends s t) (hs : WellFormed s) (ht : WellFormed t)
    (hsubs : t.submissions = s.submissions ++ subs) (hdups : t.duplicates = s.duplicates ++ dups) :
    OwnAnswers t ↔ OwnAnswers s ∧
      (∀ sub ∈ subs, RanFor t sub.producer sub.delivery.toolUse) ∧
      ∀ dup ∈ dups, RanFor t dup.2 dup.1.toolUse := by
  constructor
  · intro hown
    refine ⟨⟨fun sub hmem => ⟨hs.submissions sub hmem, ?_⟩, fun dup hmem => ?_⟩,
      fun sub hmem => ?_, fun dup hmem => ?_⟩
    · obtain ⟨e, hget, -⟩ := hs.submissions sub hmem
      exact (RanFor.iff_of_extends h hget).mp
        (hown.submissions sub (hsubs ▸ List.mem_append_left _ hmem)).2
    · obtain ⟨e, hget⟩ := hs.duplicates dup hmem
      exact (RanFor.iff_of_extends h hget).mp
        (hown.duplicates dup (hdups ▸ List.mem_append_left _ hmem))
    · exact (hown.submissions sub (hsubs ▸ List.mem_append_right _ hmem)).2
    · exact hown.duplicates dup (hdups ▸ List.mem_append_right _ hmem)
  · rintro ⟨hown, hnewSubs, hnewDups⟩
    refine ⟨fun sub hmem => ⟨ht.submissions sub hmem, ?_⟩, fun dup hmem => ?_⟩
    · cases List.mem_append.mp (hsubs ▸ hmem) with
      | inl hold =>
          obtain ⟨e, hget, -⟩ := hs.submissions sub hold
          exact (RanFor.iff_of_extends h hget).mpr (hown.submissions sub hold).2
      | inr hnew => exact hnewSubs sub hnew
    · cases List.mem_append.mp (hdups ▸ hmem) with
      | inl hold =>
          obtain ⟨e, hget⟩ := hs.duplicates dup hold
          exact (RanFor.iff_of_extends h hget).mpr (hown.duplicates dup hold)
      | inr hnew => exact hnewDups dup hnew

theorem ownAnswers_iff_of_own {subs : List Submission} (h : Extends s t) (hs : WellFormed s)
    (ht : WellFormed t) (hsubs : t.submissions = s.submissions ++ subs)
    (hown : ∀ sub ∈ subs, RanFor t sub.producer sub.delivery.toolUse)
    (hdups : t.duplicates = s.duplicates) : OwnAnswers t ↔ OwnAnswers s := by
  have hnone : t.duplicates = s.duplicates ++ [] := by rw [hdups, List.append_nil]
  rw [ownAnswers_append_iff h hs ht hsubs hnone]
  exact and_iff_left ⟨hown, fun _ hmem => nomatch hmem⟩

theorem ownAnswers_iff_of_unanswered (h : Extends s t) (hs : WellFormed s) (ht : WellFormed t)
    (hsubs : t.submissions = s.submissions) (hdups : t.duplicates = s.duplicates) :
    OwnAnswers t ↔ OwnAnswers s := by
  have hnone : t.submissions = s.submissions ++ [] := by rw [hsubs, List.append_nil]
  exact ownAnswers_iff_of_own h hs ht hnone (fun _ hmem => nomatch hmem) hdups

/-- No event arrives in a window that another call opened. -/
def MeetsOwnWindow (D : Dispatcher) (windows : List Delivery) (a : Action) : Prop :=
  ∀ d, a = .deliver d → D.handles d = true →
    ∀ opener ∈ openerOf d windows, SameCall opener.toolUse d.toolUse

theorem meetsOwnWindow_stage {windows : List Delivery} {a : Action} {n : Nat}
    (h : a.execution = some n) : MeetsOwnWindow D windows a := by
  rintro d rfl
  cases h

theorem meetsOwnWindow_unopened {windows : List Delivery} {d : Delivery}
    (h : openerOf d windows = none) : MeetsOwnWindow D windows (.deliver d) := by
  intro d' hd _ opener hmem
  cases hd
  rw [h] at hmem
  cases hmem

theorem meetsOwnWindow_opened {windows : List Delivery} {d opener : Delivery}
    (hhandles : D.handles d = true) (h : openerOf d windows = some opener) :
    MeetsOwnWindow D windows (.deliver d) ↔ SameCall opener.toolUse d.toolUse := by
  constructor
  · exact fun hmeets => hmeets d rfl hhandles opener h
  · intro hsame d' hd _ opener' hmem
    cases hd
    rw [h] at hmem
    cases hmem
    exact hsame

/-- A step keeps all answers the events' own exactly when it meets that condition. -/
theorem ownAnswers_step_iff {windows : List Delivery} {a : Action} (heffect : Effect D s a t)
    (hs : WellFormed s) (hrefines : Refines s windows) :
    OwnAnswers t ↔ OwnAnswers s ∧ MeetsOwnWindow D windows a := by
  have hextends := heffect.extends hs
  have ht := heffect.wellFormed hs
  cases heffect with
  | ignored d hignored =>
      refine (and_iff_left ?_).symm
      intro d' hd hhandles
      cases hd
      rw [hignored] at hhandles
      cases hhandles
  | resubmitted d n e result hhandles hentry hresult =>
      obtain ⟨-, hget, -⟩ := entry_prune hentry
      have hopener := hrefines.openerOf_of_entry hs hentry
      rw [ownAnswers_append_iff hextends hs ht rfl (List.append_nil _).symm,
        meetsOwnWindow_opened hhandles hopener]
      simp only [List.mem_singleton, forall_eq, List.not_mem_nil, false_implies, implies_true,
        and_true]
      rw [ranFor_iff (s := { s.pruneScheduledToolUses d.now with submissions := _ }) hget]
  | duplicate d n e hhandles hentry hresult =>
      obtain ⟨-, hget, -⟩ := entry_prune hentry
      have hopener := hrefines.openerOf_of_entry hs hentry
      rw [ownAnswers_append_iff hextends hs ht (List.append_nil _).symm rfl,
        meetsOwnWindow_opened hhandles hopener]
      simp only [List.mem_singleton, forall_eq, List.not_mem_nil, false_implies, implies_true,
        true_and]
      rw [ranFor_iff (s := { s.pruneScheduledToolUses d.now with duplicates := _ }) hget]
  | scheduled d deadlineAt hhandles hdeadline hentry =>
      have hopener := hrefines.openerOf_of_no_entry hs hentry
      rw [ownAnswers_iff_of_unanswered hextends hs ht rfl rfl]
      exact (and_iff_left (meetsOwnWindow_unopened hopener)).symm
  | moved a n e phase ha hget hmoves =>
      rw [ownAnswers_iff_of_unanswered hextends hs ht rfl rfl]
      exact (and_iff_left (meetsOwnWindow_stage ha)).symm
  | started n attempt e now hget hphase hnow =>
      rw [ownAnswers_iff_of_unanswered hextends hs ht rfl rfl]
      exact (and_iff_left (meetsOwnWindow_stage rfl)).symm
  | recorded a n e outcome ha hget hopen =>
      rw [ownAnswers_iff_of_own hextends hs ht rfl ?_ rfl]
      · exact (and_iff_left (meetsOwnWindow_stage ha)).symm
      · -- the result goes to the event the execution was made for
        intro sub hmem
        cases List.mem_singleton.mp hmem
        exact (RanFor.iff_of_extends hextends hget).mpr ⟨e, hget, rfl, rfl⟩
  | ended i failed =>
      rw [ownAnswers_iff_of_unanswered hextends hs ht rfl rfl]
      exact (and_iff_left fun d hd => nomatch hd).symm

theorem ownAnswers_initial : OwnAnswers {} where
  submissions _ h := nomatch h
  duplicates _ h := nomatch h

theorem noReuse_step {ds : List Delivery} {a : Action} :
    NoReuse D (ds ++ deliveries [a]) ↔ NoReuse D ds ∧ MeetsOwnWindow D (openWindows D ds) a := by
  cases a with
  | deliver d =>
      rw [deliveries_deliver, noReuse_concat]
      refine and_congr_right fun _ => ⟨?_, fun h => h d rfl⟩
      rintro h d' hd
      cases hd
      exact h
  | acquire | reject | attempt | finish | settle | abort =>
      rw [deliveries_stage rfl, List.append_nil]
      exact (and_iff_left (meetsOwnWindow_stage rfl)).symm
  | endSubmission i failed =>
      have hnone : deliveries [.endSubmission i failed] = [] := rfl
      rw [hnone, List.append_nil]
      exact (and_iff_left fun d hd => nomatch hd).symm

/-- In a run, every event is answered by its own tool run on its own input, and
none is dropped for another call, exactly when no event arrives in a replay
window that a different call opened under its ids. -/
theorem ownAnswers_iff_noReuse (D : Dispatcher) {past : List Action} {s : State}
    (hrun : Run (step D) {} past s) : OwnAnswers s ↔ NoReuse D (deliveries past) := by
  induction hrun with
  | nil => exact ⟨fun _ => noReuse_nil, fun _ => ownAnswers_initial⟩
  | snoc hrun hstep ih =>
      rw [deliveries_concat, noReuse_step, ← ih]
      exact ownAnswers_step_iff (step_effect hstep) (wellFormed_of_run hrun wellFormed_initial)
        (refines_of_run hrun)

theorem ownAnswers_answered :
    ∃ s, Run (step singleTool) {} answered s ∧ OwnAnswers s := by
  have hrun : Run (step singleTool) {} answered _ := .of_foldlM rfl
  refine ⟨_, hrun, (ownAnswers_iff_noReuse singleTool hrun).mpr ?_⟩
  have hdeliveries : deliveries answered = [] ++ [callAt "call-1" [] 0] := rfl
  rw [hdeliveries, noReuse_concat]
  exact ⟨noReuse_nil, fun _ opener hmem => nomatch hmem⟩

/-- The provider reuses the id for a call with another input: it is answered with
the result of the first. -/
theorem reusedId_answered_with_other_result :
    ∃ s, Run (step singleTool) {}
        (answered ++ [.deliver (callAt "call-1" [("day".toList, .str "Friday".toList)] 2)]) s ∧
      ¬ OwnAnswers s := by
  refine ⟨_, .of_foldlM rfl, fun hown => ?_⟩
  obtain ⟨-, e, hget, -, hinput⟩ := hown.submissions
    ⟨callAt "call-1" [("day".toList, .str "Friday".toList)] 2, 0, "call-1".toList,
      .success (.str "done".toList)⟩ (List.mem_of_getElem? (i := 1) rfl)
  cases hget
  cases hinput

end DualeAI.Dispatch
