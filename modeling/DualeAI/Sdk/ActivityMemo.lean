import DualeAI.Sdk.ActivityCache
import DualeAI.Sdk.MemoBackends
import Mathlib.Logic.Relation

/-!
When `execute_activity` remembers a result.

Any number of calls run on one store, which others may change as well. The lookup
takes a null that was read back for a miss; every other result is found again until
its entry expires or goes.
-/
namespace DualeAI.Memo
open Foundation JsonText Cache Activity

section Calls
variable {F : Type} (format : FloatFormat F) (C : Type) [DecidableEq C] (Obj σ ε : Type)

/-- `attempts` are those that have failed so far. -/
inductive Phase where
  | started
  | executing (attempts : Nat)
  | executed (result : CacheableValue format C)
  | returned (result : Value F C)
  | failed

structure RunningCall where
  call : ActivityCall Obj
  cacheTtl : Option Timedelta
  maxRetries : Int
  phase : Phase format C

structure State where
  store : σ
  calls : List (RunningCall format C Obj)

/-- What one call does between two awaits; `attempt` runs the callable once, which
raises or gives a result. `other` is a change of the store from outside. -/
inductive Action where
  | call (call : ActivityCall Obj) (cacheTtl : Option Timedelta) (maxRetries : Int)
  | lookup (i : Nat) (now : Int)
  | attempt (i : Nat) (outcome : Option (Value F C))
  | store (i : Nat) (jitter : Rat) (now : Int)
  | fail (i : Nat)
  | other (store : σ)

end Calls

section Steps
variable {F C Obj σ ε : Type} [CodePoint C] [DecidableEq C] {format : FloatFormat F}
  (backend : Backend format C σ ε) (key : ActivityCall Obj → Text)

def Phase.over : Phase format C → Bool
  | .returned _ | .failed => true
  | _ => false

def setPhase (i : Nat) (phase : Phase format C) (s : State format C Obj σ) : State format C Obj σ :=
  { s with calls := s.calls.modify i fun running => { running with phase := phase } }

/-- `stop_after_attempt(max_retries + 1)`, once `attempts` have failed. -/
def stops (maxRetries : Int) (attempts : Nat) : Bool := maxRetries + 1 ≤ attempts

def step (s : State format C Obj σ) : Action C Obj σ (F := F) → Option (State format C Obj σ)
  | .call call cacheTtl maxRetries =>
      some { s with calls := s.calls ++ [⟨call, cacheTtl, maxRetries, .started⟩] }
  | .lookup i now =>
      match s.calls[i]? with
      | some ⟨call, _, _, .started⟩ =>
          match backend.get (key call) now s.store with
          | .error _ => some (setPhase i .failed s)
          | .ok (cachedResult, store) =>
              match cachedResult with
              | none | some .null => some (setPhase i (.executing 0) { s with store := store })
              | some result => some (setPhase i (.returned result) { s with store := store })
      | _ => none
  | .attempt i outcome =>
      match s.calls[i]? with
      | some ⟨_, _, maxRetries, .executing attempts⟩ =>
          match outcome.bind (validatePython format) with
          | some result => some (setPhase i (.executed result) s)
          | none =>
              if stops maxRetries (attempts + 1) then some (setPhase i .failed s)
              else some (setPhase i (.executing (attempts + 1)) s)
      | _ => none
  | .store i jitter now =>
      match s.calls[i]? with
      | some ⟨call, cacheTtl, _, .executed result⟩ =>
          match backend.set (key call) result.value cacheTtl jitter now s.store with
          | .error _ => some (setPhase i .failed s)
          | .ok store => some (setPhase i (.returned result.value) { s with store := store })
      | _ => none
  | .fail i =>
      match s.calls[i]? with
      | some running => if running.phase.over then none else some (setPhase i .failed s)
      | none => none
  | .other store => some { s with store := store }

/-- The step in which a call returns. -/
structure Returns (i : Nat) (call : ActivityCall Obj) (result : Value F C)
    (s : State format C Obj σ) (a : Action C Obj σ) (t : State format C Obj σ) : Prop where
  step : step backend key s a = some t
  before : ∃ running, s.calls[i]? = some running ∧ running.call = call ∧ running.phase.over = false
  after : ∃ running, t.calls[i]? = some running ∧ running.phase = .returned result

/-- The action is taken before the entry `e` expires, and neither replaces nor
removes it. -/
def Leaves (cacheKey : Text) (e : ε) (s : State format C Obj σ) (a : Action C Obj σ (F := F))
    (t : State format C Obj σ) : Prop :=
  match a with
  | .lookup _ now => backend.unexpired now e = true
  | .store i _ _ => (∀ running, s.calls[i]? = some running → key running.call ≠ cacheKey) ∧
      backend.entry cacheKey t.store ≠ none
  | .other store => backend.entry cacheKey store = some e
  | _ => True

def Quiet (cacheKey : Text) (e : ε) (s t : State format C Obj σ) : Prop :=
  ∃ a, step backend key s a = some t ∧ Leaves backend key cacheKey e s a t

variable {backend key}

/-! ## What a step does -/

theorem lookup_some {s t : State format C Obj σ} {i : Nat} {now : Int}
    (h : step backend key s (.lookup i now) = some t) :
    ∃ running, s.calls[i]? = some running ∧ (t = setPhase i .failed s ∨
      ∃ found store phase, backend.get (key running.call) now s.store = .ok (found, store) ∧
        t = setPhase i phase { s with store := store } ∧
        ∀ result, phase = .returned result → found = some result) := by
  simp only [step] at h
  split at h
  · next call _ _ hget =>
      refine ⟨_, hget, ?_⟩
      split at h
      · cases h
        exact .inl rfl
      · next found store hfound =>
          split at h
          · cases h
            exact .inr ⟨_, store, _, hfound, rfl, fun _ heq => by cases heq⟩
          · cases h
            exact .inr ⟨_, store, _, hfound, rfl, fun _ heq => by cases heq⟩
          · cases h
            exact .inr ⟨_, store, _, hfound, rfl, fun _ heq => by cases heq; rfl⟩
  · cases h

theorem attempt_some {s t : State format C Obj σ} {i : Nat} {outcome : Option (Value F C)}
    (h : step backend key s (.attempt i outcome) = some t) :
    ∃ phase, t = setPhase i phase s ∧ ∀ result, phase ≠ .returned result := by
  simp only [step] at h
  split at h
  · split at h
    · cases h
      exact ⟨_, rfl, fun _ heq => by cases heq⟩
    · split at h
      · cases h
        exact ⟨_, rfl, fun _ heq => by cases heq⟩
      · cases h
        exact ⟨_, rfl, fun _ heq => by cases heq⟩
  · cases h

theorem store_some {s t : State format C Obj σ} {i : Nat} {jitter : Rat} {now : Int}
    (h : step backend key s (.store i jitter now) = some t) :
    ∃ running result, s.calls[i]? = some running ∧ running.phase = .executed result ∧
      (t = setPhase i .failed s ∨
        ∃ store, backend.set (key running.call) result.value running.cacheTtl jitter now s.store =
            .ok store ∧ t = setPhase i (.returned result.value) { s with store := store }) := by
  simp only [step] at h
  split at h
  · next hget =>
      refine ⟨_, _, hget, rfl, ?_⟩
      split at h
      · cases h
        exact .inl rfl
      · next store hstore =>
          cases h
          exact .inr ⟨store, hstore, rfl⟩
  · cases h

theorem fail_some {s t : State format C Obj σ} {i : Nat}
    (h : step backend key s (.fail i) = some t) : t = setPhase i .failed s := by
  simp only [step] at h
  split at h
  · split at h
    · cases h
    · cases h
      rfl
  · cases h

/-! ## What stays in the store -/

/-- Step: the entry stays. -/
theorem Quiet.entry {cacheKey : Text} {e : ε} {s t : State format C Obj σ}
    (h : Quiet backend key cacheKey e s t) (hentry : backend.entry cacheKey s.store = some e) :
    backend.entry cacheKey t.store = some e := by
  obtain ⟨a, hstep, hleaves⟩ := h
  cases a with
  | call call cacheTtl maxRetries =>
      cases hstep
      exact hentry
  | lookup i now =>
      obtain ⟨running, -, rfl | ⟨found, store, phase, hfound, rfl, -⟩⟩ := lookup_some hstep
      · exact hentry
      · exact backend.get_keeps hfound hentry hleaves
  | attempt i outcome =>
      obtain ⟨phase, rfl, -⟩ := attempt_some hstep
      exact hentry
  | store i jitter now =>
      obtain ⟨hkey, hkept⟩ := hleaves
      obtain ⟨running, result, hget, -, rfl | ⟨store, hset, rfl⟩⟩ := store_some hstep
      · exact hentry
      · cases backend.set_keeps hset (hkey running hget).symm with
        | inl hsame => exact hsame.trans hentry
        | inr hevicted => exact absurd hevicted.2 hkept
  | fail i =>
      cases fail_some hstep
      exact hentry
  | other store =>
      cases hstep
      exact hleaves

/-- Run: the entry stays. -/
theorem entry_of_quiet {cacheKey : Text} {e : ε} {s t : State format C Obj σ}
    (h : Relation.ReflTransGen (Quiet backend key cacheKey e) s t)
    (hentry : backend.entry cacheKey s.store = some e) :
    backend.entry cacheKey t.store = some e := by
  induction h with
  | refl => exact hentry
  | tail _ hquiet ih => exact hquiet.entry ih

omit [CodePoint C] in
theorem getElem?_setPhase {s : State format C Obj σ} {i j : Nat} {phase : Phase format C}
    {running : RunningCall format C Obj} (hget : s.calls[i]? = some running)
    (hopen : running.phase.over = false) {result : Value F C}
    (h : ∃ running, (setPhase j phase s).calls[i]? = some running ∧
      running.phase = .returned result) : j = i ∧ phase = .returned result := by
  obtain ⟨after, hafter, hphase⟩ := h
  obtain ⟨before, hbefore, rfl⟩ := getElem?_modify_eq_some.mp hafter
  cases hget.symm.trans hbefore
  by_cases heq : j = i
  · rw [if_pos heq] at hphase
    exact ⟨heq, hphase⟩
  · rw [if_neg heq] at hphase
    rw [hphase] at hopen
    cases hopen

/-- What a call returned is read back from its entry, but for pairs of surrogates. -/
theorem Returns.loads {i : Nat} {call : ActivityCall Obj} {result : Value F C} {e : ε}
    {s t : State format C Obj σ} {a : Action C Obj σ (F := F)}
    (h : Returns backend key i call result s a t)
    (hentry : backend.entry (key call) t.store = some e) :
    validateCacheKey (key call) = .ok () ∧
      ∃ found, loads format (backend.text e) = some found ∧
        (found = result ↔ pairless result = true) ∧ (found = .null ↔ result = .null) := by
  obtain ⟨running, hget, rfl, hopen⟩ := h.before
  have hstep := h.step
  cases a with
  | call call cacheTtl maxRetries =>
      cases hstep
      obtain ⟨after, hafter, hphase⟩ := h.after
      rw [List.getElem?_append_left (List.getElem?_eq_some_iff.mp hget).1, hget] at hafter
      cases hafter
      rw [hphase] at hopen
      cases hopen
  | lookup j now =>
      obtain ⟨looking, hlooking, rfl | ⟨found, store, phase, hfound, rfl, hhit⟩⟩ :=
        lookup_some hstep
      · cases (getElem?_setPhase hget hopen h.after).2
      · obtain ⟨rfl, rfl⟩ := getElem?_setPhase (s := { s with store := store }) hget hopen h.after
        cases hget.symm.trans hlooking
        cases hhit result rfl
        obtain ⟨e', hentry', hlive, hloads⟩ := backend.entry_of_get hfound
        cases (backend.get_keeps hfound hentry' hlive).symm.trans hentry
        exact ⟨backend.valid_of_get hfound, result, hloads,
          iff_of_true rfl (pairless_of_loads hloads), Iff.rfl⟩
  | attempt j outcome =>
      obtain ⟨phase, rfl, hphase⟩ := attempt_some hstep
      exact absurd (getElem?_setPhase hget hopen h.after).2 (hphase result)
  | store j jitter now =>
      obtain ⟨storing, stored, hstoring, -, rfl | ⟨store, hset, rfl⟩⟩ := store_some hstep
      · cases (getElem?_setPhase hget hopen h.after).2
      · obtain ⟨rfl, hphase⟩ :=
          getElem?_setPhase (s := { s with store := store }) hget hopen h.after
        cases hget.symm.trans hstoring
        cases hphase
        refine ⟨backend.valid_of_set hset, ?_⟩
        cases backend.set_stores hset with
        | inl hstored =>
            obtain ⟨e', hentry', htext⟩ := hstored
            cases hentry'.symm.trans hentry
            have hvalid := wellFormed_of_isJsonValue _ stored.valid
            exact ⟨joined stored.value, by rw [htext, loads_dumps_joined hvalid],
              joined_eq_self_iff hvalid, joined_eq_null_iff⟩
        | inr hevicted => cases hevicted.2.symm.trans hentry
  | fail j =>
      cases fail_some hstep
      cases (getElem?_setPhase hget hopen h.after).2
  | other store =>
      cases hstep
      obtain ⟨after, hafter, hphase⟩ := h.after
      cases hget.symm.trans hafter
      rw [hphase] at hopen
      cases hopen

/-- A lookup that finds the entry of its call. -/
theorem lookup_of_entry {s : State format C Obj σ} {i : Nat} {running : RunningCall format C Obj}
    {now : Int} {e : ε} {result : Value F C} (hget : s.calls[i]? = some running)
    (hphase : running.phase = .started) (hkey : validateCacheKey (key running.call) = .ok ())
    (hentry : backend.entry (key running.call) s.store = some e)
    (hlive : backend.unexpired now e = true)
    (hloads : JsonText.loads format (backend.text e) = some result) :
    (result ≠ .null → step backend key s (.lookup i now) =
      some (setPhase i (.returned result) s)) ∧
    (result = .null → step backend key s (.lookup i now) = some (setPhase i (.executing 0) s)) := by
  obtain ⟨call, cacheTtl, maxRetries, phase⟩ := running
  cases hphase
  have hfound := backend.get_of_entry hkey hentry hlive hloads
  constructor
  · intro hnull
    simp only [step, hget, hfound]
  · rintro rfl
    simp only [step, hget, hfound]

omit [CodePoint C] in
theorem setPhase_injective {s : State format C Obj σ} {i : Nat} {running : RunningCall format C Obj}
    {phase phase' : Phase format C} (hget : s.calls[i]? = some running)
    (h : setPhase i phase s = setPhase i phase' s) : phase = phase' := by
  have hcalls := congrArg (fun s => (State.calls s)[i]?.map RunningCall.phase) h
  simpa [setPhase, hget] using hcalls

end Steps

/-! ## Memoisation -/

/-- Once a call has returned, an identical one that is looked up while the entry
stands returns the same without running the callable, just where the result is not
null and no string in it holds a pair of surrogates. -/
theorem memoised_iff {F C Obj σ ε : Type} [CodePoint C] [DecidableEq C] {format : FloatFormat F}
    (backend : Backend format C σ ε) (repr : Obj → Text) (reprStr digest : Text → Text)
    {s t u : State format C Obj σ} {a : Action C Obj σ} {call : ActivityCall Obj}
    {result : Value F C} {e : ε} {i j : Nat}
    (hreturns : Returns backend (cacheKey repr reprStr digest) i call result s a t)
    (hentry : backend.entry (cacheKey repr reprStr digest call) t.store = some e)
    (hquiet : Relation.ReflTransGen (Quiet backend (cacheKey repr reprStr digest)
      (cacheKey repr reprStr digest call) e) t u)
    {cacheTtl : Option Timedelta} {maxRetries now : Int}
    (hcall : u.calls[j]? = some ⟨call, cacheTtl, maxRetries, .started⟩)
    (hlive : backend.unexpired now e = true) :
    step backend (cacheKey repr reprStr digest) u (.lookup j now) =
        some (setPhase j (.returned result) u) ↔
      result ≠ .null ∧ pairless result = true := by
  obtain ⟨hkey, found, hloads, hsame, hnull⟩ := hreturns.loads hentry
  have hstands := entry_of_quiet hquiet hentry
  obtain ⟨hhit, hmiss⟩ := lookup_of_entry hcall rfl hkey hstands hlive hloads
  by_cases hfound : found = .null
  · refine iff_of_false (fun hstep => ?_) fun h => h.1 (hnull.mp hfound)
    have hphase := setPhase_injective hcall (Option.some.inj (hstep.symm.trans (hmiss hfound)))
    cases hphase
  · rw [hhit hfound, ← hsame]
    constructor
    · intro h
      have hphase := setPhase_injective hcall (Option.some.inj h)
      injection hphase with heq
      exact ⟨fun hresult => hfound (hnull.mpr hresult), heq⟩
    · intro h
      rw [h.2]

def lookUp : ActivityCall Text := ⟨⟨0, some "f".toList, "function".toList⟩, [], []⟩

/-- The store after a call of `lookUp` that returned false. -/
def falseStored : Table :=
  Function.update (fun _ => none) (getTenantKey ['t'] (cacheKey id id id lookUp))
    (some ⟨"false".toList, none, (0 : Int) / 1000000, ['t']⟩)

/-- What the strings of Python are made of. -/
abbrev PyChar := Fin 0x110000

/-- An activity that returned false, called again. -/
theorem memoised_false :
    step (sqlite zeroFormat ⟨['t'], default⟩) (cacheKey id id id)
        (⟨falseStored, [⟨lookUp, none, 3, .returned (.bool false)⟩, ⟨lookUp, none, 3, .started⟩]⟩ :
          State zeroFormat PyChar Text Table)
        (.lookup 1 60000000) =
      some (setPhase 1 (.returned (.bool false))
        ⟨falseStored, [⟨lookUp, none, 3, .returned (.bool false)⟩,
          ⟨lookUp, none, 3, .started⟩]⟩) := by
  let s : State zeroFormat PyChar Text Table :=
    ⟨fun _ => none, [⟨lookUp, none, 3, .executed ⟨.bool false, rfl⟩⟩]⟩
  let t : State zeroFormat PyChar Text Table :=
    ⟨falseStored, [⟨lookUp, none, 3, .returned (.bool false)⟩]⟩
  have hreturns : Returns (sqlite zeroFormat ⟨['t'], default⟩) (cacheKey id id id) 0 lookUp
      (.bool false) s (.store 0 1 0) t :=
    ⟨rfl, ⟨_, rfl, rfl, rfl⟩, ⟨_, rfl, rfl⟩⟩
  have hentry : falseStored (getTenantKey ['t'] (cacheKey id id id lookUp)) =
      some ⟨"false".toList, none, (0 : Int) / 1000000, ['t']⟩ := Function.update_self _ _ _
  refine (memoised_iff (sqlite zeroFormat ⟨['t'], default⟩) id id id hreturns
    hentry (.single ⟨.call lookUp none 3, rfl, trivial⟩) rfl rfl).mpr ⟨?_, rfl⟩
  intro h
  cases h

/-- A surrogate pair as two code points, and the character it encodes. -/
def pair : Value Unit PyChar := .str [⟨0xd83d, by decide⟩, ⟨0xde00, by decide⟩]

def pairRead : Value Unit PyChar := .str [⟨0x1f600, by decide⟩]

/-- An activity that returned null, called again, runs a second time; and one that returned
a pair of surrogates then returns one character. -/
theorem null_not_memoised :
    (∃ s : State zeroFormat PyChar Text Table,
      Run (step (sqlite zeroFormat ⟨['t'], default⟩) (cacheKey id id id))
        ⟨fun _ => none, []⟩
        [.call lookUp none 3, .lookup 0 0, .attempt 0 (some .null), .store 0 1 0,
          .call lookUp none 3, .lookup 1 0, .attempt 1 (some .null)] s ∧
      s.calls = [⟨lookUp, none, 3, .returned .null⟩, ⟨lookUp, none, 3, .executed ⟨.null, rfl⟩⟩]) ∧
    ∃ s : State zeroFormat PyChar Text Table,
      Run (step (sqlite zeroFormat ⟨['t'], default⟩) (cacheKey id id id))
        ⟨fun _ => none, []⟩
        [.call lookUp none 3, .lookup 0 0, .attempt 0 (some pair), .store 0 1 0,
          .call lookUp none 3, .lookup 1 0] s ∧
      s.calls = [⟨lookUp, none, 3, .returned pair⟩, ⟨lookUp, none, 3, .returned pairRead⟩] :=
  ⟨⟨_, .of_foldlM rfl, rfl⟩, ⟨_, .of_foldlM rfl, rfl⟩⟩

end DualeAI.Memo
