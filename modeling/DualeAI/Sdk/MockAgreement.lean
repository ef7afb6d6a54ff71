import DualeAI.Foundation.Steps
import DualeAI.Sdk.MockReplay
import Mathlib.Data.List.Dedup

/-!
What the mock backend promises of the real one, and where they part.
-/
namespace DualeAI.MockCache
open Foundation JsonText Cache Memo

/-! ## Whole runs -/

section Runs
variable {F C : Type} [CodePoint C] [DecidableEq C] {format : FloatFormat F} {t : Tenant} {s : State format C}

/-- What holds of both backends from the reading `last` on. -/
structure Agrees (t : Tenant) (s : State format C) (last : Int) : Prop where
  nodup : (s.data.map Prod.fst).Nodup
  sqlite : ∀ key now, validateCacheKey key = .ok () → last ≤ now →
    sqliteView t s.table key now = readText s.memory key now
  mock : ∀ key now, validateCacheKey key = .ok () → last ≤ now →
    (∀ kept, s.memory key = some kept → IsDatetime (mockExpiry kept)) → MockShows t s key now

theorem agrees_start {table : Table} (h : ∀ key, table (getTenantKey t.tenantId key) = none)
    (last : Int) : Agrees t (start table : State format C) last where
  nodup := List.nodup_nil
  sqlite key now _ _ := by
    change Option.map _ (Option.filter _ (table _)) = none
    rw [h]
    rfl
  mock _ _ _ _ _ := .inl rfl

theorem Agrees.step {last : Int} (h : Agrees t s last) (call : Call format C)
    (hle : last ≤ call.now) : Agrees t (MockCache.step t s call) call.now where
  nodup := nodup_keeps call h.nodup
  sqlite key now hkey hnow := sqlite_keeps call hkey hnow (h.sqlite key now hkey (hle.trans hnow))
  mock key now hkey hnow hdate :=
    mock_keeps call h.nodup hkey hnow hdate (h.mock key now hkey (hle.trans hnow))

theorem Agrees.answered {last : Int} (h : Agrees t s last) {call : Call format C}
    (hle : last ≤ call.now) (hcomparable : Comparable s.memory call) : Answered t s call := by
  intro key hop
  refine ⟨sqliteAnswer_of_view fun hkey => h.sqlite key call.now hkey hle, ?_⟩
  cases hkey : validateCacheKey key with
  | error e => exact .inl (mockAnswer_of_invalid hkey)
  | ok _ =>
      have hreach := hcomparable key hop
      cases h.mock key call.now hkey hle fun kept hkept => (hreach kept hkept).1 with
      | inl hshows =>
          refine .inl ?_
          rw [mockText_of_withinReach hreach] at hshows
          rw [mockAnswer_of_view hkey hshows, memoryAnswer, hkey]
          rfl
      | inr hgone => exact .inr ⟨mockAnswer_of_none hkey hgone.2, hgone.1⟩

theorem answered_run {calls : List (Call format C)} {last : Int} (h : Agrees t s last)
    (hclock : (last :: calls.map Call.now).Pairwise (· ≤ ·))
    (hcomparable : AllSteps remember Comparable s.memory calls) :
    AllSteps (MockCache.step t) (Answered t) s calls := by
  induction calls generalizing s last with
  | nil => trivial
  | cons call calls ih =>
      obtain ⟨hfirst, hrest⟩ := List.pairwise_cons.mp hclock
      have hle : last ≤ call.now := hfirst _ List.mem_cons_self
      exact ⟨h.answered hle hcomparable.1, ih (h.step call hle) hrest hcomparable.2⟩

theorem memory_run (calls : List (Call format C)) (s : State format C) :
    (calls.foldl (MockCache.step t) s).memory =
      (calls.map Call.action).foldl ExpiringMemory.act s.memory := by
  induction calls generalizing s with
  | nil => rfl
  | cons call calls ih => exact ih _

/-! ## Without evictions -/

def Call.setKey (call : Call format C) : Option Text :=
  match call.op with
  | .set key _ _ => some key
  | _ => none

/-- Both backends give the same answer to a `get`. -/
def Same (t : Tenant) (s : State format C) (call : Call format C) : Prop :=
  ∀ key, call.op = .get key → mockAnswer t s key call.now = sqliteAnswer t s key call.now

/-- The mock holds no other keys than these, and has evicted none. -/
structure Roomy (t : Tenant) (keys : List Text) (s : State format C) : Prop where
  nodup : (s.data.map Prod.fst).Nodup
  within : ∀ entry ∈ s.data, entry.1 ∈ keys.map (Mock.getTenantKey t.tenantId)
  kept : ∀ key, s.evicted key = false

theorem mem_step {call : Call format C} {entry : Text × Mock.Entry}
    (h : entry ∈ (MockCache.step t s call).data) :
    entry ∈ s.data ∨
      ∃ key, call.setKey = some key ∧ entry.1 = Mock.getTenantKey t.tenantId key := by
  change entry ∈ applyMock t call s.data at h
  cases applyMock_cases t call s.data with
  | inl hdropped => exact .inl (hdropped.subset h)
  | inr hput =>
      obtain ⟨key, value, ttl, new, hop, hdata⟩ := hput
      rw [hdata] at h
      cases Dict.mem_put (Mock.evict_subset _ _ h) with
      | inl hnew => exact .inr ⟨key, by rw [Call.setKey, hop], hnew.1⟩
      | inr hold => exact .inl hold.2

omit [CodePoint C] in
theorem Roomy.not_crowded {keys : List Text} (h : Roomy t keys s)
    (hroom : keys.length ≤ t.config.maxEntries) {key : Text} (hkey : key ∈ keys) :
    crowded t (Mock.getTenantKey t.tenantId key) s.data = false := by
  let data := Dict.put (Mock.getTenantKey t.tenantId key) ⟨[], 0⟩ s.data
  have hsubset : data.map Prod.fst ⊆ keys.map (Mock.getTenantKey t.tenantId) := by
    intro k hk
    obtain ⟨⟨k', entry⟩, hmem, rfl⟩ := List.mem_map.mp hk
    cases Dict.mem_put hmem with
    | inl hnew =>
        rw [hnew.1]
        exact List.mem_map_of_mem hkey
    | inr hold => exact h.within _ hold.2
  have hlength : data.length ≤ keys.length := by
    have hle := (List.subperm_of_subset (Dict.nodup_put h.nodup) hsubset).length_le
    rwa [List.length_map, List.length_map] at hle
  rw [Dict.length_put] at hlength
  exact decide_eq_false (Nat.not_lt.mpr (hlength.trans hroom))

theorem Roomy.step {keys : List Text} (h : Roomy t keys s)
    (hroom : keys.length ≤ t.config.maxEntries) {call : Call format C}
    (hcall : ∀ key, call.setKey = some key → key ∈ keys) :
    Roomy t keys (MockCache.step t s call) where
  nodup := nodup_keeps call h.nodup
  within := by
    intro entry hmem
    cases mem_step hmem with
    | inl hold => exact h.within entry hold
    | inr hnew =>
        obtain ⟨key, hkey, heq⟩ := hnew
        rw [heq]
        exact List.mem_map_of_mem (hcall key hkey)
  kept := by
    intro key
    obtain ⟨op, at'⟩ := call
    cases op with
    | set k value ttl =>
        change evictions t ⟨.set k value ttl, at'⟩ s key = false
        cases hset : Mock.set (dumps format) t.mock k value.value ttl 1 at' s.data with
        | error e =>
            simp only [evictions, hset]
            exact h.kept key
        | ok data =>
            rw [evictions_eq hset, h.not_crowded hroom (hcall k rfl), Bool.false_and, h.kept key]
            exact ite_self false
    | get k => exact h.kept key
    | delete k => exact h.kept key
    | clear => exact h.kept key
    | cleanupExpired => exact h.kept key

theorem Roomy.same {keys : List Text} {calls : List (Call format C)} (h : Roomy t keys s)
    (hroom : keys.length ≤ t.config.maxEntries)
    (hcalls : ∀ call ∈ calls, ∀ key, call.setKey = some key → key ∈ keys)
    (hanswered : AllSteps (MockCache.step t) (Answered t) s calls) :
    AllSteps (MockCache.step t) (Same t) s calls := by
  induction calls generalizing s with
  | nil => trivial
  | cons call calls ih =>
      refine ⟨fun key hop => ?_, ih (h.step hroom (hcalls call List.mem_cons_self))
        (fun call hmem => hcalls call (List.mem_cons_of_mem _ hmem)) hanswered.2⟩
      obtain ⟨hsqlite, hmock⟩ := hanswered.1 key hop
      cases hmock with
      | inl hmock => exact hmock.trans hsqlite.symm
      | inr hgone => cases (h.kept key).symm.trans hgone.2

end Runs

/-! ## The mock for SQLite -/

section Standing
variable {F C : Type} [CodePoint C] [DecidableEq C] {format : FloatFormat F}

theorem answered_of_fresh {t : Tenant} {table : Table}
    (hfresh : ∀ key, table (getTenantKey t.tenantId key) = none) {calls : List (Call format C)}
    (hclock : (calls.map Call.now).Pairwise (· ≤ ·))
    (hcomparable : AllSteps remember Comparable ExpiringMemory.empty calls) :
    AllSteps (step t) (Answered t) (start table) calls := by
  cases calls with
  | nil => trivial
  | cons call calls =>
      refine answered_run (agrees_start hfresh call.now) ?_ hcomparable
      rw [List.map_cons] at hclock ⊢
      refine List.pairwise_cons.mpr ⟨fun now hmem => ?_, hclock⟩
      cases List.mem_cons.mp hmem with
      | inl heq => exact heq.ge
      | inr hmem => exact (List.pairwise_cons.mp hclock).1 now hmem

/-- What the memory holds of a value until it expires, is replaced or is removed. -/
theorem read_of_set {t : Tenant} {before between : List (Call format C)} {key : Text}
    {value : CacheableValue format C} {ttl : Option Timedelta} {now now' : Int}
    (hbetween : ∀ call ∈ between, ¬ call.action.Touches key)
    (hlive : ∀ lifetime, ttl.filter (· ≠ 0) = some lifetime → now' < now + lifetime)
    (s : State format C) :
    ((before ++ ⟨.set key value ttl, now⟩ :: between).foldl (step t) s).memory.read now' key =
      some value := by
  let kept : Kept (CacheableValue format C) := ⟨value, now, ttl.filter (· ≠ 0)⟩
  have hkept : kept.isLive now' = true := by
    rw [Kept.isLive, Kept.expiresAt]
    cases hlifetime : ttl.filter (· ≠ 0) with
    | none => rw [show kept.lifetime = none from hlifetime]; rfl
    | some lifetime =>
        rw [show kept.lifetime = some lifetime from hlifetime]
        exact decide_eq_true (hlive lifetime hlifetime)
  have hactions : ∀ action ∈ between.map Call.action, ¬ action.Touches key := by
    intro action hmem
    obtain ⟨call, hcall, rfl⟩ := List.mem_map.mp hmem
    exact hbetween call hcall
  rw [List.foldl_append, List.foldl_cons, memory_run]
  exact ExpiringMemory.read_of_stored hactions hkept _

/-- From a database without entries of the tenant, at readings of a clock that does not
go back: SQLite answers from the memory, and so does the mock but for the keys it has
evicted. What is stored is found, as its text is read, until it expires, is replaced or is
removed. With at most `max_entries` keys the answers are the same. -/
theorem mock_stands_for_sqlite (t : Tenant) {table : Table}
    (hfresh : ∀ key, table (getTenantKey t.tenantId key) = none) {calls : List (Call format C)}
    (hclock : (calls.map Call.now).Pairwise (· ≤ ·))
    (hcomparable : AllSteps remember Comparable ExpiringMemory.empty calls) :
    AllSteps (step t) (Answered t) (start table) calls ∧
    (∀ {before between after key value ttl now now'},
      calls = before ++ ⟨.set key value ttl, now⟩ :: (between ++ ⟨.get key, now'⟩ :: after) →
      validateCacheKey key = .ok () → (∀ call ∈ between, ¬ call.action.Touches key) →
      (∀ lifetime, ttl.filter (· ≠ 0) = some lifetime → now' < now + lifetime) →
      let s := (before ++ ⟨.set key value ttl, now⟩ :: between).foldl (step t) (start table)
      sqliteAnswer t s key now' = .ok (some (readBack value)) ∧
        (mockAnswer t s key now' = .ok (some (readBack value)) ∨
          mockAnswer t s key now' = .ok none ∧ s.evicted key = true)) ∧
    ((calls.filterMap Call.setKey).dedup.length ≤ t.config.maxEntries →
      AllSteps (step t) (Same t) (start table) calls) := by
  have hanswered := answered_of_fresh hfresh hclock hcomparable
  refine ⟨hanswered, ?_, ?_⟩
  · intro before between after key value ttl now now' hcalls hkey hbetween hlive s
    have hget : Answered t s ⟨.get key, now'⟩ := by
      rw [hcalls, ← List.cons_append, ← List.append_assoc] at hanswered
      exact (AllSteps.append.mp hanswered).2.1
    have hmemory : memoryAnswer s key now' = .ok (some (readBack value)) := by
      rw [memoryAnswer, hkey, read_of_set hbetween hlive]
      rfl
    rw [← hmemory]
    exact hget key rfl
  · intro hroom
    have hroomy : Roomy t (calls.filterMap Call.setKey).dedup (start table : State format C) :=
      ⟨List.nodup_nil, fun _ hmem => absurd hmem List.not_mem_nil, fun _ => rfl⟩
    refine hroomy.same hroom (fun call hmem key hkey => ?_) hanswered
    exact List.mem_dedup.mpr (List.mem_filterMap.mpr ⟨call, hmem, hkey⟩)

end Standing

/-! ## Where they part -/

def fixedConfig : CacheConfig := { (default : CacheConfig) with ttlJitterEnabled := false }

theorem short_t : (encodeUtf8 (clearPattern ['t'])).length ≤ maxLikePatternLength := by decide

def smallTenant : Tenant := ⟨['t'], fixedConfig, rfl, short_t⟩

def yes : CacheableValue zeroFormat := ⟨.bool true, rfl⟩

def setAt (now : Int) (key : Text) (ttl : Option Timedelta) : Call zeroFormat :=
  ⟨.set key yes ttl, now⟩

def getAt (now : Int) : Call zeroFormat := ⟨.get ['k'], now⟩

/-- A value of two seconds, read before and after its end. -/
theorem mock_stands_for_two_seconds :
    AllSteps (step smallTenant) (Same smallTenant) (start fun _ => none)
      [setAt 0 ['k'] (some 2000000), getAt 1000000, ⟨.cleanupExpired, 2000000⟩, getAt 3000000] := by
  refine (mock_stands_for_sqlite smallTenant (fun _ => rfl) (by decide) ?_).2.2 (by decide)
  refine ⟨nofun, fun key hop kept hkept => ?_, nofun, fun key hop kept hkept => ?_, trivial⟩
  · cases hop
    cases hkept
    exact ⟨⟨by decide, by decide⟩, by decide⟩
  · cases hop
    cases hkept
    exact ⟨⟨by decide, by decide⟩, by decide⟩

/-- Whether a `get` found a value. -/
def hit (answer : Except CacheError (Option (Value Unit))) : Bool :=
  match answer with
  | .ok (some _) => true
  | _ => false

def crowdKey (i : Nat) : Text := [Char.ofNat (65536 + i)]

/-- Keys for good. -/
def crowd (n : Nat) : List (Call zeroFormat) :=
  (List.range n).map fun i => setAt 0 (crowdKey i) none

theorem toNat_crowdChar {i : Nat} (h : i < 100000) :
    (Char.ofNat (65536 + i)).toNat = 65536 + i := by
  have hvalid : (65536 + i).isValidChar := .inr ⟨by omega, by omega⟩
  rw [Char.ofNat, dif_pos hvalid]
  rfl

theorem crowdKey_valid {i : Nat} (h : i < 100000) : validateCacheKey (crowdKey i) = .ok () := by
  have hne {c : Char} (hc : c.toNat < 65536) : c ≠ Char.ofNat (65536 + i) := by
    intro heq
    rw [heq, toNat_crowdChar h] at hc
    omega
  refine validateCacheKey_ok.mpr ⟨nofun, Nat.le_add_left 1 249, ⟨?_, ?_, ?_⟩, ?_, ?_, ?_⟩
  · exact fun hmem => hne (by decide) (List.mem_singleton.mp hmem)
  · exact fun hmem => hne (by decide) (List.mem_singleton.mp hmem)
  · exact fun hmem => hne (by decide) (List.mem_singleton.mp hmem)
  · simp [hasParentReference, crowdKey]
  · exact fun hhead => hne (by decide) (Option.some.inj hhead).symm
  · exact fun hhead => hne (by decide) (Option.some.inj hhead).symm

theorem crowdKey_ne {i j : Nat} (hi : i < 100000) (hj : j < 100000) (hne : i ≠ j) :
    crowdKey i ≠ crowdKey j := by
  intro heq
  have hchar := congrArg Char.toNat (List.head_eq_of_cons_eq heq)
  rw [toNat_crowdChar hi, toNat_crowdChar hj] at hchar
  omega

def crowdEntry (i : Nat) : Text × Mock.Entry :=
  (Mock.getTenantKey ['t'] (crowdKey i), ⟨text yes, 0 + Mock.noTtl⟩)

/-- The mock takes them all. -/
theorem crowd_data {n : Nat} (h : n ≤ 100000) :
    ((crowd n).foldl (step smallTenant) (start fun _ => none)).data =
      (List.range n).map crowdEntry := by
  induction n with
  | zero => rfl
  | succ n ih =>
      have hset : Mock.set (dumps zeroFormat) smallTenant.mock (crowdKey n) yes.value none 1 0
          ((List.range n).map crowdEntry) = _ :=
        Mock.set_eq (crowdKey_valid (by omega)) (jitteredTtl_of_off rfl 1 none)
          (by decide) (by decide)
      have hfresh : (crowdEntry n).1 ∉ ((List.range n).map crowdEntry).map Prod.fst := by
        intro hmem
        obtain ⟨entry, hentry, hkey⟩ := List.mem_map.mp hmem
        obtain ⟨i, hi, rfl⟩ := List.mem_map.mp hentry
        have hlt := List.mem_range.mp hi
        exact crowdKey_ne (by omega) (by omega) (by omega : i ≠ n) (List.append_cancel_left hkey)
      rw [crowd, List.range_succ, List.map_append, List.foldl_append, List.map_append]
      rw [← ih (by omega)] at hset
      refine (step_set_data hset).trans ?_
      rw [ih (by omega)]
      rw [show Dict.put (Mock.getTenantKey smallTenant.mock.tenantId (crowdKey n)) _ _ = _ from
        Dict.put_of_notMem hfresh]
      rw [Mock.evict, if_neg]
      · rfl
      · rw [List.length_append, List.length_map, List.length_range, List.length_singleton]
        exact Nat.not_lt.mpr h

/-- Both after a set that finds the mock full of what expires later. -/
theorem crowded_answers {s : State zeroFormat} {n : Nat} (hn : n = 100000)
    (hdata : s.data = (List.range n).map crowdEntry) :
    sqliteAnswer smallTenant (step smallTenant s ⟨.set ['k'] yes (some second), 0⟩) ['k'] 0 =
        .ok (some yes.value) ∧
      mockAnswer smallTenant (step smallTenant s ⟨.set ['k'] yes (some second), 0⟩) ['k'] 0 =
        .ok none := by
  have hkey : validateCacheKey ['k'] = .ok () := rfl
  constructor
  · refine sqliteAnswer_set.trans ?_
    rw [memoryAnswer, ExpiringMemory.read]
    change Except.ok (Option.map _ (Option.map _ (Option.filter _
      (Function.update s.memory ['k'] _ ['k'])))) = _
    rw [Function.update_self]
    rfl
  · have hset : Mock.set (dumps zeroFormat) smallTenant.mock ['k'] yes.value (some second) 1 0
        s.data = _ :=
      Mock.set_eq hkey (jitteredTtl_of_off rfl 1 (some second)) (by decide) (by decide)
    have hfresh : Mock.getTenantKey ['t'] ['k'] ∉ s.data.map Prod.fst := by
      intro hmem
      rw [hdata] at hmem
      obtain ⟨entry, hentry, heq⟩ := List.mem_map.mp hmem
      obtain ⟨i, hi, rfl⟩ := List.mem_map.mp hentry
      have hchar := congrArg Char.toNat (List.head_eq_of_cons_eq (List.append_cancel_left heq))
      rw [toNat_crowdChar (hn ▸ List.mem_range.mp hi)] at hchar
      exact absurd hchar (by simp; omega)
    refine mockAnswer_of_none hkey ?_
    rw [step_set_data hset]
    rw [show Dict.put (Mock.getTenantKey smallTenant.mock.tenantId ['k']) _ _ = _ from
      Dict.put_of_notMem hfresh]
    have hlength : s.data.length = 100000 := by
      rw [hdata, List.length_map, List.length_range, hn]
    refine Mock.lookup_evict_earliest ?_ ?_ (List.mem_append_right _ List.mem_cons_self) ?_
    · rw [List.length_append, hlength]
      exact Nat.lt_succ_self 100000
    · rw [List.length_append, hlength]
      exact Nat.le_add_right 10 99991
    · intro other hmem hne
      cases List.mem_append.mp hmem with
      | inl hold =>
          rw [hdata] at hold
          obtain ⟨i, -, rfl⟩ := List.mem_map.mp hold
          exact (by decide : (0 : Int) + second < 0 + Mock.noTtl)
      | inr hnew => exact absurd (congrArg Prod.fst (List.mem_singleton.mp hnew)) hne

theorem crowd_differs {n : Nat} (hn : n = 100000) :
    ¬ AllSteps (step smallTenant) (Same smallTenant) (start fun _ => none)
      (crowd n ++ [setAt 0 ['k'] (some second), getAt 0]) := by
  intro h
  have hsame := (AllSteps.append.mp h).2.2.1 ['k'] rfl
  obtain ⟨hsqlite, hmock⟩ := crowded_answers hn (crowd_data hn.le)
  cases hmock.symm.trans (hsame.trans hsqlite)

/-- The mock parts from SQLite where a set makes it evict, at the very instant a lifetime
ends, after a hundred years without one, where the clock goes back to before an end it
has seen, and for a lifetime that ends in no year. -/
theorem mock_differs :
    ¬ AllSteps (step smallTenant) (Same smallTenant) (start fun _ => none)
      (crowd fixedConfig.maxEntries ++ [setAt 0 ['k'] (some second), getAt 0]) ∧
    ¬ AllSteps (step smallTenant) (Same smallTenant) (start fun _ => none)
      [setAt 0 ['k'] (some 2000000), getAt 2000000] ∧
    ¬ AllSteps (step smallTenant) (Same smallTenant) (start fun _ => none)
      [setAt 0 ['k'] none, getAt (36501 * 86400 * 1000000)] ∧
    ¬ AllSteps (step smallTenant) (Same smallTenant) (start fun _ => none)
      [setAt 0 ['k'] (some 2000000), getAt 3000000, getAt 1000000] ∧
    ¬ AllSteps (step smallTenant) (Same smallTenant) (start fun _ => none)
      [setAt 0 ['k'] (some maxTimedelta), getAt 0] := by
  refine ⟨crowd_differs rfl, fun h => ?_, fun h => ?_, fun h => ?_, fun h => ?_⟩
  · have hsame := congrArg hit (h.2.1 ['k'] rfl)
    revert hsame
    decide +kernel
  · have hsame := congrArg hit (h.2.1 ['k'] rfl)
    revert hsame
    decide +kernel
  · have hsame := congrArg hit (h.2.2.1 ['k'] rfl)
    revert hsame
    decide +kernel
  · have hsame := congrArg hit (h.2.1 ['k'] rfl)
    revert hsame
    decide +kernel

end DualeAI.MockCache
