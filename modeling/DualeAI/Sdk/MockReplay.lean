import DualeAI.Foundation.Expiring
import DualeAI.Sdk.MemoBackends

/-!
`MockCacheBackend` in the place of `SQLiteCacheBackend`.

Both take the same calls of one tenant, at the same readings of the clock, which are
in microseconds. A call that raises leaves its backend as it was. Beside them runs
an expiring memory of the keys; `evicted` are the keys that the mock has dropped to
stay within `max_entries`. A key is text, the strings of a value are of any code points.
-/
namespace DualeAI.MockCache
open Foundation JsonText Cache Memo

section Calls
variable {F : Type} (format : FloatFormat F) (C : Type := Char) [DecidableEq C]

inductive Op where
  | set (key : Text) (value : CacheableValue format C) (ttl : Option Timedelta)
  | get (key : Text)
  | delete (key : Text)
  | clear
  | cleanupExpired

structure Call where
  op : Op format C
  now : Int

abbrev Memory := ExpiringMemory Text (CacheableValue format C)

structure State where
  table : Table
  data : Mock.Data
  memory : Memory format C
  evicted : Text → Bool

end Calls

/-- A tenant whose cache has jitter off. A `tenant_id` is a UUID, which is far shorter
than the bound. -/
structure Tenant where
  tenantId : Text
  config : CacheConfig
  jitterOff : config.ttlJitterEnabled = false
  short : (encodeUtf8 (clearPattern tenantId)).length ≤ maxLikePatternLength

def Tenant.sqlite (t : Tenant) : SQLiteCacheBackend := ⟨t.tenantId, t.config⟩

def Tenant.mock (t : Tenant) : Mock.MockCacheBackend := ⟨t.tenantId, t.config⟩

/-- The store after a call, which may have raised. -/
def stored {σ : Type} (result : Except CacheError σ) (store : σ) : σ :=
  match result with
  | .ok store => store
  | .error _ => store

section Steps
variable {F C : Type} [CodePoint C] [DecidableEq C] {format : FloatFormat F}

def Call.action (call : Call format C) : MemoryAction Text (CacheableValue format C) :=
  match call.op with
  | .set key value ttl => .store key ⟨value, call.now, ttl.filter (· ≠ 0)⟩
  | .delete key => .remove key
  | .clear => .removeAll
  | .get _ | .cleanupExpired => .look

variable (t : Tenant)

def applySqlite (call : Call format C) (table : Table) : Table :=
  match call.op with
  | .set key value ttl =>
      stored (set (dumps format) t.sqlite key value.value ttl 1 (call.now / 1000000) table) table
  | .get _ => table
  | .delete key => stored (delete t.sqlite key table) table
  | .clear => clear t.sqlite table
  | .cleanupExpired => cleanupExpired (call.now / 1000000) table

def applyMock (call : Call format C) (data : Mock.Data) : Mock.Data :=
  match call.op with
  | .set key value ttl =>
      stored (Mock.set (dumps format) t.mock key value.value ttl 1 call.now data) data
  | .get key =>
      stored ((Mock.get (loads (C := C) format) t.mock key call.now data).map Prod.snd) data
  | .delete key => stored (Mock.delete t.mock key data) data
  | .clear => Mock.clear t.mock data
  | .cleanupExpired => (Mock.cleanupExpired call.now data).2

/-- Whether `set` finds more than `max_entries` entries, its own among them. -/
def crowded (tenantKey : Text) (data : Mock.Data) : Bool :=
  t.config.maxEntries < if (data.lookup tenantKey).isSome then data.length else data.length + 1

def evictions (call : Call format C) (s : State format C) : Text → Bool :=
  match call.op with
  | .set key value ttl =>
      match Mock.set (dumps format) t.mock key value.value ttl 1 call.now s.data with
      | .ok data => fun k =>
          if k = key ∨ (s.data.lookup (Mock.getTenantKey t.tenantId k)).isSome then
            crowded t (Mock.getTenantKey t.tenantId key) s.data &&
              (data.lookup (Mock.getTenantKey t.tenantId k)).isNone
          else s.evicted k
      | .error _ => s.evicted
  | _ => s.evicted

def step (s : State format C) (call : Call format C) : State format C where
  table := applySqlite t call s.table
  data := applyMock t call s.data
  memory := s.memory.act call.action
  evicted := evictions t call s

def start (table : Table) : State format C := ⟨table, [], ExpiringMemory.empty, fun _ => false⟩

def sqliteAnswer (s : State format C) (key : Text) (now : Int) :
    Except CacheError (Option (Value F C)) :=
  get (loads format) t.sqlite key (now / 1000000) s.table

def mockAnswer (s : State format C) (key : Text) (now : Int) :
    Except CacheError (Option (Value F C)) :=
  (Mock.get (loads format) t.mock key now s.data).map Prod.fst

/-- The value as its text is read: pairs of surrogates are joined. -/
def readBack (value : CacheableValue format C) : Value F C := joined value.value

/-- What a cache is for: `get` on the memory. -/
def memoryAnswer (s : State format C) (key : Text) (now : Int) :
    Except CacheError (Option (Value F C)) := do
  validateCacheKey key
  return (s.memory.read now key).map readBack

/-- Both backends answer a `get` from the memory, but for what the mock has evicted. -/
def Answered (s : State format C) (call : Call format C) : Prop :=
  ∀ key, call.op = .get key →
    sqliteAnswer t s key call.now = memoryAnswer s key call.now ∧
      (mockAnswer t s key call.now = memoryAnswer s key call.now ∨
        mockAnswer t s key call.now = .ok none ∧ s.evicted key = true)

end Steps

/-! ## What may be compared -/

section Comparable
variable {F C : Type} [CodePoint C] [DecidableEq C] {format : FloatFormat F}

/-- When the mock lets a value go. -/
def mockExpiry {ν : Type} (kept : Kept ν) : Int := kept.storedAt + kept.lifetime.getD Mock.noTtl

def IsDatetime (at' : Int) : Prop := Mock.minDatetime ≤ at' ∧ at' ≤ Mock.maxDatetime

/-- Read at another time than the very instant its lifetime ends or, without one, within
a hundred years. -/
def WithinReach {ν : Type} (now : Int) (kept : Kept ν) : Prop :=
  IsDatetime (mockExpiry kept) ∧
    if kept.lifetime.isSome then now ≠ mockExpiry kept else now ≤ mockExpiry kept

def Comparable (memory : Memory format C) (call : Call format C) : Prop :=
  ∀ key, call.op = .get key → ∀ kept, memory key = some kept → WithinReach call.now kept

def remember (memory : Memory format C) (call : Call format C) : Memory format C :=
  memory.act call.action

end Comparable

/-! ## What a backend shows -/

section Views
variable {F C : Type} [CodePoint C] [DecidableEq C] {format : FloatFormat F}

def text (value : CacheableValue format C) : Text := dumps format value.value

theorem loads_text (value : CacheableValue format C) :
    loads format (text value) = some (readBack value) :=
  loads_dumps_joined (wellFormed_of_isJsonValue value.value value.valid)

/-- The text that `get` would read. -/
def sqliteView (t : Tenant) (table : Table) (key : Text) (now : Int) : Option Text :=
  ((table (getTenantKey t.tenantId key)).filter (Row.unexpired (now / 1000000))).map Row.value

def mockView (t : Tenant) (data : Mock.Data) (key : Text) (now : Int) : Option Text :=
  ((data.lookup (Mock.getTenantKey t.tenantId key)).filter (now ≤ ·.expiresAt)).map
    Mock.Entry.value

def readText (memory : Memory format C) (key : Text) (now : Int) : Option Text :=
  (memory.read now key).map text

/-- What the mock would keep of the memory if it evicted nothing. -/
def mockText (memory : Memory format C) (key : Text) (now : Int) : Option Text :=
  ((memory key).filter (now ≤ mockExpiry ·)).map fun kept => text kept.value

variable {t : Tenant} {s : State format C} {key : Text} {now : Int}

theorem mockText_of_withinReach {memory : Memory format C}
    (h : ∀ kept, memory key = some kept → WithinReach now kept) :
    mockText memory key now = readText memory key now := by
  rw [mockText, readText, ExpiringMemory.read]
  cases hkept : memory key with
  | none => rfl
  | some kept =>
      have hreach := (h kept hkept).2
      have hlive : kept.isLive now = decide (now ≤ mockExpiry kept) := by
        rw [Kept.isLive, Kept.expiresAt]
        rw [mockExpiry] at hreach ⊢
        cases hlifetime : kept.lifetime with
        | none =>
            rw [hlifetime] at hreach
            exact (decide_eq_true hreach).symm
        | some lifetime =>
            rw [hlifetime] at hreach
            have hne : now ≠ kept.storedAt + lifetime := hreach
            simp only [Option.map_some, Option.all_some, Option.getD_some]
            exact decide_eq_decide.mpr ⟨fun h => h.le, fun h => lt_of_le_of_ne h hne⟩
      rw [Option.filter, Option.filter, hlive]
      split <;> rfl

theorem sqliteAnswer_of_view (h : validateCacheKey key = .ok () →
      sqliteView t s.table key now = readText s.memory key now) :
    sqliteAnswer t s key now = memoryAnswer s key now := by
  rw [sqliteAnswer, memoryAnswer]
  cases hkey : validateCacheKey key with
  | error e =>
      rw [Cache.get, Cache.lookup, validateAndScopeKey, hkey]
      rfl
  | ok _ =>
      have hview := h hkey
      rw [get_eq hkey]
      rw [sqliteView, readText] at hview
      change _ = Except.ok ((s.memory.read now key).map readBack)
      cases hvalue : s.memory.read now key with
      | none =>
          rw [hvalue] at hview
          rw [show t.sqlite.tenantId = t.tenantId from rfl, Option.map_eq_none_iff.mp hview]
          rfl
      | some value =>
          rw [hvalue] at hview
          obtain ⟨row, hrow, htext⟩ := Option.map_eq_some_iff.mp hview
          rw [show t.sqlite.tenantId = t.tenantId from rfl, hrow]
          simp only [htext, loads_text]
          rfl

theorem mockAnswer_of_invalid {e : CacheError} (h : validateCacheKey key = .error e) :
    mockAnswer t s key now = memoryAnswer s key now := by
  rw [mockAnswer, memoryAnswer, Mock.get, h]
  rfl

theorem mockAnswer_of_view {found : Option (CacheableValue format C)}
    (hkey : validateCacheKey key = .ok ())
    (h : mockView t s.data key now = found.map text) :
    mockAnswer t s key now = .ok (found.map readBack) := by
  rw [mockAnswer, Mock.get_eq hkey]
  rw [mockView] at h
  rw [show t.mock.tenantId = t.tenantId from rfl]
  cases hentry : s.data.lookup (Mock.getTenantKey t.tenantId key) with
  | none =>
      rw [hentry] at h
      rw [Option.map_eq_none_iff.mp h.symm]
      rfl
  | some entry =>
      rw [hentry] at h
      by_cases hexpired : entry.expiresAt < now
      · rw [Option.filter_some_neg (by simpa using hexpired)] at h
        rw [Option.map_eq_none_iff.mp h.symm]
        simp only [if_pos hexpired]
        rfl
      · rw [Option.filter_some_pos (by simpa using hexpired)] at h
        obtain ⟨value, hvalue, htext⟩ := Option.map_eq_some_iff.mp h.symm
        simp only [if_neg hexpired, ← htext, hvalue, loads_text]
        rfl

end Views

/-! ## One call -/

section Keeping
variable {F C : Type} [CodePoint C] [DecidableEq C] {format : FloatFormat F} {t : Tenant} {key : Text} {now : Int}

theorem clears_own (t : Tenant) (key : Text) :
    clears t.tenantId (getTenantKey t.tenantId key) = true := by
  rw [clears, decide_eq_true t.short, Bool.true_and]
  exact like_append_percent _ _

theorem unexpired_eq {ν : Type} (now : Int) (kept : Kept ν) (value writer : Text)
    (createdAt : Rat) :
    Row.unexpired (now / 1000000) ⟨value, kept.lifetime.map fun ttl =>
      (kept.storedAt : Rat) / 1000000 + totalSeconds ttl, createdAt, writer⟩ = kept.isLive now := by
  rw [Row.unexpired, Kept.isLive, Kept.expiresAt]
  cases kept.lifetime with
  | none => rfl
  | some ttl =>
      have hsum : (kept.storedAt : Rat) / 1000000 + totalSeconds ttl =
          ((kept.storedAt + ttl : Int) : Rat) / 1000000 := by
        rw [totalSeconds, Int.cast_add, add_div]
      simp only [Option.map_some, Option.all_some, hsum]
      refine decide_eq_decide.mpr ?_
      rw [div_lt_div_iff_of_pos_right (by norm_num), Int.cast_lt]

theorem act_read_of_not_touches {memory : Memory format C}
    {action : MemoryAction Text (CacheableValue format C)} (h : ¬ action.Touches key) :
    readText (memory.act action) key now = readText memory key now := by
  rw [readText, readText, ExpiringMemory.read, ExpiringMemory.read,
    ExpiringMemory.act_of_not_touches h]

theorem readText_store (memory : Memory format C) (kept : Kept (CacheableValue format C)) :
    readText (memory.act (.store key kept)) key now =
      if kept.isLive now then some (text kept.value) else none := by
  rw [readText, ExpiringMemory.read, ExpiringMemory.act, Function.update_self, Option.filter_some]
  split <;> rfl

theorem getTenantKey_injective {tenantId : Text} {k : Text}
    (h : getTenantKey tenantId key = getTenantKey tenantId k) : key = k :=
  List.append_cancel_left h

theorem stored_set_other {table : Table} {k : Text} (hk : k ≠ key) (value : CacheableValue format C)
    (ttl : Option Timedelta) (at' : Rat) :
    stored (Cache.set (dumps format) t.sqlite k value.value ttl 1 at' table) table
      (getTenantKey t.tenantId key) = table (getTenantKey t.tenantId key) := by
  cases hset : Cache.set (dumps format) t.sqlite k value.value ttl 1 at' table with
  | error e => rfl
  | ok table' =>
      obtain ⟨-, lifetime, -, rfl⟩ := set_ok.mp hset
      exact Function.update_of_ne (fun heq => hk (getTenantKey_injective heq).symm) _ _

theorem stored_delete {table : Table} {k : Text} (hkey : validateCacheKey key = .ok ()) :
    stored (Cache.delete t.sqlite k table) table (getTenantKey t.tenantId key) =
      if k = key then none else table (getTenantKey t.tenantId key) := by
  by_cases hk : k = key
  · subst hk
    have hdelete : Cache.delete t.sqlite k table = _ := scoped_ok.mpr ⟨hkey, rfl⟩
    rw [hdelete, if_pos rfl]
    exact Function.update_self _ _ _
  · rw [if_neg hk]
    cases hdelete : Cache.delete t.sqlite k table with
    | error e => rfl
    | ok table' =>
        obtain ⟨-, rfl⟩ := scoped_ok.mp hdelete
        exact Function.update_of_ne (fun heq => hk (getTenantKey_injective heq).symm) _ _

/-- SQLite has what was set last. -/
theorem sqlite_set_shows {table : Table} {memory : Memory format C} {value : CacheableValue format C}
    {ttl : Option Timedelta} {at' : Int} (hkey : validateCacheKey key = .ok ()) :
    sqliteView t (applySqlite t ⟨.set key value ttl, at'⟩ table) key now =
      readText (memory.act (.store key ⟨value, at', ttl.filter (· ≠ 0)⟩)) key now := by
  have hset : Cache.set (dumps format) t.sqlite key value.value ttl 1 (at' / 1000000) table = _ :=
    set_ok.mpr ⟨hkey, _, jitteredTtl_of_off t.jitterOff 1 ttl, rfl⟩
  have hlive := unexpired_eq now ⟨value, at', ttl.filter (· ≠ 0)⟩ (text value) t.tenantId
    (at' / 1000000)
  rw [sqliteView, applySqlite, readText_store, ← hlive]
  simp only [hset, stored]
  rw [show getTenantKey t.tenantId key = getTenantKey t.sqlite.tenantId key from rfl,
    Function.update_self, Option.filter_some]
  change Option.map Row.value (if Row.unexpired (now / 1000000) ⟨text value, _, _, t.tenantId⟩
    then _ else _) = _
  split <;> rfl

/-- SQLite shows what the memory holds. -/
theorem sqlite_keeps {table : Table} {memory : Memory format C} (call : Call format C)
    (hkey : validateCacheKey key = .ok ()) (hle : call.now ≤ now)
    (h : sqliteView t table key now = readText memory key now) :
    sqliteView t (applySqlite t call table) key now =
      readText (memory.act call.action) key now := by
  obtain ⟨op, at'⟩ := call
  cases op with
  | set k value ttl =>
      let kept : Kept (CacheableValue format C) := ⟨value, at', ttl.filter (· ≠ 0)⟩
      by_cases hk : k = key
      · subst hk
        exact sqlite_set_shows hkey
      · have hsame : readText (memory.act (.store k kept)) key now = readText memory key now :=
          act_read_of_not_touches hk
        change _ = readText (memory.act (.store k kept)) key now
        rw [hsame, ← h, sqliteView, sqliteView, applySqlite]
        simp only [stored_set_other hk]
  | get k => exact h
  | delete k =>
      change _ = readText (memory.act (.remove k)) key now
      rw [sqliteView, applySqlite]
      simp only [stored_delete hkey]
      by_cases hk : k = key
      · subst hk
        rw [if_pos rfl, readText, ExpiringMemory.read, ExpiringMemory.act, Function.update_self]
        rfl
      · have hsame : readText (memory.act (.remove k)) key now = readText memory key now :=
          act_read_of_not_touches hk
        rw [hsame, ← h, sqliteView, if_neg hk]
  | clear =>
      change Option.map Row.value (Option.filter _ (if clears t.tenantId _ then none else _)) = none
      rw [if_pos (clears_own t key)]
      rfl
  | cleanupExpired =>
      change Option.map Row.value (Option.filter _ (Option.filter _ _)) = readText memory key now
      rw [← h, sqliteView, filter_filter_of_imp fun row => unexpired_of_le ?_]
      exact div_le_div_of_nonneg_right (Int.cast_le.mpr hle) (by norm_num)

/-- What SQLite answers right after a set. -/
theorem sqliteAnswer_set {s : State format C} {value : CacheableValue format C}
    {ttl : Option Timedelta} {at' : Int} :
    sqliteAnswer t (step t s ⟨.set key value ttl, at'⟩) key now =
      memoryAnswer (step t s ⟨.set key value ttl, at'⟩) key now := by
  refine sqliteAnswer_of_view fun hkey => ?_
  change sqliteView t (applySqlite t ⟨.set key value ttl, at'⟩ s.table) key now =
    readText (s.memory.act (.store key ⟨value, at', ttl.filter (· ≠ 0)⟩)) key now
  exact sqlite_set_shows hkey

end Keeping

/-! ## One call on the mock -/

section MockKeeping
variable {F C : Type} [CodePoint C] [DecidableEq C] {format : FloatFormat F} {t : Tenant} {s : State format C} {key : Text}
  {now : Int}

/-- The mock shows what the memory holds, or has evicted it. -/
def MockShows (t : Tenant) (s : State format C) (key : Text) (now : Int) : Prop :=
  mockView t s.data key now = mockText s.memory key now ∨
    s.evicted key = true ∧ s.data.lookup (Mock.getTenantKey t.tenantId key) = none

theorem MockShows.of_kept {s' : State format C} (h : MockShows t s key now)
    (hview : mockView t s'.data key now = mockView t s.data key now)
    (hnone : s.data.lookup (Mock.getTenantKey t.tenantId key) = none →
      s'.data.lookup (Mock.getTenantKey t.tenantId key) = none)
    (hmemory : s'.memory key = s.memory key) (hevicted : s'.evicted key = s.evicted key) :
    MockShows t s' key now := by
  cases h with
  | inl h => exact .inl (by rw [hview, h, mockText, mockText, hmemory])
  | inr h => exact .inr ⟨hevicted.trans h.1, hnone h.2⟩

theorem mockView_of_none {data : Mock.Data}
    (h : data.lookup (Mock.getTenantKey t.tenantId key) = none) :
    mockView t data key now = none := by
  rw [mockView, h]
  rfl

theorem mockAnswer_of_none (hkey : validateCacheKey key = .ok ())
    (h : s.data.lookup (Mock.getTenantKey t.tenantId key) = none) :
    mockAnswer t s key now = .ok none := by
  have hview : mockView t s.data key now = (none : Option (CacheableValue format C)).map text :=
    mockView_of_none h
  exact mockAnswer_of_view hkey hview

theorem mockTenantKey_ne {k tenantId : Text} (h : k ≠ key) :
    Mock.getTenantKey tenantId key ≠ Mock.getTenantKey tenantId k :=
  fun heq => h (List.append_cancel_left heq).symm

/-- What `get` drops has expired. -/
theorem get_keeps (format : FloatFormat F) (t : Tenant) (k key : Text) (data : Mock.Data)
    {at' : Int} (hle : at' ≤ now) :
    mockView t (stored ((Mock.get (loads (C := C) format) t.mock k at' data).map Prod.snd) data)
        key now =
      mockView t data key now ∧
    (data.lookup (Mock.getTenantKey t.tenantId key) = none →
      (stored ((Mock.get (loads (C := C) format) t.mock k at' data).map Prod.snd) data).lookup
        (Mock.getTenantKey t.tenantId key) = none) := by
  cases hget : Mock.get (loads (C := C) format) t.mock k at' data with
  | error e => exact ⟨rfl, id⟩
  | ok answer =>
      obtain ⟨found, data'⟩ := answer
      rw [Mock.get_eq (Mock.valid_of_get hget)] at hget
      change mockView t data' key now = _ ∧ (_ → data'.lookup _ = none)
      cases hentry : data.lookup (Mock.getTenantKey t.mock.tenantId k) with
      | none =>
          rw [hentry] at hget
          cases hget
          exact ⟨rfl, id⟩
      | some entry =>
          rw [hentry] at hget
          dsimp only at hget
          split at hget
          · next hexpired =>
              cases hget
              by_cases hk : k = key
              · subst hk
                have hpop : (Dict.pop (Mock.getTenantKey t.mock.tenantId k) data).lookup
                    (Mock.getTenantKey t.tenantId k) = none := by
                  rw [Dict.pop, Dict.lookup_filter (· != _), if_neg (by simp [Tenant.mock])]
                refine ⟨?_, fun _ => hpop⟩
                rw [mockView_of_none hpop, mockView]
                rw [show t.tenantId = t.mock.tenantId from rfl, hentry,
                  Option.filter_some_neg (by simpa using hexpired.trans_le hle)]
                rfl
              · have hpop : (Dict.pop (Mock.getTenantKey t.mock.tenantId k) data).lookup
                    (Mock.getTenantKey t.tenantId key) =
                      data.lookup (Mock.getTenantKey t.tenantId key) :=
                  Dict.lookup_pop_of_ne (mockTenantKey_ne hk)
                rw [mockView, mockView, hpop]
                exact ⟨rfl, id⟩
          · split at hget
            · cases hget
              exact ⟨rfl, id⟩
            · cases hget

theorem evictions_eq {k : Text} {value : CacheableValue format C} {ttl : Option Timedelta} {at' : Int}
    {data : Mock.Data}
    (h : Mock.set (dumps format) t.mock k value.value ttl 1 at' s.data = .ok data) :
    evictions t ⟨.set k value ttl, at'⟩ s key =
      if key = k ∨ (s.data.lookup (Mock.getTenantKey t.tenantId key)).isSome then
        crowded t (Mock.getTenantKey t.tenantId k) s.data &&
          (data.lookup (Mock.getTenantKey t.tenantId key)).isNone
      else s.evicted key := by
  rw [evictions]
  simp only [h]

theorem crowded_of_lt {tenantKey : Text} {entry : Mock.Entry} {data : Mock.Data}
    (h : t.config.maxEntries < (Dict.put tenantKey entry data).length) :
    crowded t tenantKey data = true := by
  rw [Dict.length_put] at h
  exact decide_eq_true h

theorem step_set_data {k : Text} {value : CacheableValue format C} {ttl : Option Timedelta}
    {at' : Int} {data : Mock.Data}
    (h : Mock.set (dumps format) t.mock k value.value ttl 1 at' s.data = .ok data) :
    (step t s ⟨.set k value ttl, at'⟩).data = data := by
  change stored (Mock.set _ _ _ _ _ _ _ _) _ = _
  rw [h]
  rfl

/-- The mock has what was set last, or has evicted it at once. -/
theorem set_shows {value : CacheableValue format C} {ttl : Option Timedelta} {at' : Int}
    (hkey : validateCacheKey key = .ok ())
    (hdate : IsDatetime (mockExpiry ⟨value, at', ttl.filter (· ≠ 0)⟩)) :
    MockShows t (step t s ⟨.set key value ttl, at'⟩) key now := by
  let tenantKey := Mock.getTenantKey t.tenantId key
  let entry : Mock.Entry := ⟨text value, at' + (ttl.filter (· ≠ 0)).getD Mock.noTtl⟩
  let data := Mock.evict t.config.maxEntries (Dict.put tenantKey entry s.data)
  have hset : Mock.set (dumps format) t.mock key value.value ttl 1 at' s.data = .ok data :=
    Mock.set_eq hkey (jitteredTtl_of_off t.jitterOff 1 ttl) hdate.1 hdate.2
  rw [MockShows, step_set_data hset]
  cases Mock.lookup_evict t.config.maxEntries (Dict.put tenantKey entry s.data) tenantKey with
  | inl hkept =>
      have hlookup : data.lookup tenantKey = some entry := hkept.trans Dict.lookup_put_self
      refine .inl ?_
      rw [mockView, hlookup, mockText]
      change _ = Option.map _ (Option.filter _ (Function.update s.memory key _ key))
      rw [Function.update_self, Option.filter_some, Option.filter_some]
      change Option.map _ (if decide (now ≤ entry.expiresAt) = true then _ else _) =
        Option.map _ (if decide (now ≤ entry.expiresAt) = true then _ else _)
      split <;> rfl
  | inr hgone =>
      obtain ⟨hfull, hnone⟩ := hgone
      refine .inr ⟨?_, hnone⟩
      change evictions t ⟨.set key value ttl, at'⟩ s key = true
      rw [evictions_eq hset, if_pos (.inl rfl), crowded_of_lt hfull, Bool.true_and]
      exact Option.isNone_iff_eq_none.mpr hnone

/-- A `set` under another key leaves the entry, or evicts it. -/
theorem set_other_shows {k : Text} {value : CacheableValue format C} {ttl : Option Timedelta}
    {at' : Int} (hk : k ≠ key) (h : MockShows t s key now) :
    MockShows t (step t s ⟨.set k value ttl, at'⟩) key now := by
  let s' := step t s ⟨.set k value ttl, at'⟩
  have hmemory : s'.memory key = s.memory key := Function.update_of_ne hk.symm _ _
  cases hset : Mock.set (dumps format) t.mock k value.value ttl 1 at' s.data with
  | error e =>
      have hdata : s'.data = s.data := by
        change stored (Mock.set _ _ _ _ _ _ _ _) _ = _
        rw [hset]
        rfl
      have hevicted : s'.evicted key = s.evicted key := by
        change evictions t ⟨.set k value ttl, at'⟩ s key = _
        simp only [evictions, hset]
      exact h.of_kept (by rw [hdata]) (fun hnone => by rw [hdata, hnone]) hmemory hevicted
  | ok data =>
      have hdata : s'.data = data := step_set_data hset
      have hevicted : s'.evicted key = _ := evictions_eq hset
      obtain ⟨-, lifetime, -, rfl⟩ := Mock.set_ok hset
      let entry : Mock.Entry := ⟨text value, at' + lifetime.getD Mock.noTtl⟩
      have hput : (Dict.put (Mock.getTenantKey t.tenantId k) entry s.data).lookup
          (Mock.getTenantKey t.tenantId key) =
            s.data.lookup (Mock.getTenantKey t.tenantId key) :=
        Dict.lookup_put_of_ne (mockTenantKey_ne hk)
      have hafter := Mock.lookup_evict t.config.maxEntries
        (Dict.put (Mock.getTenantKey t.tenantId k) entry s.data) (Mock.getTenantKey t.tenantId key)
      rw [hput] at hafter
      cases hold : s.data.lookup (Mock.getTenantKey t.tenantId key) with
      | none =>
          have hnone : s'.data.lookup (Mock.getTenantKey t.tenantId key) = none := by
            rw [hdata]
            cases hafter with
            | inl hkept => exact hkept.trans hold
            | inr hgone => exact hgone.2
          rw [hold, if_neg (by simp [hk.symm])] at hevicted
          refine h.of_kept ?_ (fun _ => hnone) hmemory hevicted
          rw [mockView_of_none hold, mockView_of_none hnone]
      | some old =>
          rw [if_pos (.inr (by rw [hold]; rfl))] at hevicted
          cases hafter with
          | inl hkept =>
              refine .inl ?_
              cases h with
              | inl h =>
                  have hview : mockView t s'.data key now = mockView t s.data key now := by
                    rw [mockView, mockView, hdata]
                    exact congrArg (fun entry => (Option.filter _ entry).map _) hkept
                  exact hview.trans (h.trans (by rw [mockText, mockText, hmemory]))
              | inr h => cases hold.symm.trans h.2
          | inr hgone =>
              refine .inr ⟨?_, by rw [hdata]; exact hgone.2⟩
              rw [hevicted, crowded_of_lt hgone.1, Bool.true_and]
              exact Option.isNone_iff_eq_none.mpr hgone.2

/-- The mock shows what the memory holds, but for what it has evicted. -/
theorem mock_keeps (call : Call format C) (hkeys : (s.data.map Prod.fst).Nodup)
    (hkey : validateCacheKey key = .ok ()) (hle : call.now ≤ now)
    (hdate : ∀ kept, (step t s call).memory key = some kept → IsDatetime (mockExpiry kept))
    (h : (∀ kept, s.memory key = some kept → IsDatetime (mockExpiry kept)) →
      MockShows t s key now) : MockShows t (step t s call) key now := by
  obtain ⟨op, at'⟩ := call
  have hother (hmemory : (step t s ⟨op, at'⟩).memory key = s.memory key) :
      MockShows t s key now := h fun kept hkept => hdate kept (hmemory.trans hkept)
  have hremoved (hnone : (step t s ⟨op, at'⟩).data.lookup (Mock.getTenantKey t.tenantId key) = none)
      (hmemory : (step t s ⟨op, at'⟩).memory key = none) :
      MockShows t (step t s ⟨op, at'⟩) key now := by
    refine .inl ?_
    rw [mockView_of_none hnone, mockText, hmemory]
    rfl
  cases op with
  | set k value ttl =>
      by_cases hk : k = key
      · subst hk
        exact set_shows hkey (hdate _ (Function.update_self _ _ _))
      · exact set_other_shows hk (hother (Function.update_of_ne (Ne.symm hk) _ _))
  | get k =>
      obtain ⟨hview, hnone⟩ := get_keeps (C := C) format t k key s.data hle
      exact (hother rfl).of_kept hview hnone rfl rfl
  | delete k =>
      by_cases hk : k = key
      · subst hk
        have hdelete : Mock.delete t.mock k s.data = _ := Mock.delete_ok.mpr ⟨hkey, rfl⟩
        refine hremoved ?_ (Function.update_self _ _ _)
        change (stored (Mock.delete t.mock k s.data) s.data).lookup _ = none
        rw [hdelete]
        exact (Dict.lookup_filter (· != _)).trans (if_neg (by simp [Tenant.mock]))
      · have hmemory : (step t s ⟨.delete k, at'⟩).memory key = s.memory key :=
          Function.update_of_ne (Ne.symm hk) _ _
        have hlookup : (step t s ⟨.delete k, at'⟩).data.lookup (Mock.getTenantKey t.tenantId key) =
            s.data.lookup (Mock.getTenantKey t.tenantId key) := by
          change (stored (Mock.delete t.mock k s.data) s.data).lookup _ = _
          cases hdelete : Mock.delete t.mock k s.data with
          | error e => rfl
          | ok data =>
              obtain ⟨-, rfl⟩ := Mock.delete_ok.mp hdelete
              exact Dict.lookup_pop_of_ne (mockTenantKey_ne hk)
        refine (hother hmemory).of_kept ?_ (fun hnone => hlookup.trans hnone) hmemory rfl
        rw [mockView, mockView, hlookup]
  | clear => exact hremoved (Mock.lookup_clear t.mock key s.data) rfl
  | cleanupExpired =>
      have hlookup := Mock.lookup_cleanupExpired hkeys at' (Mock.getTenantKey t.tenantId key)
      refine (hother rfl).of_kept ?_ (fun hnone => ?_) rfl rfl
      · change Option.map _ (Option.filter _ ((Mock.cleanupExpired at' s.data).2.lookup _)) = _
        rw [hlookup, filter_filter_of_imp fun entry hlive => ?_, mockView]
        exact decide_eq_true (hle.trans (of_decide_eq_true hlive))
      · change (Mock.cleanupExpired at' s.data).2.lookup _ = none
        rw [hlookup, hnone]
        rfl

/-- A call drops entries of the mock, or puts one and evicts. -/
theorem applyMock_cases (t : Tenant) (call : Call format C) (data : Mock.Data) :
    (applyMock t call data).Sublist data ∨
      ∃ key value ttl entry, call.op = .set key value ttl ∧ applyMock t call data =
        Mock.evict t.config.maxEntries
          (Dict.put (Mock.getTenantKey t.tenantId key) entry data) := by
  obtain ⟨op, at'⟩ := call
  cases op with
  | set k value ttl =>
      simp only [applyMock]
      cases hset : Mock.set (dumps format) t.mock k value.value ttl 1 at' data with
      | error e => exact .inl (List.Sublist.refl data)
      | ok data' =>
          obtain ⟨-, lifetime, -, hdata⟩ := Mock.set_ok hset
          exact .inr ⟨k, value, ttl, _, rfl, hdata⟩
  | get k =>
      simp only [applyMock]
      cases hget : Mock.get (loads (C := C) format) t.mock k at' data with
      | error e => exact .inl (List.Sublist.refl data)
      | ok answer => exact .inl (Mock.get_sublist hget)
  | delete k =>
      simp only [applyMock]
      cases hdelete : Mock.delete t.mock k data with
      | error e => exact .inl (List.Sublist.refl data)
      | ok data' =>
          obtain ⟨-, rfl⟩ := Mock.delete_ok.mp hdelete
          exact .inl List.filter_sublist
  | clear => exact .inl (Dict.foldl_pop_sublist _ _)
  | cleanupExpired => exact .inl (Dict.foldl_pop_sublist _ _)

theorem nodup_keeps (call : Call format C) (h : (s.data.map Prod.fst).Nodup) :
    ((step t s call).data.map Prod.fst).Nodup := by
  change ((applyMock t call s.data).map Prod.fst).Nodup
  cases applyMock_cases t call s.data with
  | inl hdropped => exact h.sublist (hdropped.map Prod.fst)
  | inr hput =>
      obtain ⟨key, value, ttl, entry, -, hdata⟩ := hput
      rw [hdata]
      exact Mock.nodup_evict (Dict.nodup_put h)

end MockKeeping

end DualeAI.MockCache
