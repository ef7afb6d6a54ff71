import DualeAI.Foundation.Dict
import DualeAI.Foundation.Glob
import DualeAI.Sdk.SqliteCache
import Mathlib.Data.List.Sort

/-!
`RedisCacheBackend` and `MockCacheBackend`.

The keyspace of a Redis server is shared with whoever else uses it, and the server
drops an expired key by itself. A command that fails leaves it as it was. The data
of the mock backend is a `dict`, in the order of insertion; its times are
`datetime`s, in microseconds since 1970.
-/
namespace DualeAI.Cache
open Foundation

/-! ## Redis -/

namespace Redis

structure RedisCacheBackend where
  tenantId : Text
  config : CacheConfig := {}

def keyNamespace : Text := "dualeai:sdk".toList

def tenantPrefix (tenantId : Text) : Text := keyNamespace ++ ':' :: (tenantId ++ [':'])

def getTenantKey (tenantId key : Text) : Text := tenantPrefix tenantId ++ key

structure Entry where
  value : Text
  /-- In seconds; none where the key never expires. -/
  expiresAt : Option Rat

def Entry.unexpired (now : Rat) (entry : Entry) : Bool := entry.expiresAt.all fun at' => now < at'

abbrev Keyspace := Text → Option Entry

def clearBatchSize : Nat := 500

def clearPattern (tenantId : Text) : Text := tenantPrefix tenantId ++ ['*']

/-- The server's `DEL`. -/
def del (keys : List Text) (keyspace : Keyspace) : Keyspace :=
  fun key => if keys.contains key then none else keyspace key

/-- The keys of each `delete` that `clear` makes; `tenantKeys` are those collected so far. -/
def clearBatches : (scanned tenantKeys : List Text) → List (List Text)
  | [], tenantKeys => if tenantKeys.isEmpty then [] else [tenantKeys]
  | tenantKey :: scanned, tenantKeys =>
      let tenantKeys := tenantKeys ++ [tenantKey]
      if tenantKeys.length = clearBatchSize then tenantKeys :: clearBatches scanned []
      else clearBatches scanned tenantKeys

/-- `clear`, where `scan_iter` yields the keys `scanned`. -/
def clear (scanned : List Text) (keyspace : Keyspace) : Keyspace :=
  (clearBatches scanned []).foldl (fun keyspace keys => del keys keyspace) keyspace

section Operations
variable {V : Type} (dumps : V → Text) (loads : Text → Option V)

/-- `fails` where the command raises a `RedisError` or an `OSError`. -/
def get (b : RedisCacheBackend) (key : Text) (now : Rat) (fails : Bool) (keyspace : Keyspace) :
    Except CacheError (Option V) := do
  let tenantKey ← validateAndScopeKey (tenantPrefix b.tenantId) b.tenantId key
  if fails then return none
  return ((keyspace tenantKey).filter (Entry.unexpired now)).bind fun entry => loads entry.value

/-- `int(jittered_ttl.total_seconds())` where that is positive. -/
def expireSeconds (ttl : Option Timedelta) : Option Int :=
  (ttl.map fun ttl => ttl.tdiv second).filter (0 < ·)

def set (b : RedisCacheBackend) (key : Text) (value : V) (ttl : Option Timedelta)
    (jitter now : Rat) (fails : Bool) (keyspace : Keyspace) : Except CacheError Keyspace := do
  let tenantKey ← validateAndScopeKey (tenantPrefix b.tenantId) b.tenantId key
  let ttl ← jitteredTtl b.config jitter ttl
  let entry : Entry := ⟨dumps value, (expireSeconds ttl).map fun seconds : Int => now + seconds⟩
  return if fails then keyspace else Function.update keyspace tenantKey (some entry)

end Operations

/-- Reads from a server that answers. -/
theorem get_eq {V : Type} {loads : Text → Option V} {b : RedisCacheBackend} {key : Text}
    (h : validateCacheKey key = .ok ()) (now : Rat) (keyspace : Keyspace) :
    get loads b key now false keyspace =
      .ok (((keyspace (getTenantKey b.tenantId key)).filter (Entry.unexpired now)).bind
        fun entry => loads entry.value) := by
  have hkey : validateAndScopeKey (tenantPrefix b.tenantId) b.tenantId key =
      .ok (getTenantKey b.tenantId key) := validateAndScopeKey_ok.mpr ⟨h, rfl⟩
  rw [get, hkey]
  rfl

theorem valid_of_get {V : Type} {loads : Text → Option V} {b : RedisCacheBackend} {key : Text}
    {now : Rat} {fails : Bool} {keyspace : Keyspace} {found : Option V}
    (h : get loads b key now fails keyspace = .ok found) : validateCacheKey key = .ok () := by
  cases hkey : validateAndScopeKey (tenantPrefix b.tenantId) b.tenantId key with
  | error e =>
      rw [get, hkey] at h
      cases h
  | ok tenantKey => exact (validateAndScopeKey_ok.mp hkey).1

theorem set_ok {V : Type} {dumps : V → Text} {b : RedisCacheBackend} {key : Text} {value : V}
    {ttl : Option Timedelta} {jitter now : Rat} {fails : Bool} {keyspace keyspace' : Keyspace} :
    set dumps b key value ttl jitter now fails keyspace = .ok keyspace' ↔
      validateCacheKey key = .ok () ∧ ∃ lifetime, jitteredTtl b.config jitter ttl = .ok lifetime ∧
        keyspace' = if fails then keyspace else
          Function.update keyspace (getTenantKey b.tenantId key) (some
            ⟨dumps value, (expireSeconds lifetime).map fun seconds : Int => now + seconds⟩) := by
  cases hlifetime : jitteredTtl b.config jitter ttl with
  | error e =>
      cases h : validateAndScopeKey (tenantPrefix b.tenantId) b.tenantId key <;>
        simp [set, bind, Except.bind, h, hlifetime]
  | ok lifetime =>
      cases h : validateAndScopeKey (tenantPrefix b.tenantId) b.tenantId key with
      | error e =>
          have hkey : validateCacheKey key ≠ .ok () := fun hkey => by
            rw [validateAndScopeKey_ok.mpr ⟨hkey, rfl⟩] at h
            cases h
          simp [set, bind, Except.bind, h, hkey]
      | ok tenantKey =>
          obtain ⟨hkey, rfl⟩ := validateAndScopeKey_ok.mp h
          simp [set, bind, Except.bind, pure, Except.pure, h, hlifetime, hkey, getTenantKey,
            eq_comm]

end Redis

/-! ## Mock -/

namespace Mock

structure MockCacheBackend where
  tenantId : Text
  config : CacheConfig := {}

def tenantPrefix (tenantId : Text) : Text := "tenant:".toList ++ (tenantId ++ [':'])

def getTenantKey (tenantId key : Text) : Text := tenantPrefix tenantId ++ key

structure Entry where
  value : Text
  expiresAt : Int

/-- `_data`. -/
abbrev Data := Dict Text Entry

def minDatetime : Int := -62135596800000000

def maxDatetime : Int := 253402300799999999

/-- `datetime + timedelta`. -/
def addTimedelta (at' : Int) (ttl : Timedelta) : Except CacheError Int :=
  if minDatetime ≤ at' + ttl ∧ at' + ttl ≤ maxDatetime then .ok (at' + ttl)
  else .error .overflowError

/-- What stands for no lifetime: a hundred years. -/
def noTtl : Timedelta := 36500 * 86400 * second

/-- Without the tenth that expires first, where there are more than `max_entries`. -/
def evict (maxEntries : Nat) (data : Data) : Data :=
  if maxEntries < data.length then
    let oldest := (data.mergeSort fun a b => a.2.expiresAt ≤ b.2.expiresAt).take (data.length / 10)
    data.filter fun (key, _) => !(oldest.map Prod.fst).contains key
  else data

section Operations
variable {V : Type} (dumps : V → Text) (loads : Text → Option V)

def get (b : MockCacheBackend) (key : Text) (now : Int) (data : Data) :
    Except CacheError (Option V × Data) := do
  validateCacheKey key
  let tenantKey := getTenantKey b.tenantId key
  match data.lookup tenantKey with
  | none => return (none, data)
  | some entry =>
      if entry.expiresAt < now then return (none, Dict.pop tenantKey data)
      match loads entry.value with
      | some value => return (some value, data)
      | none => throw .jsonDecodeError

def set (b : MockCacheBackend) (key : Text) (value : V) (ttl : Option Timedelta) (jitter : Rat)
    (now : Int) (data : Data) : Except CacheError Data := do
  validateCacheKey key
  let lifetime ← jitteredTtl b.config jitter ttl
  let expiresAt ← addTimedelta now (lifetime.getD noTtl)
  let data := Dict.put (getTenantKey b.tenantId key) ⟨dumps value, expiresAt⟩ data
  return evict b.config.maxEntries data

def delete (b : MockCacheBackend) (key : Text) (data : Data) : Except CacheError Data := do
  validateCacheKey key
  return Dict.pop (getTenantKey b.tenantId key) data

def clear (b : MockCacheBackend) (data : Data) : Data :=
  let keysToRemove := (data.map Prod.fst).filter (tenantPrefix b.tenantId).isPrefixOf
  keysToRemove.foldl (fun data key => Dict.pop key data) data

def cleanupExpired (now : Int) (data : Data) : Nat × Data :=
  let expiredKeys := (data.filter fun (_, entry) => entry.expiresAt < now).map Prod.fst
  (expiredKeys.length, expiredKeys.foldl (fun data key => Dict.pop key data) data)

end Operations

theorem evict_subset (maxEntries : Nat) (data : Data) : evict maxEntries data ⊆ data := by
  rw [evict]
  split
  · exact List.filter_subset_self data
  · exact List.Subset.refl data

theorem nodup_evict {maxEntries : Nat} {data : Data} (h : (data.map Prod.fst).Nodup) :
    ((evict maxEntries data).map Prod.fst).Nodup := by
  rw [evict]
  split
  · exact h.sublist (List.filter_sublist.map Prod.fst)
  · exact h

theorem addTimedelta_ok {at' expiresAt : Int} {ttl : Timedelta}
    (h : addTimedelta at' ttl = .ok expiresAt) : expiresAt = at' + ttl := by
  rw [addTimedelta] at h
  split at h
  · cases h
    rfl
  · cases h

theorem set_ok {V : Type} {dumps : V → Text} {b : MockCacheBackend} {key : Text} {value : V}
    {ttl : Option Timedelta} {jitter : Rat} {now : Int} {data data' : Data}
    (h : set dumps b key value ttl jitter now data = .ok data') :
    validateCacheKey key = .ok () ∧ ∃ lifetime, jitteredTtl b.config jitter ttl = .ok lifetime ∧
      data' = evict b.config.maxEntries (Dict.put (getTenantKey b.tenantId key)
        ⟨dumps value, now + lifetime.getD noTtl⟩ data) := by
  cases hkey : validateCacheKey key with
  | error e => simp [set, bind, Except.bind, hkey] at h
  | ok _ =>
      refine ⟨rfl, ?_⟩
      cases hlifetime : jitteredTtl b.config jitter ttl with
      | error e => simp [set, bind, Except.bind, hkey, hlifetime] at h
      | ok lifetime =>
          refine ⟨lifetime, rfl, ?_⟩
          cases hexpires : addTimedelta now (lifetime.getD noTtl) with
          | error e => simp [set, bind, Except.bind, hkey, hlifetime, hexpires] at h
          | ok expiresAt =>
              rw [← addTimedelta_ok hexpires]
              simpa [set, bind, Except.bind, pure, Except.pure, hkey, hlifetime, hexpires,
                eq_comm] using h

theorem set_eq {V : Type} {dumps : V → Text} {b : MockCacheBackend} {key : Text} {value : V}
    {ttl lifetime : Option Timedelta} {jitter : Rat} {now : Int} {data : Data}
    (hkey : validateCacheKey key = .ok ())
    (hlifetime : jitteredTtl b.config jitter ttl = .ok lifetime)
    (hmin : minDatetime ≤ now + lifetime.getD noTtl)
    (hmax : now + lifetime.getD noTtl ≤ maxDatetime) :
    set dumps b key value ttl jitter now data =
      .ok (evict b.config.maxEntries (Dict.put (getTenantKey b.tenantId key)
        ⟨dumps value, now + lifetime.getD noTtl⟩ data)) := by
  have hexpires : addTimedelta now (lifetime.getD noTtl) = .ok (now + lifetime.getD noTtl) := by
    rw [addTimedelta, if_pos ⟨hmin, hmax⟩]
  rw [set, hkey, hlifetime]
  change (addTimedelta now (lifetime.getD noTtl) >>= _) = _
  rw [hexpires]
  rfl

/-- What `set` leaves under its key, where it evicts no more than others. -/
theorem set_lookup {V : Type} {dumps : V → Text} {b : MockCacheBackend} {key : Text} {value : V}
    {ttl : Option Timedelta} {jitter : Rat} {now : Int} {data data' : Data} {entry : Entry}
    (h : set dumps b key value ttl jitter now data = .ok data')
    (hentry : data'.lookup (getTenantKey b.tenantId key) = some entry) :
    ∃ lifetime, jitteredTtl b.config jitter ttl = .ok lifetime ∧
      entry = ⟨dumps value, now + lifetime.getD noTtl⟩ := by
  obtain ⟨-, lifetime, hlifetime, rfl⟩ := set_ok h
  refine ⟨lifetime, hlifetime, ?_⟩
  cases Dict.mem_put (evict_subset _ _ (Dict.mem_of_lookup hentry)) with
  | inl hnew => exact hnew.2
  | inr hold => exact absurd rfl hold.1

/-- The entry under a key is there after an eviction, or was evicted. -/
theorem lookup_evict (maxEntries : Nat) (data : Data) (key : Text) :
    (evict maxEntries data).lookup key = data.lookup key ∨
      maxEntries < data.length ∧ (evict maxEntries data).lookup key = none := by
  rw [evict]
  split
  · next hfull =>
      dsimp only
      rw [Dict.lookup_filter (fun key => !(List.map Prod.fst _).contains key)]
      split
      · exact .inl rfl
      · exact .inr ⟨hfull, rfl⟩
  · exact .inl rfl

def expiresBefore (a b : Text × Entry) : Bool := a.2.expiresAt ≤ b.2.expiresAt

theorem pairwise_mergeSort (data : Data) : (data.mergeSort expiresBefore).Pairwise
    fun a b => expiresBefore a b = true :=
  List.pairwise_mergeSort
    (fun _ _ _ hab hbc => decide_eq_true ((of_decide_eq_true hab).trans (of_decide_eq_true hbc)))
    (fun a b => by simpa [expiresBefore] using le_total a.2.expiresAt b.2.expiresAt) data

/-- What expires before everything else is evicted first. -/
theorem lookup_evict_earliest {maxEntries : Nat} {data : Data} {key : Text} {entry : Entry}
    (hfull : maxEntries < data.length) (hten : 10 ≤ data.length) (hmem : (key, entry) ∈ data)
    (h : ∀ other ∈ data, other.1 ≠ key → entry.expiresAt < other.2.expiresAt) :
    (evict maxEntries data).lookup key = none := by
  rw [evict, if_pos hfull]
  change ((data.filter fun (k, _) => !(((data.mergeSort expiresBefore).take
    (data.length / 10)).map Prod.fst).contains k).lookup key) = none
  rw [Dict.lookup_filter (fun k => !(List.map Prod.fst _).contains k), if_neg]
  have hsorted := pairwise_mergeSort data
  have hentry := (List.mergeSort_perm data expiresBefore).mem_iff.mpr hmem
  cases hlist : data.mergeSort expiresBefore with
  | nil =>
      rw [hlist] at hentry
      cases hentry
  | cons first rest =>
      rw [hlist] at hsorted hentry
      have hfirst : first ∈ data :=
        (List.mergeSort_perm data expiresBefore).mem_iff.mp (hlist ▸ List.mem_cons_self)
      have hkey : first.1 = key := by
        by_contra hne
        have hlater := h first hfirst hne
        cases List.mem_cons.mp hentry with
        | inl heq => exact hne (heq ▸ rfl)
        | inr hrest =>
            have hle := of_decide_eq_true ((List.pairwise_cons.mp hsorted).1 _ hrest)
            exact absurd hlater (not_lt.mpr hle)
      obtain ⟨n, hn⟩ := Nat.exists_eq_add_of_le' (Nat.div_pos hten (by decide : 0 < 10))
      rw [hn, List.take_succ_cons, List.map_cons, hkey]
      simp

theorem get_eq {V : Type} {loads : Text → Option V} {b : MockCacheBackend} {key : Text}
    (h : validateCacheKey key = .ok ()) (now : Int) (data : Data) :
    get loads b key now data =
      match data.lookup (getTenantKey b.tenantId key) with
      | none => .ok (none, data)
      | some entry =>
          if entry.expiresAt < now then
            .ok (none, Dict.pop (getTenantKey b.tenantId key) data)
          else
            match loads entry.value with
            | some value => .ok (some value, data)
            | none => .error .jsonDecodeError := by
  rw [get, h]
  rfl

theorem delete_ok {b : MockCacheBackend} {key : Text} {data data' : Data} :
    delete b key data = .ok data' ↔
      validateCacheKey key = .ok () ∧ data' = Dict.pop (getTenantKey b.tenantId key) data := by
  rw [delete]
  cases validateCacheKey key with
  | error e => simp [bind, Except.bind]
  | ok _ => simp [bind, Except.bind, pure, Except.pure, eq_comm]

/-- `clear` leaves none of the tenant's keys. -/
theorem lookup_clear (b : MockCacheBackend) (key : Text) (data : Data) :
    (clear b data).lookup (getTenantKey b.tenantId key) = none := by
  rw [clear, Dict.lookup_foldl_pop]
  split
  · rfl
  · next hkept =>
      cases hentry : data.lookup (getTenantKey b.tenantId key) with
      | none => rfl
      | some entry =>
          refine absurd (List.mem_filter.mpr ⟨?_, ?_⟩) hkept
          · exact List.mem_map.mpr ⟨_, Dict.mem_of_lookup hentry, rfl⟩
          · exact List.isPrefixOf_iff_prefix.mpr (List.prefix_append _ _)

theorem lookup_cleanupExpired {data : Data} (hkeys : (data.map Prod.fst).Nodup) (now : Int)
    (key : Text) :
    (cleanupExpired now data).2.lookup key = (data.lookup key).filter (now ≤ ·.expiresAt) := by
  rw [cleanupExpired]
  dsimp only
  rw [Dict.lookup_foldl_pop]
  cases hentry : data.lookup key with
  | none =>
      split <;> rfl
  | some entry =>
      have hexpired : key ∈ (data.filter fun (_, entry) => entry.expiresAt < now).map Prod.fst ↔
          entry.expiresAt < now := by
        constructor
        · intro hmem
          obtain ⟨⟨k, e⟩, hfilter, rfl⟩ := List.mem_map.mp hmem
          obtain ⟨hpair, hlt⟩ := List.mem_filter.mp hfilter
          cases hentry.symm.trans (Dict.lookup_of_mem hkeys hpair)
          exact of_decide_eq_true hlt
        · intro hlt
          exact List.mem_map.mpr ⟨(key, entry), List.mem_filter.mpr
            ⟨Dict.mem_of_lookup hentry, decide_eq_true hlt⟩, rfl⟩
      by_cases hlt : entry.expiresAt < now
      · rw [if_pos (hexpired.mpr hlt), Option.filter_some_neg (by simpa using hlt)]
      · rw [if_neg (mt hexpired.mp hlt), Option.filter_some_pos (by simpa using hlt)]

theorem valid_of_get {V : Type} {loads : Text → Option V} {b : MockCacheBackend} {key : Text}
    {now : Int} {data data' : Data} {found : Option V}
    (h : get loads b key now data = .ok (found, data')) : validateCacheKey key = .ok () := by
  cases hkey : validateCacheKey key with
  | error e =>
      rw [get, hkey] at h
      cases h
  | ok _ => rfl

/-- `get` removes at most an entry. -/
theorem get_sublist {V : Type} {loads : Text → Option V} {b : MockCacheBackend} {key : Text}
    {now : Int} {data : Data} {answer : Option V × Data}
    (h : get loads b key now data = .ok answer) : answer.2.Sublist data := by
  rw [get_eq (valid_of_get h)] at h
  split at h
  · cases h
    exact List.Sublist.refl data
  · split at h
    · cases h
      exact List.filter_sublist
    · split at h
      · cases h
        exact List.Sublist.refl data
      · cases h

end Mock
end DualeAI.Cache
