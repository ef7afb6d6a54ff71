import DualeAI.Foundation.JsonRoundTrip
import DualeAI.Sdk.CacheBackends

/-!
The cache backends as a memory of activity results.

A `Backend` is what `execute_activity` uses of one that works, with what it keeps
under a key and the facts a memory rests on. Times are in microseconds.
-/
namespace DualeAI.Memo
open Foundation JsonText Cache

/-! ## Results -/

section Results
variable {F C : Type} [DecidableEq C] (format : FloatFormat F)

def maxSafeInteger : Int := 9007199254740991

mutual

/-- `JsonValue`, where the members of a `dict` have distinct names. -/
def isJsonValue : Value F C → Bool
  | .null | .bool _ | .str _ => true
  | .int n => -maxSafeInteger ≤ n && n ≤ maxSafeInteger
  | .float x => (format.value x).any fun q : Rat => -maxSafeInteger ≤ q && q ≤ maxSafeInteger
  | .arr items => areJsonValues items
  | .obj members => (members.map Prod.fst).Nodup && areMembers members

def areJsonValues : List (Value F C) → Bool
  | [] => true
  | v :: items => isJsonValue v && areJsonValues items

def areMembers : List (List C × Value F C) → Bool
  | [] => true
  | (_, v) :: members => isJsonValue v && areMembers members

end

structure CacheableValue {F : Type} (format : FloatFormat F) (C : Type := Char)
    [DecidableEq C] where
  value : Value F C
  valid : isJsonValue format value = true

/-- `_cacheable_value_adapter.validate_python`. -/
def validatePython (v : Value F C) : Option (CacheableValue format C) :=
  if h : isJsonValue format v = true then some ⟨v, h⟩ else none

variable {format}

mutual

theorem wellFormed_of_isJsonValue :
    ∀ v : Value F C, isJsonValue format v = true → WellFormed format v
  | .null, _ => .null
  | .bool b, _ => .bool b
  | .str s, _ => .str s
  | .int n, _ => .int n
  | .float x, h => .float x (Option.isSome_of_any h)
  | .arr items, h => .arr items (wellFormed_of_areJsonValues items h)
  | .obj members, h => by
      rw [isJsonValue, Bool.and_eq_true, decide_eq_true_eq] at h
      exact .obj members h.1 (wellFormed_of_areMembers members h.2)

theorem wellFormed_of_areJsonValues :
    ∀ items : List (Value F C), areJsonValues format items = true →
      ∀ v ∈ items, WellFormed format v
  | [], _, v, hmem => absurd hmem List.not_mem_nil
  | w :: items, h, v, hmem => by
      rw [areJsonValues, Bool.and_eq_true] at h
      cases List.mem_cons.mp hmem with
      | inl heq => exact heq ▸ wellFormed_of_isJsonValue w h.1
      | inr hmem => exact wellFormed_of_areJsonValues items h.2 v hmem

theorem wellFormed_of_areMembers :
    ∀ members : List (List C × Value F C), areMembers format members = true →
      ∀ member ∈ members, WellFormed format member.2
  | [], _, member, hmem => absurd hmem List.not_mem_nil
  | (name, w) :: members, h, member, hmem => by
      rw [areMembers, Bool.and_eq_true] at h
      cases List.mem_cons.mp hmem with
      | inl heq => exact heq ▸ wellFormed_of_isJsonValue w h.1
      | inr hmem => exact wellFormed_of_areMembers members h.2 member hmem

end

end Results

/-- A format with one float. -/
def zeroFormat : FloatFormat Unit where
  repr _ := "0.0".toList
  parse _ := ()
  constant _ := ()
  value _ := some 0
  literal _ _ := ⟨[], ['0'], ['.', '0'], [], rfl, .inl rfl, .inl rfl,
    .inr ⟨['0'], ⟨by decide, List.forall_mem_singleton.mpr rfl⟩, rfl⟩, .inl rfl, .inl (by decide)⟩
  parse_repr _ _ := rfl

/-! ## Backends -/

/-- A working cache backend over stores `σ`, with an entry under each key: a `get`
reads the entry and removes none that has not expired, a `set` writes it and at most
evicts others. -/
structure Backend {F : Type} (format : FloatFormat F) (C : Type) [CodePoint C] [DecidableEq C]
    (σ ε : Type) where
  get : (key : Text) → (now : Int) → σ → Except CacheError (Option (Value F C) × σ)
  set : (key : Text) → Value F C → Option Timedelta → (jitter : Rat) → (now : Int) → σ →
    Except CacheError σ
  entry : (key : Text) → σ → Option ε
  text : ε → Text
  unexpired : (now : Int) → ε → Bool
  /-- Whether a `set` under the key makes room by removing entries. -/
  evicts : (key : Text) → σ → Bool
  get_of_entry : ∀ {key now store e v}, validateCacheKey key = .ok () → entry key store = some e →
    unexpired now e = true → loads format (text e) = some v →
    get key now store = .ok (some v, store)
  entry_of_get : ∀ {key now store v store'}, get key now store = .ok (some v, store') →
    ∃ e, entry key store = some e ∧ unexpired now e = true ∧ loads format (text e) = some v
  get_keeps : ∀ {key now store found store' other e}, get key now store = .ok (found, store') →
    entry other store = some e → unexpired now e = true → entry other store' = some e
  set_stores : ∀ {key v ttl jitter now store store'}, set key v ttl jitter now store = .ok store' →
    (∃ e, entry key store' = some e ∧ text e = dumps format v) ∨
      evicts key store = true ∧ entry key store' = none
  set_keeps : ∀ {key v ttl jitter now store store' other},
    set key v ttl jitter now store = .ok store' →
    other ≠ key → entry other store' = entry other store ∨
      evicts key store = true ∧ entry other store' = none
  valid_of_get : ∀ {key now store found}, get key now store = .ok found →
    validateCacheKey key = .ok ()
  valid_of_set : ∀ {key v ttl jitter now store store'},
    set key v ttl jitter now store = .ok store' → validateCacheKey key = .ok ()

section Instances
variable {F C : Type} [CodePoint C] [DecidableEq C] (format : FloatFormat F)

theorem map_eq_ok {ε α β : Type} {x : Except ε α} {f : α → β} {y : β} :
    x.map f = .ok y ↔ ∃ z, x = .ok z ∧ f z = y := by
  cases x with
  | error e => simp [Except.map]
  | ok z => simp [Except.map]

def sqlite (b : SQLiteCacheBackend) : Backend format C Table Row where
  get key now table :=
    (get (loads format) b key (now / 1000000) table).map fun found => (found, table)
  set key v ttl jitter now table := set (dumps format) b key v ttl jitter (now / 1000000) table
  entry key table := table (getTenantKey b.tenantId key)
  text := Row.value
  unexpired now := Row.unexpired (now / 1000000)
  evicts _ _ := false
  get_of_entry := by
    intro key now table row v hkey hentry hlive hloads
    rw [get_eq hkey, Option.filter_eq_some_iff.mpr ⟨hentry, hlive⟩]
    simp only [hloads]
    rfl
  entry_of_get := by
    intro key now table v table' h
    obtain ⟨found, hget, heq⟩ := map_eq_ok.mp h
    cases heq
    rw [get_eq (valid_of_get hget)] at hget
    split at hget
    · cases hget
    · next row hrow =>
        obtain ⟨hentry, hlive⟩ := Option.filter_eq_some_iff.mp hrow
        split at hget
        · next w hloads =>
            cases hget
            exact ⟨row, hentry, hlive, hloads⟩
        · cases hget
  get_keeps := by
    intro key now table found table' other row h hentry _
    obtain ⟨found, -, heq⟩ := map_eq_ok.mp h
    cases heq
    exact hentry
  set_stores := by
    intro key v ttl jitter now table table' h
    obtain ⟨-, lifetime, -, rfl⟩ := set_ok.mp h
    exact .inl ⟨_, Function.update_self _ _ _, rfl⟩
  set_keeps := by
    intro key v ttl jitter now table table' other h hne
    obtain ⟨-, lifetime, -, rfl⟩ := set_ok.mp h
    exact .inl (Function.update_of_ne (fun heq => hne (List.append_cancel_left heq)) _ _)
  valid_of_get := by
    intro key now table found h
    obtain ⟨found, hget, -⟩ := map_eq_ok.mp h
    exact Cache.valid_of_get hget
  valid_of_set := by
    intro key v ttl jitter now table table' h
    exact (set_ok.mp h).1

def redis (b : Redis.RedisCacheBackend) : Backend format C Redis.Keyspace Redis.Entry where
  get key now keyspace :=
    (Redis.get (loads format) b key (now / 1000000) false keyspace).map fun found =>
      (found, keyspace)
  set key v ttl jitter now keyspace :=
    Redis.set (dumps format) b key v ttl jitter (now / 1000000) false keyspace
  entry key keyspace := keyspace (Redis.getTenantKey b.tenantId key)
  text := Redis.Entry.value
  unexpired now := Redis.Entry.unexpired (now / 1000000)
  evicts _ _ := false
  get_of_entry := by
    intro key now keyspace entry v hkey hentry hlive hloads
    rw [Redis.get_eq hkey, Option.filter_eq_some_iff.mpr ⟨hentry, hlive⟩]
    simp only [Option.bind_some, hloads]
    rfl
  entry_of_get := by
    intro key now keyspace v keyspace' h
    obtain ⟨found, hget, heq⟩ := map_eq_ok.mp h
    cases heq
    rw [Redis.get_eq (Redis.valid_of_get hget), Except.ok.injEq] at hget
    obtain ⟨entry, hentry, hloads⟩ := Option.bind_eq_some_iff.mp hget
    obtain ⟨hentry, hlive⟩ := Option.filter_eq_some_iff.mp hentry
    exact ⟨entry, hentry, hlive, hloads⟩
  get_keeps := by
    intro key now keyspace found keyspace' other entry h hentry _
    obtain ⟨found, -, heq⟩ := map_eq_ok.mp h
    cases heq
    exact hentry
  set_stores := by
    intro key v ttl jitter now keyspace keyspace' h
    obtain ⟨-, lifetime, -, rfl⟩ := Redis.set_ok.mp h
    exact .inl ⟨_, Function.update_self _ _ _, rfl⟩
  set_keeps := by
    intro key v ttl jitter now keyspace keyspace' other h hne
    obtain ⟨-, lifetime, -, rfl⟩ := Redis.set_ok.mp h
    exact .inl (Function.update_of_ne (fun heq => hne (List.append_cancel_left heq)) _ _)
  valid_of_get := by
    intro key now keyspace found h
    obtain ⟨found, hget, -⟩ := map_eq_ok.mp h
    exact Redis.valid_of_get hget
  valid_of_set := by
    intro key v ttl jitter now keyspace keyspace' h
    exact (Redis.set_ok.mp h).1

def mock (b : Mock.MockCacheBackend) : Backend format C Mock.Data Mock.Entry where
  get := Mock.get (loads format) b
  set := Mock.set (dumps format) b
  entry key data := data.lookup (Mock.getTenantKey b.tenantId key)
  text := Mock.Entry.value
  unexpired now entry := now ≤ entry.expiresAt
  evicts key data := b.config.maxEntries <
    if (data.lookup (Mock.getTenantKey b.tenantId key)).isSome then data.length else data.length + 1
  get_of_entry := by
    intro key now data entry v hkey hentry hlive hloads
    rw [decide_eq_true_eq] at hlive
    rw [Mock.get_eq hkey, hentry]
    simp only [if_neg (Int.not_lt.mpr hlive), hloads]
  entry_of_get := by
    intro key now data v data' h
    rw [Mock.get_eq (Mock.valid_of_get h)] at h
    split at h
    · cases h
    · next entry hentry =>
        split at h
        · cases h
        · next hlive =>
            split at h
            · next w hloads =>
                cases h
                exact ⟨entry, hentry, decide_eq_true (Int.not_lt.mp hlive), hloads⟩
            · cases h
  get_keeps := by
    intro key now data found data' other entry h hentry hlive
    rw [decide_eq_true_eq] at hlive
    rw [Mock.get_eq (Mock.valid_of_get h)] at h
    split at h
    · cases h
      exact hentry
    · next expired hexpired =>
        split at h
        · next hpast =>
            cases h
            refine (Dict.lookup_pop_of_ne fun heq => ?_).trans hentry
            rw [heq, hexpired] at hentry
            cases hentry
            exact absurd hlive (Int.not_le.mpr hpast)
        · split at h
          · cases h
            exact hentry
          · cases h
  set_stores := by
    intro key v ttl jitter now data data' h
    obtain ⟨-, lifetime, -, rfl⟩ := Mock.set_ok h
    cases Mock.lookup_evict b.config.maxEntries _ _ with
    | inl hkept => exact .inl ⟨_, hkept.trans Dict.lookup_put_self, rfl⟩
    | inr hevicted =>
        rw [Dict.length_put] at hevicted
        exact .inr ⟨decide_eq_true hevicted.1, hevicted.2⟩
  set_keeps := by
    intro key v ttl jitter now data data' other h hne
    obtain ⟨-, lifetime, -, rfl⟩ := Mock.set_ok h
    cases Mock.lookup_evict b.config.maxEntries _ _ with
    | inl hkept =>
        refine .inl (hkept.trans (Dict.lookup_put_of_ne fun heq => ?_))
        exact hne (List.append_cancel_left heq)
    | inr hevicted =>
        rw [Dict.length_put] at hevicted
        exact .inr ⟨decide_eq_true hevicted.1, hevicted.2⟩
  valid_of_get := fun h => Mock.valid_of_get h
  valid_of_set := fun h => (Mock.set_ok h).1

end Instances

end DualeAI.Memo
