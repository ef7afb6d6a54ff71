import DualeAI.Foundation.Rounding
import DualeAI.Foundation.SqlLike
import DualeAI.Foundation.Transition

/-!
`SQLiteCacheBackend`: tenants that share one database file.

The table maps the primary key to the rest of its row, and an operation is the one
statement it commits; where that fails, the table stays as it was. A row's `writer`
is the tenant that stored it, which the database does not know and no operation
reads.
-/
namespace DualeAI.Cache
open Foundation

/-! ## Keys -/

inductive CacheError where
  | valueError (message : Text)
  | jsonDecodeError
  | overflowError

def maxKeyLength : Nat := 250

/-- `".." in key`. -/
def hasParentReference : Text → Bool
  | [] => false
  | c :: t => c == '.' && t.head? == some '.' || hasParentReference t

def validateCacheKey (key : Text) : Except CacheError Unit :=
  if key.isEmpty then .error (.valueError "Cache key cannot be empty".toList)
  else if maxKeyLength < key.length then
    .error (.valueError "Cache key too long (max 250 characters)".toList)
  else if key.any fun c => c == '\n' || c == '\r' || c == '\x00' then
    .error (.valueError "Cache key contains unsafe characters (newlines, null bytes)".toList)
  else if hasParentReference key || key.head? == some '/' || key.head? == some '\\' then
    .error (.valueError "Cache key cannot contain path traversal patterns".toList)
  else .ok ()

structure CacheConfig where
  maxEntries : Nat := 100000
  ttlJitterEnabled : Bool := true
  ttlJitterFactor : Rat := 1 / 10
  maxEntries_ge : 1000 ≤ maxEntries := by decide
  ttlJitterFactor_nonneg : 0 ≤ ttlJitterFactor := by decide +kernel
  ttlJitterFactor_le : ttlJitterFactor ≤ 1 / 2 := by decide +kernel

instance : Inhabited CacheConfig := ⟨{}⟩

structure SQLiteCacheBackend where
  tenantId : Text
  config : CacheConfig := {}

def tenantPrefix (tenantId : Text) : Text := tenantId ++ [':']

def getTenantKey (tenantId key : Text) : Text := tenantPrefix tenantId ++ key

/-- `scope` is the backend's `_tenant_prefix`. -/
def validateTenantScopedKey (scope tenantId tenantKey : Text) : Except CacheError Unit :=
  if scope.isPrefixOf tenantKey then .ok ()
  else
    .error (.valueError ("Tenant key validation failed: key '".toList ++ tenantKey ++
      "' does not belong to tenant '".toList ++ tenantId ++ "'".toList))

def validateAndScopeKey (scope tenantId key : Text) : Except CacheError Text := do
  validateCacheKey key
  validateTenantScopedKey scope tenantId (scope ++ key)
  return scope ++ key

/-! ## Lifetimes -/

/-- A `timedelta`, in microseconds. -/
abbrev Timedelta := Int

def maxTimedelta : Timedelta := 86399999999999999999

def second : Timedelta := 1000000

def totalSeconds (ttl : Timedelta) : Rat := ttl / 1000000

/-- Whether `_apply_ttl_jitter` scales a lifetime. -/
def jitters (config : CacheConfig) (ttl : Timedelta) : Bool :=
  config.ttlJitterEnabled && second ≤ ttl

/-- `jitter` is what `random.uniform` draws; `timedelta(seconds=...)` rounds to
microseconds. -/
def applyTtlJitter (config : CacheConfig) (jitter : Rat) (ttl : Timedelta) :
    Except CacheError Timedelta :=
  if jitters config ttl then
    let jittered := roundHalfEven (ttl * jitter)
    if maxTimedelta < jittered then .error .overflowError else .ok jittered
  else .ok ttl

/-- The lifetime that `set` gives an entry: a zero `timedelta` is false. -/
def jitteredTtl (config : CacheConfig) (jitter : Rat) (ttl : Option Timedelta) :
    Except CacheError (Option Timedelta) :=
  match ttl.filter (· ≠ 0) with
  | none => .ok none
  | some ttl => (applyTtlJitter config jitter ttl).map some

/-! ## Rows -/

/-- Times are in seconds. -/
structure Row where
  value : Text
  expiresAt : Option Rat
  createdAt : Rat
  writer : Text

def Row.unexpired (now : Rat) (row : Row) : Bool := row.expiresAt.all fun at' => now < at'

abbrev Table := Text → Option Row

/-- The longest pattern, in bytes, that SQLite's `LIKE` accepts. -/
def maxLikePatternLength : Nat := 50000

def clearPattern (tenantId : Text) : Text := tenantPrefix tenantId ++ ['%']

/-- `key LIKE ?` in `clear`; a pattern that is too long fails the statement. -/
def clears (tenantId key : Text) : Bool :=
  (encodeUtf8 (clearPattern tenantId)).length ≤ maxLikePatternLength &&
    like (clearPattern tenantId) key

section Operations
variable {V : Type} (dumps : V → Text) (loads : Text → Option V)

/-- `SELECT value FROM cache` where the key is there and unexpired. -/
def lookup (b : SQLiteCacheBackend) (key : Text) (now : Rat) (table : Table) :
    Except CacheError (Option Row) := do
  let tenantKey ← validateAndScopeKey (tenantPrefix b.tenantId) b.tenantId key
  return (table tenantKey).filter (Row.unexpired now)

def get (b : SQLiteCacheBackend) (key : Text) (now : Rat) (table : Table) :
    Except CacheError (Option V) := do
  match ← lookup b key now table with
  | none => return none
  | some row =>
      match loads row.value with
      | some value => return some value
      | none => throw .jsonDecodeError

def set (b : SQLiteCacheBackend) (key : Text) (value : V) (ttl : Option Timedelta)
    (jitter now : Rat) (table : Table) : Except CacheError Table := do
  let tenantKey ← validateAndScopeKey (tenantPrefix b.tenantId) b.tenantId key
  let ttl ← jitteredTtl b.config jitter ttl
  let row : Row :=
    { value := dumps value
      expiresAt := ttl.map fun ttl => now + totalSeconds ttl
      createdAt := now
      writer := b.tenantId }
  return Function.update table tenantKey (some row)

def delete (b : SQLiteCacheBackend) (key : Text) (table : Table) : Except CacheError Table := do
  let tenantKey ← validateAndScopeKey (tenantPrefix b.tenantId) b.tenantId key
  return Function.update table tenantKey none

def clear (b : SQLiteCacheBackend) (table : Table) : Table :=
  fun key => if clears b.tenantId key then none else table key

def cleanupExpired (now : Rat) (table : Table) : Table :=
  fun key => (table key).filter (Row.unexpired now)

end Operations

theorem jitteredTtl_of_off {config : CacheConfig} (h : config.ttlJitterEnabled = false)
    (jitter : Rat) (ttl : Option Timedelta) :
    jitteredTtl config jitter ttl = .ok (ttl.filter (· ≠ 0)) := by
  rw [jitteredTtl]
  cases ttl.filter (· ≠ 0) with
  | none => rfl
  | some ttl =>
      have hjitters : jitters config ttl = false := by rw [jitters, h, Bool.false_and]
      simp only [applyTtlJitter, hjitters]
      rfl

theorem unexpired_of_le {row : Row} {at' now : Rat} (hle : at' ≤ now)
    (h : row.unexpired now = true) : row.unexpired at' = true := by
  rw [Row.unexpired] at h ⊢
  cases hexpires : row.expiresAt with
  | none => rfl
  | some expiresAt =>
      rw [hexpires] at h
      exact decide_eq_true (hle.trans_lt (of_decide_eq_true h))

/-! ## Accepted keys -/

theorem validateCacheKey_ok {key : Text} :
    validateCacheKey key = .ok () ↔
      key ≠ [] ∧ key.length ≤ maxKeyLength ∧
        ('\n' ∉ key ∧ '\r' ∉ key ∧ '\x00' ∉ key) ∧
        hasParentReference key = false ∧ key.head? ≠ some '/' ∧ key.head? ≠ some '\\' := by
  have hunsafe : (key.any fun c => c == '\n' || c == '\r' || c == '\x00') = true ↔
      ¬ ('\n' ∉ key ∧ '\r' ∉ key ∧ '\x00' ∉ key) := by
    simp only [List.any_eq_true, Bool.or_eq_true, beq_iff_eq]
    grind
  have htraversal : (hasParentReference key || key.head? == some '/' ||
      key.head? == some '\\') = true ↔ ¬ (hasParentReference key = false ∧
        key.head? ≠ some '/' ∧ key.head? ≠ some '\\') := by
    simp only [Bool.or_eq_true, beq_iff_eq]
    grind
  simp only [validateCacheKey, hunsafe, htraversal, List.isEmpty_iff, ← Nat.not_le]
  split
  · next h => simp [h]
  · next hnonempty =>
      split
      · next h => simp [h]
      · next hlength =>
          split
          · next h => simp [h]
          · next hsafe =>
              split
              · next h => simp [h]
              · next hlocal =>
                  exact iff_of_true rfl ⟨hnonempty, not_not.mp hlength, not_not.mp hsafe,
                    not_not.mp hlocal⟩

theorem validateTenantScopedKey_ok (scope tenantId key : Text) :
    validateTenantScopedKey scope tenantId (scope ++ key) = .ok () := by
  have hprefix : scope.isPrefixOf (scope ++ key) = true :=
    List.isPrefixOf_iff_prefix.mpr (List.prefix_append _ _)
  simp [validateTenantScopedKey, hprefix]

/-- An accepted key passes the second check as well. -/
theorem validateAndScopeKey_ok {scope tenantId key tenantKey : Text} :
    validateAndScopeKey scope tenantId key = .ok tenantKey ↔
      validateCacheKey key = .ok () ∧ tenantKey = scope ++ key := by
  rw [validateAndScopeKey]
  cases h : validateCacheKey key with
  | error e => simp [bind, Except.bind]
  | ok _ => simp [bind, Except.bind, validateTenantScopedKey_ok, pure, Except.pure, eq_comm]

/-- An operation on the key that validation scopes. -/
theorem scoped_ok {α : Type} {tenantId key : Text} {f : Text → α} {y : α} :
    (do let tenantKey ← validateAndScopeKey (tenantPrefix tenantId) tenantId key
        return f tenantKey) = (.ok y : Except CacheError α) ↔
      validateCacheKey key = .ok () ∧ y = f (getTenantKey tenantId key) := by
  cases h : validateAndScopeKey (tenantPrefix tenantId) tenantId key with
  | error e =>
      have hkey : validateCacheKey key ≠ .ok () := fun hkey => by
        rw [validateAndScopeKey_ok.mpr ⟨hkey, rfl⟩] at h
        cases h
      simp [bind, Except.bind, hkey]
  | ok tenantKey =>
      obtain ⟨hkey, rfl⟩ := validateAndScopeKey_ok.mp h
      simp [bind, Except.bind, pure, Except.pure, hkey, getTenantKey, eq_comm]

theorem get_eq {V : Type} {loads : Text → Option V} {b : SQLiteCacheBackend} {key : Text}
    (h : validateCacheKey key = .ok ()) (now : Rat) (table : Table) :
    get loads b key now table =
      match (table (getTenantKey b.tenantId key)).filter (Row.unexpired now) with
      | none => .ok none
      | some row =>
          match loads row.value with
          | some value => .ok (some value)
          | none => .error .jsonDecodeError := by
  have hlookup : lookup b key now table =
      .ok ((table (getTenantKey b.tenantId key)).filter (Row.unexpired now)) :=
    scoped_ok.mpr ⟨h, rfl⟩
  rw [get, hlookup]
  rfl

theorem valid_of_get {V : Type} {loads : Text → Option V} {b : SQLiteCacheBackend} {key : Text}
    {now : Rat} {table : Table} {found : Option V} (h : get loads b key now table = .ok found) :
    validateCacheKey key = .ok () := by
  cases hlookup : lookup b key now table with
  | error e =>
      rw [get, hlookup] at h
      cases h
  | ok row => exact (scoped_ok.mp hlookup).1

theorem set_ok {V : Type} {dumps : V → Text} {b : SQLiteCacheBackend} {key : Text} {value : V}
    {ttl : Option Timedelta} {jitter now : Rat} {table table' : Table} :
    set dumps b key value ttl jitter now table = .ok table' ↔
      validateCacheKey key = .ok () ∧ ∃ lifetime, jitteredTtl b.config jitter ttl = .ok lifetime ∧
        table' = Function.update table (getTenantKey b.tenantId key) (some
          ⟨dumps value, lifetime.map fun ttl => now + totalSeconds ttl, now, b.tenantId⟩) := by
  cases hlifetime : jitteredTtl b.config jitter ttl with
  | error e =>
      cases h : validateAndScopeKey (tenantPrefix b.tenantId) b.tenantId key <;>
        simp [set, bind, Except.bind, h, hlifetime]
  | ok lifetime =>
      simp only [Except.ok.injEq, exists_eq_left']
      rw [← scoped_ok (f := fun tenantKey => Function.update table tenantKey (some
        ⟨dumps value, lifetime.map fun ttl => now + totalSeconds ttl, now, b.tenantId⟩))]
      simp only [set, hlifetime]
      rfl

end DualeAI.Cache
