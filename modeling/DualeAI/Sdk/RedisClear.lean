import DualeAI.Sdk.CacheBackends

/-!
`RedisCacheBackend.clear` on a server that others use too.

`SCAN` promises every matching key that is there throughout, and may repeat keys; it
promises no order. The tenant ids are those the SDK derives from its token.
-/
namespace DualeAI.Cache.Redis
open Foundation

/-- The hexadecimal digest of SHA-256. -/
def IsTokenDigest (tenantId : Text) : Prop := tenantId.length = 64 ∧ ∀ c ∈ tenantId, c ∈ hexDigits

/-- What `scan_iter(match=pattern)` may yield. -/
structure Scans (pattern : Text) (keyspace : Keyspace) (scanned : List Text) : Prop where
  complete : ∀ key, (keyspace key).isSome = true → glob pattern key = true → key ∈ scanned
  matching : ∀ key ∈ scanned, glob pattern key = true

/-! ## The pattern -/

theorem ordinary_of_hexDigits : ∀ c ∈ hexDigits, Glob.isOrdinary c = true :=
  List.all_eq_true.mp rfl

theorem ordinary_of_keyNamespace : ∀ c ∈ keyNamespace, Glob.isOrdinary c = true :=
  List.all_eq_true.mp rfl

theorem tenantPrefix_ordinary {tenantId : Text} (h : IsTokenDigest tenantId) :
    ∀ c ∈ tenantPrefix tenantId, Glob.isOrdinary c = true := by
  intro c hc
  rw [tenantPrefix, List.mem_append, List.mem_cons, List.mem_append] at hc
  cases hc with
  | inl hnamespace => exact ordinary_of_keyNamespace c hnamespace
  | inr hc =>
      cases hc with
      | inl hcolon => rw [hcolon]; rfl
      | inr hc =>
          cases hc with
          | inl htenant => exact ordinary_of_hexDigits c (h.2 c htenant)
          | inr hcolon => rw [List.mem_singleton.mp hcolon]; rfl

theorem glob_clearPattern {tenantId key : Text} (h : IsTokenDigest tenantId) :
    glob (clearPattern tenantId) key = true ↔ tenantPrefix tenantId <+: key :=
  glob_ordinary_star (tenantPrefix_ordinary h)

theorem getTenantKey_injective {tenantId other key key' : Text} (h : IsTokenDigest tenantId)
    (hother : IsTokenDigest other) :
    getTenantKey tenantId key = getTenantKey other key' ↔ tenantId = other ∧ key = key' := by
  refine ⟨fun heq => ?_, fun ⟨htenant, hkey⟩ => htenant ▸ hkey ▸ rfl⟩
  simp only [getTenantKey, tenantPrefix, List.append_assoc, List.cons_append] at heq
  have hscoped := List.cons_inj_right _ |>.mp (List.append_cancel_left heq)
  obtain ⟨htenant, hrest⟩ := List.append_inj hscoped (h.1.trans hother.1.symm)
  exact ⟨htenant, (List.cons_inj_right _).mp hrest⟩

/-! ## The batches -/

/-- Every scanned key is deleted in some batch, and no other one is. -/
theorem clearBatches_flatten (scanned tenantKeys : List Text) :
    (clearBatches scanned tenantKeys).flatten = tenantKeys ++ scanned := by
  induction scanned generalizing tenantKeys with
  | nil =>
      cases tenantKeys with
      | nil => rfl
      | cons key keys => simp [clearBatches]
  | cons key scanned ih =>
      rw [clearBatches]
      split
      · rw [List.flatten_cons, ih, List.nil_append, List.append_assoc]
        rfl
      · rw [ih, List.append_assoc]
        rfl

theorem clearBatches_length {scanned tenantKeys : List Text}
    (h : tenantKeys.length < clearBatchSize) :
    ∀ batch ∈ clearBatches scanned tenantKeys,
      1 ≤ batch.length ∧ batch.length ≤ clearBatchSize := by
  induction scanned generalizing tenantKeys with
  | nil =>
      intro batch hbatch
      cases tenantKeys with
      | nil => cases hbatch
      | cons key keys =>
          rw [List.mem_singleton.mp hbatch]
          exact ⟨Nat.succ_pos _, Nat.le_of_lt h⟩
  | cons key scanned ih =>
      have hlonger : (tenantKeys ++ [key]).length = tenantKeys.length + 1 := List.length_append
      intro batch hbatch
      rw [clearBatches] at hbatch
      split at hbatch
      · next hfull =>
          cases List.mem_cons.mp hbatch with
          | inl hfirst =>
              rw [hfirst]
              omega
          | inr hlater => exact ih (by decide) batch hlater
      · exact ih (by omega) batch hbatch

theorem foldl_del (batches : List (List Text)) (keyspace : Keyspace) (key : Text) :
    batches.foldl (fun keyspace keys => del keys keyspace) keyspace key =
      if key ∈ batches.flatten then none else keyspace key := by
  induction batches generalizing keyspace with
  | nil => rfl
  | cons batch batches ih =>
      rw [List.foldl_cons, ih, List.flatten_cons, del]
      by_cases hlater : key ∈ batches.flatten
      · simp [hlater]
      · simp [hlater]

theorem clear_eq (scanned : List Text) (keyspace : Keyspace) (key : Text) :
    clear scanned keyspace key = if key ∈ scanned then none else keyspace key := by
  rw [clear, foldl_del, clearBatches_flatten, List.nil_append]

/-- `clear` deletes the tenant's keys and no others, in batches that are neither
empty nor too large, and no other tenant has a key of this one. -/
theorem clear_deletes_tenant {tenantId : Text} {keyspace : Keyspace} {scanned : List Text}
    (htenant : IsTokenDigest tenantId) (hscan : Scans (clearPattern tenantId) keyspace scanned) :
    (∀ key, clear scanned keyspace key =
      if (tenantPrefix tenantId).isPrefixOf key then none else keyspace key) ∧
    (∀ batch ∈ clearBatches scanned [], 1 ≤ batch.length ∧ batch.length ≤ 500) ∧
    ∀ other key key', IsTokenDigest other →
      (getTenantKey tenantId key = getTenantKey other key' ↔ tenantId = other ∧ key = key') := by
  refine ⟨fun key => ?_, clearBatches_length (by decide),
    fun other key key' hother => getTenantKey_injective htenant hother⟩
  rw [clear_eq]
  have hpattern : glob (clearPattern tenantId) key = true ↔
      (tenantPrefix tenantId).isPrefixOf key = true :=
    (glob_clearPattern htenant).trans List.isPrefixOf_iff_prefix.symm
  cases hkey : (tenantPrefix tenantId).isPrefixOf key with
  | true =>
      -- a key that the scan leaves out was not there
      by_cases hmem : key ∈ scanned
      · simp [hmem]
      · have hgone : keyspace key = none := by
          refine Option.not_isSome_iff_eq_none.mp fun hthere => hmem ?_
          exact hscan.complete key hthere (hpattern.mpr hkey)
        simp [hmem, hgone]
  | false =>
      have hmem : key ∉ scanned := fun hmem => by
        have htrue := hpattern.mp (hscan.matching key hmem)
        rw [hkey] at htrue
        cases htrue
      simp [hmem]

def digest : Text := List.replicate 64 'a'

def shared : Keyspace := fun key =>
  if key = getTenantKey digest "k".toList ∨ key = "session:1".toList then some ⟨"1".toList, none⟩
  else none

/-- The scan repeats the tenant's one key. -/
theorem clear_deletes_tenant_shared :
    clear [getTenantKey digest "k".toList, getTenantKey digest "k".toList] shared
        "session:1".toList = some ⟨"1".toList, none⟩ ∧
      clear [getTenantKey digest "k".toList, getTenantKey digest "k".toList] shared
        (getTenantKey digest "k".toList) = none := by
  have hdigest : IsTokenDigest digest := by
    refine ⟨rfl, fun c hc => ?_⟩
    rw [List.eq_of_mem_replicate hc]
    decide
  have hglob : glob (clearPattern digest) (getTenantKey digest "k".toList) = true :=
    (glob_clearPattern hdigest).mpr (List.prefix_append _ _)
  have hscan : Scans (clearPattern digest) shared
      [getTenantKey digest "k".toList, getTenantKey digest "k".toList] := by
    refine ⟨fun key hkey hmatch => ?_,
      List.forall_mem_cons.mpr ⟨hglob, List.forall_mem_singleton.mpr hglob⟩⟩
    by_cases hk : key = getTenantKey digest "k".toList
    · exact List.mem_cons.mpr (.inl hk)
    · by_cases hsession : key = "session:1".toList
      · rw [hsession, glob_clearPattern hdigest] at hmatch
        exact absurd hmatch (by decide +kernel)
      · rw [shared, if_neg (not_or.mpr ⟨hk, hsession⟩)] at hkey
        cases hkey
  have hclear := (clear_deletes_tenant hdigest hscan).1
  rw [hclear, hclear]
  exact ⟨rfl, rfl⟩

end DualeAI.Cache.Redis
