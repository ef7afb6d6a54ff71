import DualeAI.Sdk.SqliteCache

/-!
When tenants on one database file are isolated from each other.

A tenant gets at another one's rows in two ways: an id that is the other one
followed by a colon scopes keys the other one can scope as well, and `clear`
reads its own id as a pattern.
-/
namespace DualeAI.Cache
open Foundation

inductive Operation (V : Type) where
  | get (key : Text)
  | set (key : Text) (value : V) (ttl : Option Timedelta) (jitter : Rat)
  | delete (key : Text)
  | clear
  | cleanupExpired

structure Action (V : Type) where
  backend : SQLiteCacheBackend
  now : Rat
  operation : Operation V

abbrev Action.tenantId {V : Type} (x : Action V) : Text := x.backend.tenantId

section Isolation
variable {V : Type} (dumps : V → Text)

/-- An operation that raises leaves the table as it was. -/
def perform (x : Action V) (table : Table) : Table :=
  match x.operation with
  | .get _ => table
  | .set key value ttl jitter =>
      match set dumps x.backend key value ttl jitter x.now table with
      | .ok table => table
      | .error _ => table
  | .delete key =>
      match delete x.backend key table with
      | .ok table => table
      | .error _ => table
  | .clear => clear x.backend table
  | .cleanupExpired => cleanupExpired x.now table

def step (table : Table) (x : Action V) : Option Table := some (perform dumps x table)

/-- The operation neither returns, changes nor deletes what another tenant wrote and
has not expired. -/
structure Respects (x : Action V) (table : Table) : Prop where
  returned : ∀ key row, x.operation = .get key →
    lookup x.backend key x.now table = .ok (some row) → row.writer = x.tenantId
  kept : ∀ key row, table key = some row → row.writer ≠ x.tenantId →
    row.unexpired x.now = true → perform dumps x table key = some row

/-- Two tenants on one file, however their operations interleave. -/
def Isolated (a b : Text) : Prop :=
  ∀ past table, Run (step dumps) (fun _ => none) past table →
    (∀ x ∈ past, x.tenantId = a ∨ x.tenantId = b) →
      ∀ x : Action V, x.tenantId = a ∨ x.tenantId = b → Respects dumps x table

/-- `b` is `a`, a colon, and what a key may begin with. -/
def Extends (a b : Text) : Prop :=
  ∃ w, b = a ++ ':' :: w ∧ validateCacheKey (w ++ [':', 'x']) = .ok ()

/-- `a` clears a key that `b` can write. -/
def ClearsKeyOf (a b : Text) : Prop :=
  ∃ key, validateCacheKey key = .ok () ∧ clears a (getTenantKey b key) = true

structure Separate (a b : Text) : Prop where
  extends_left : ¬ Extends a b
  extends_right : ¬ Extends b a
  clears_left : ¬ ClearsKeyOf a b
  clears_right : ¬ ClearsKeyOf b a

theorem Separate.symm {a b : Text} (h : Separate a b) : Separate b a :=
  ⟨h.extends_right, h.extends_left, h.clears_right, h.clears_left⟩

/-! ## Scoped keys -/

theorem hasParentReference_append (w u : Text) :
    hasParentReference (w ++ ':' :: u) = (hasParentReference w || hasParentReference u) := by
  induction w with
  | nil => rfl
  | cons c w ih =>
      simp only [List.cons_append, hasParentReference, ih, Bool.or_assoc]
      congr 2
      cases w <;> rfl

theorem head?_append_colon (w u : Text) : (w ++ ':' :: u).head? = (w ++ [':']).head? := by
  cases w <;> rfl

/-- What comes before a colon in an accepted key may come before another end. -/
theorem validateCacheKey_shorten {w key : Text} (hkey : key ≠ [])
    (h : validateCacheKey (w ++ ':' :: key) = .ok ()) :
    validateCacheKey (w ++ [':', 'x']) = .ok () := by
  rw [validateCacheKey_ok] at h ⊢
  obtain ⟨-, hlength, hsafe, hlocal, hhead⟩ := h
  have hpos := List.length_pos_iff.mpr hkey
  rw [hasParentReference_append, Bool.or_eq_false_iff] at hlocal
  rw [head?_append_colon] at hhead
  refine ⟨by simp, ?_, ?_, ?_, ?_⟩
  · simp only [List.length_append, List.length_cons, List.length_nil] at hlength ⊢
    omega
  · simp only [List.mem_append, List.mem_cons] at hsafe ⊢
    grind
  · rw [hasParentReference_append, hlocal.1]
    rfl
  · rw [head?_append_colon]
    exact hhead

theorem getTenantKey_eq (tenantId key : Text) :
    getTenantKey tenantId key = tenantId ++ ':' :: key := by
  simp [getTenantKey, tenantPrefix]

/-- Two tenants scope a key in common just where one id extends the other. -/
theorem collide_iff {a b : Text} (hne : a ≠ b) :
    (∃ k k', validateCacheKey k = .ok () ∧ validateCacheKey k' = .ok () ∧
      getTenantKey a k = getTenantKey b k') ↔ Extends a b ∨ Extends b a := by
  have hextends {a b k k' : Text} (hne : a ≠ b) (hk : validateCacheKey k = .ok ())
      (hk' : validateCacheKey k' = .ok ()) {c : Text} (hb : b = a ++ c)
      (hrest : ':' :: k = c ++ ':' :: k') : Extends a b := by
    cases c with
    | nil => exact absurd (hb.trans (List.append_nil a)).symm hne
    | cons d w =>
        cases hrest
        exact ⟨w, hb, validateCacheKey_shorten (validateCacheKey_ok.mp hk').1 hk⟩
  have hcollide {a b : Text} (h : Extends a b) :
      ∃ k k', validateCacheKey k = .ok () ∧ validateCacheKey k' = .ok () ∧
        getTenantKey a k = getTenantKey b k' := by
    obtain ⟨w, rfl, hw⟩ := h
    refine ⟨w ++ [':', 'x'], ['x'], hw, rfl, ?_⟩
    simp [getTenantKey_eq]
  constructor
  · rintro ⟨k, k', hk, hk', heq⟩
    rw [getTenantKey_eq, getTenantKey_eq] at heq
    rcases List.append_eq_append_iff.mp heq with ⟨c, hb, hrest⟩ | ⟨c, ha, hrest⟩
    · exact .inl (hextends hne hk hk' hb hrest)
    · exact .inr (hextends hne.symm hk' hk ha hrest)
  · rintro (h | h)
    · exact hcollide h
    · obtain ⟨k, k', hk, hk', heq⟩ := hcollide h
      exact ⟨k', k, hk', hk, heq.symm⟩

/-! ## Ids of one length -/

/-- Ids of one length that `LIKE` tells apart, such as distinct UUIDs. -/
theorem separate_of_length_eq {a b : Text} (hlength : a.length = b.length)
    (ha : '%' ∉ a ∧ '_' ∉ a ∧ '\x00' ∉ a) (hb : '%' ∉ b ∧ '_' ∉ b ∧ '\x00' ∉ b)
    (hfold : a.map likeFold ≠ b.map likeFold) : Separate a b := by
  have hextends {a b : Text} (hlength : a.length = b.length) : ¬ Extends a b := by
    rintro ⟨w, rfl, -⟩
    simp at hlength
  have hclears {a b : Text} (hlength : a.length = b.length)
      (ha : '%' ∉ a ∧ '_' ∉ a ∧ '\x00' ∉ a) (hb : '\x00' ∉ b)
      (hfold : a.map likeFold ≠ b.map likeFold) : ¬ ClearsKeyOf a b := by
    rintro ⟨key, hkey, hclears⟩
    have hsafe := (validateCacheKey_ok.mp hkey).2.2.1.2.2
    have hlike := (Bool.and_eq_true_iff.mp hclears).2
    rw [like, cText_eq (by simp [clearPattern, tenantPrefix, ha]),
      cText_eq (by simp [getTenantKey_eq, hb, hsafe]), clearPattern,
      likeMatch_append_percent] at hlike
    obtain ⟨u, v, hkey, hmatch⟩ := hlike
    rw [likeMatch_literal (by simp [tenantPrefix, ha]) (by simp [tenantPrefix, ha])] at hmatch
    have hu : tenantPrefix b = u := by
      refine List.append_inj_left hkey ?_
      have hsame := congrArg List.length hmatch
      simp only [List.length_map, tenantPrefix, List.length_append] at hsame ⊢
      omega
    rw [← hu, tenantPrefix, tenantPrefix, List.map_append, List.map_append] at hmatch
    exact hfold (List.append_inj_left' hmatch rfl)
  exact ⟨hextends hlength, hextends hlength.symm, hclears hlength ha hb.2.2 hfold,
    hclears hlength.symm hb ha.2.2 hfold.symm⟩

/-! ## Runs -/

/-- Every row is one that a tenant of the run stored, under a key of its own. -/
def Owned (past : List (Action V)) (table : Table) : Prop :=
  ∀ key row, table key = some row → (∃ x ∈ past, x.tenantId = row.writer) ∧
    ∃ k, validateCacheKey k = .ok () ∧ key = getTenantKey row.writer k

theorem Owned.mono {past : List (Action V)} {table table' : Table} (h : Owned past table)
    (hless : ∀ key row, table' key = some row → table key = some row) (x : Action V) :
    Owned (past ++ [x]) table' := by
  intro key row hrow
  obtain ⟨⟨y, hmem, hwriter⟩, hkey⟩ := h key row (hless key row hrow)
  exact ⟨⟨y, List.mem_append_left _ hmem, hwriter⟩, hkey⟩

theorem update_none_less {table : Table} {tenantKey key : Text} {row : Row}
    (h : Function.update table tenantKey none key = some row) : table key = some row := by
  by_cases heq : key = tenantKey
  · subst heq
    rw [Function.update_self] at h
    cases h
  · rwa [Function.update_of_ne heq] at h

/-- Step: rows stay with the keys of their writers. -/
theorem Owned.perform {past : List (Action V)} {table : Table} (h : Owned past table)
    (x : Action V) : Owned (past ++ [x]) (perform dumps x table) := by
  rw [Cache.perform]
  cases hop : x.operation with
  | get key => exact h.mono (fun _ _ hrow => hrow) x
  | set key value ttl jitter =>
      dsimp only
      split
      · next table' hset =>
          obtain ⟨hkey, lifetime, -, rfl⟩ := set_ok.mp hset
          intro key' row hrow
          by_cases heq : key' = getTenantKey x.tenantId key
          · subst heq
            rw [Function.update_self] at hrow
            cases hrow
            exact ⟨⟨x, List.mem_append_right _ (List.mem_singleton_self x), rfl⟩, key, hkey, rfl⟩
          · rw [Function.update_of_ne heq] at hrow
            exact h.mono (fun _ _ hrow => hrow) x key' row hrow
      · exact h.mono (fun _ _ hrow => hrow) x
  | delete key =>
      dsimp only
      split
      · next table' hdelete =>
          obtain ⟨-, rfl⟩ := scoped_ok.mp hdelete
          exact h.mono (fun _ _ => update_none_less) x
      · exact h.mono (fun _ _ hrow => hrow) x
  | clear =>
      refine h.mono (fun key row hrow => ?_) x
      dsimp only [clear] at hrow
      split at hrow
      · cases hrow
      · exact hrow
  | cleanupExpired =>
      exact h.mono (fun key row hrow => (Option.filter_eq_some_iff.mp hrow).1) x

theorem owned_of_run {past : List (Action V)} {table : Table}
    (h : Run (step dumps) (fun _ => none) past table) : Owned past table := by
  refine h.invariant (I := Owned) (fun key row hrow => by cases hrow) ?_
  intro past table x table' howned hstep
  cases hstep
  exact howned.perform dumps x

/-- Frame: an unexpired row that a tenant neither addresses nor clears stays. -/
theorem perform_frame {x : Action V} {table : Table} {key : Text} {row : Row}
    (hrow : table key = some row) (hlive : row.unexpired x.now = true)
    (hkey : ∀ k, validateCacheKey k = .ok () → key ≠ getTenantKey x.tenantId k)
    (hclears : clears x.tenantId key = false) : perform dumps x table key = some row := by
  rw [perform]
  cases hop : x.operation with
  | get k => exact hrow
  | set k value ttl jitter =>
      cases hset : set dumps x.backend k value ttl jitter x.now table with
      | error e => simpa only [hset] using hrow
      | ok table' =>
          obtain ⟨hk, lifetime, -, rfl⟩ := set_ok.mp hset
          simp only [hset]
          rw [Function.update_of_ne (hkey k hk)]
          exact hrow
  | delete k =>
      cases hdelete : delete x.backend k table with
      | error e => simpa only [hdelete] using hrow
      | ok table' =>
          obtain ⟨hk, rfl⟩ := scoped_ok.mp hdelete
          simp only [hdelete]
          rw [Function.update_of_ne (hkey k hk)]
          exact hrow
  | clear => simp only [clear, hclears, Bool.false_eq_true, if_false, hrow]
  | cleanupExpired =>
      dsimp only [cleanupExpired]
      rw [hrow, Option.filter_some, if_pos hlive]

theorem Separate.respects {a b : Text} (h : Separate a b) (hne : a ≠ b) {past : List (Action V)}
    {table : Table} (howned : Owned past table)
    (hpast : ∀ y ∈ past, y.tenantId = a ∨ y.tenantId = b) {x : Action V} (hx : x.tenantId = a) :
    Respects dumps x table := by
  have hother {key : Text} {row : Row} (hrow : table key = some row)
      (hwriter : row.writer ≠ x.tenantId) :
      ∃ k, validateCacheKey k = .ok () ∧ key = getTenantKey b k := by
    obtain ⟨⟨y, hmem, hsame⟩, k, hk, rfl⟩ := howned key row hrow
    cases hpast y hmem with
    | inl hy => exact absurd (hsame.symm.trans (hy.trans hx.symm)) hwriter
    | inr hy => exact ⟨k, hk, by rw [← hsame, hy]⟩
  have hdisjoint {k k' : Text} (hk : validateCacheKey k = .ok ())
      (hk' : validateCacheKey k' = .ok ()) : getTenantKey a k ≠ getTenantKey b k' := by
    intro heq
    cases (collide_iff hne).mp ⟨k, k', hk, hk', heq⟩ with
    | inl hextends => exact h.extends_left hextends
    | inr hextends => exact h.extends_right hextends
  refine ⟨fun key row hget hlookup => ?_, fun key row hrow hwriter hlive => ?_⟩
  · obtain ⟨hkey, hfound⟩ := scoped_ok.mp hlookup
    by_contra hwriter
    obtain ⟨k, hk, heq⟩ := hother (Option.filter_eq_some_iff.mp hfound.symm).1 hwriter
    exact hdisjoint hkey hk (hx ▸ heq)
  · obtain ⟨k, hk, rfl⟩ := hother hrow hwriter
    refine perform_frame dumps hrow hlive (fun k' hk' heq => ?_) ?_
    · rw [hx] at heq
      exact hdisjoint hk' hk heq.symm
    · rw [hx, Bool.eq_false_iff]
      exact fun hclears => h.clears_left ⟨k, hk, hclears⟩

/-! ## Leaks -/

theorem Isolated.symm {a b : Text} (h : Isolated dumps a b) : Isolated dumps b a :=
  fun past table hrun hpast x hx => h past table hrun (fun y hy => (hpast y hy).symm) x hx.symm

/-- A tenant can store a row under any accepted key. -/
theorem stores (b : Text) {key : Text} (hkey : validateCacheKey key = .ok ()) (value : V) :
    ∃ x row, x.tenantId = b ∧ row.writer = b ∧ row.unexpired 0 = true ∧
      Run (step dumps) (fun _ => none) [x]
        (Function.update (fun _ => none) (getTenantKey b key) (some row)) := by
  let x : Action V := ⟨⟨b, {}⟩, 0, .set key value none 0⟩
  let row : Row := ⟨dumps value, none, 0, b⟩
  refine ⟨x, row, rfl, rfl, rfl, .single ?_⟩
  have hset : set dumps x.backend key value none 0 0 (fun _ => none) =
      .ok (Function.update (fun _ => none) (getTenantKey b key) (some row)) :=
    set_ok.mpr ⟨hkey, none, rfl, rfl⟩
  simp only [step, perform, x, hset]

variable {dumps}

theorem Isolated.disjoint [Inhabited V] {a b : Text} (h : Isolated dumps a b) (hne : a ≠ b) :
    ¬ ∃ k k', validateCacheKey k = .ok () ∧ validateCacheKey k' = .ok () ∧
      getTenantKey a k = getTenantKey b k' := by
  rintro ⟨k, k', hk, hk', heq⟩
  obtain ⟨y, row, hy, hwriter, hlive, hrun⟩ := stores dumps b hk' default
  have hrespects := h _ _ hrun (by simp [hy]) ⟨⟨a, {}⟩, 0, .get k⟩ (.inl rfl)
  have hlookup : lookup ⟨a, {}⟩ k 0
      (Function.update (fun _ => none) (getTenantKey b k') (some row)) = .ok (some row) := by
    refine scoped_ok.mpr ⟨hk, ?_⟩
    rw [heq, Function.update_self, Option.filter_some, if_pos hlive]
  exact hne ((hrespects.returned k row rfl hlookup).symm.trans hwriter)

theorem Isolated.not_clears [Inhabited V] {a b : Text} (h : Isolated dumps a b) (hne : a ≠ b) :
    ¬ ClearsKeyOf a b := by
  rintro ⟨key, hkey, hclears⟩
  obtain ⟨y, row, hy, hwriter, hlive, hrun⟩ := stores dumps b hkey default
  have hrespects := h _ _ hrun (by simp [hy]) ⟨⟨a, {}⟩, 0, .clear⟩ (.inl rfl)
  have hkept := hrespects.kept (getTenantKey b key) row (Function.update_self _ _ _)
    (fun heq => hne (heq.symm.trans hwriter)) hlive
  simp [perform, clear, hclears] at hkept

theorem Isolated.separate [Inhabited V] {a b : Text} (h : Isolated dumps a b) (hne : a ≠ b) :
    Separate a b := by
  have hdisjoint := (collide_iff hne).not.mp (h.disjoint hne)
  rw [not_or] at hdisjoint
  exact ⟨hdisjoint.1, hdisjoint.2, h.not_clears hne, (h.symm dumps).not_clears hne.symm⟩

variable (dumps)

/-- `json.dumps` of a text that needs no escapes. -/
def quoted (value : Text) : Text := '"' :: (value ++ ['"'])

/-- `clear` of one tenant deletes what the other stored: the ids differ in case. -/
theorem tenants_not_isolated : ¬ ∀ a b : Text, a ≠ b → Isolated quoted a b := by
  intro h
  refine (h "acme".toList "ACME".toList (by decide)).not_clears (by decide) ⟨['k'], rfl, ?_⟩
  decide +kernel

/-- Two tenants are isolated in every run just where neither id extends the other
and neither clears a key of the other. -/
theorem tenants_isolated_iff [Inhabited V] {a b : Text} (hne : a ≠ b) :
    Isolated dumps a b ↔ Separate a b := by
  refine ⟨fun h => h.separate hne, fun h past table hrun hpast x hx => ?_⟩
  have howned := owned_of_run dumps hrun
  rcases hx with hx | hx
  · exact h.respects dumps hne howned hpast hx
  · exact h.symm.respects dumps hne.symm howned (fun y hy => (hpast y hy).symm) hx

theorem tenants_isolated_numbered : Isolated quoted "tenant-1".toList "tenant-2".toList := by
  refine (tenants_isolated_iff quoted (by decide)).mpr ?_
  exact separate_of_length_eq (by decide) (by decide) (by decide) (by decide +kernel)

end Isolation

end DualeAI.Cache
