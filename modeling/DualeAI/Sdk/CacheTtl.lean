import DualeAI.Sdk.CacheBackends
import Mathlib.Tactic.Linarith
import Mathlib.Tactic.Push

/-!
When the three cache backends honour a lifetime.

An entry should be gone by the end of its lifetime, lengthened at most by the jitter
factor. A zero lifetime counts as none at all, and Redis keeps what lasts for less
than a second forever. A negative lifetime ends before the factor allows.
-/
namespace DualeAI.Cache
open Foundation

/-- What `random.uniform` may draw. -/
def Draws (config : CacheConfig) (jitter : Rat) : Prop :=
  1 - config.ttlJitterFactor ≤ jitter ∧ jitter ≤ 1 + config.ttlJitterFactor

/-- The longest lifetime that the jitter factor allows, in microseconds. -/
def longest (config : CacheConfig) (ttl : Timedelta) : Rat := (1 + config.ttlJitterFactor) * ttl

def ExpiresBy (limit : Rat) (expiresAt : Option Rat) : Prop := ∃ at' ∈ expiresAt, at' ≤ limit

/-- The lifetime under a drawn factor. -/
def lifetime (config : CacheConfig) (jitter : Rat) (ttl : Timedelta) : Timedelta :=
  if jitters config ttl then roundHalfEven (ttl * jitter) else ttl

/-- Rounding to microseconds, which comes with the jitter, goes down or stays within
the factor. -/
def Bounded (config : CacheConfig) (jitter : Rat) (ttl : Timedelta) : Prop :=
  jitters config ttl = true → ⌈ttl * jitter⌉ ≤ longest config ttl ∨
    roundHalfEven (ttl * jitter) = ⌊ttl * jitter⌋

/-- Where SQLite and the mock honour a lifetime. -/
def Honoured (config : CacheConfig) (jitter : Rat) (ttl : Timedelta) : Prop :=
  0 < ttl ∧ Bounded config jitter ttl ∨ ttl < 0 ∧ config.ttlJitterFactor = 0

/-- Where Redis does, which counts whole seconds. -/
def HonouredInSeconds (config : CacheConfig) (jitter : Rat) (ttl : Timedelta) : Prop :=
  second ≤ lifetime config jitter ttl ∧
    (Bounded config jitter ttl ∨ ¬ second ∣ lifetime config jitter ttl)

variable {config : CacheConfig} {jitter : Rat} {ttl : Timedelta}

theorem not_expiresBy_none {limit : Rat} : ¬ ExpiresBy limit none := by
  rintro ⟨at', hmem, -⟩
  cases hmem

theorem expiresBy_some {limit at' : Rat} : ExpiresBy limit (some at') ↔ at' ≤ limit := by
  simp [ExpiresBy]

theorem not_honoured_zero : ¬ Honoured config jitter 0 := by
  rintro (⟨hpos, -⟩ | ⟨hneg, -⟩)
  · exact lt_irrefl _ hpos
  · exact lt_irrefl _ hneg

theorem lifetime_zero : lifetime config jitter 0 = 0 := by
  have hjitters : ¬ jitters config 0 = true := fun h => by
    simp only [jitters, Bool.and_eq_true, decide_eq_true_eq] at h
    exact absurd h.2 (by decide)
  exact if_neg hjitters

theorem jitteredTtl_some (h : ttl ≠ 0) :
    jitteredTtl config jitter (some ttl) =
      if jitters config ttl ∧ maxTimedelta < lifetime config jitter ttl then .error .overflowError
      else .ok (some (lifetime config jitter ttl)) := by
  have hfilter : (some ttl).filter (· ≠ 0) = some ttl := by simp [h]
  rw [jitteredTtl, hfilter]
  by_cases hjitters : jitters config ttl = true
  · by_cases hover : maxTimedelta < roundHalfEven (ttl * jitter)
    · simp [applyTtlJitter, lifetime, hjitters, hover, Except.map]
    · simp [applyTtlJitter, lifetime, hjitters, hover, Except.map]
  · simp [applyTtlJitter, lifetime, hjitters, Except.map]

theorem jitteredTtl_ok {stored : Option Timedelta} (h : ttl ≠ 0)
    (hstored : jitteredTtl config jitter (some ttl) = .ok stored) :
    stored = some (lifetime config jitter ttl) := by
  rw [jitteredTtl_some h] at hstored
  split at hstored
  · cases hstored
  · cases hstored
    rfl

theorem le_longest (h : 0 ≤ ttl) : (ttl : Rat) ≤ longest config ttl := by
  have hfactor := config.ttlJitterFactor_nonneg
  have hcast : (0 : Rat) ≤ ttl := by exact_mod_cast h
  rw [longest]
  nlinarith

theorem pos_of_jitters (h : jitters config ttl = true) : 0 < ttl := by
  simp only [jitters, Bool.and_eq_true, decide_eq_true_eq] at h
  exact lt_of_lt_of_le (by decide : (0 : Int) < second) h.2

theorem mul_le_longest (hdraw : Draws config jitter) (h : jitters config ttl = true) :
    ttl * jitter ≤ longest config ttl := by
  have hpos : (0 : Rat) < ttl := by exact_mod_cast pos_of_jitters h
  rw [longest, mul_comm]
  exact mul_le_mul_of_nonneg_right hdraw.2 (le_of_lt hpos)

theorem bounded_iff (hdraw : Draws config jitter) :
    Bounded config jitter ttl ↔
      (jitters config ttl = true → roundHalfEven (ttl * jitter) ≤ longest config ttl) :=
  forall_congr' fun h => (roundHalfEven_le_iff (mul_le_longest hdraw h)).symm

theorem lifetime_le_iff (hdraw : Draws config jitter) (h : ttl ≠ 0) :
    (lifetime config jitter ttl : Rat) ≤ longest config ttl ↔ Honoured config jitter ttl := by
  cases lt_or_gt_of_ne h with
  | inl hneg =>
      have hjitters : ¬ jitters config ttl = true :=
        fun hj => lt_asymm hneg (pos_of_jitters hj)
      have hcast : (ttl : Rat) < 0 := by exact_mod_cast hneg
      have hfactor := config.ttlJitterFactor_nonneg
      rw [lifetime, if_neg hjitters, longest]
      constructor
      · intro hle
        refine .inr ⟨hneg, le_antisymm ?_ hfactor⟩
        nlinarith
      · rintro (⟨hpos, -⟩ | ⟨-, hzero⟩)
        · exact absurd hpos (lt_asymm hneg)
        · rw [hzero]
          linarith
  | inr hpos =>
      have hcases : Honoured config jitter ttl ↔ Bounded config jitter ttl := by
        rw [Honoured]
        constructor
        · rintro (⟨-, hbounded⟩ | ⟨hneg, -⟩)
          · exact hbounded
          · exact absurd hpos (lt_asymm hneg)
        · exact fun hbounded => .inl ⟨hpos, hbounded⟩
      rw [hcases, lifetime, bounded_iff hdraw]
      by_cases hjitters : jitters config ttl = true
      · rw [if_pos hjitters]
        exact ⟨fun hle _ => hle, fun hbounded => hbounded hjitters⟩
      · rw [if_neg hjitters]
        exact iff_of_true (le_longest (le_of_lt hpos)) fun hj => absurd hj hjitters

theorem seconds_le (t : Timedelta) (h : 0 ≤ t) : t.tdiv second * second ≤ t := by
  rw [Int.tdiv_eq_ediv_of_nonneg h]
  exact Int.ediv_mul_le t (by decide)

/-- Whole seconds pass the factor only where the microseconds are rounded up to them. -/
theorem seconds_le_iff (hdraw : Draws config jitter) (h : second ≤ lifetime config jitter ttl) :
    (((lifetime config jitter ttl).tdiv second * second : Int) : Rat) ≤ longest config ttl ↔
      Bounded config jitter ttl ∨ ¬ second ∣ lifetime config jitter ttl := by
  have hnonneg : 0 ≤ lifetime config jitter ttl := le_trans (by decide) h
  have hseconds := seconds_le _ hnonneg
  have hcast : (((lifetime config jitter ttl).tdiv second * second : Int) : Rat) ≤
      lifetime config jitter ttl := by exact_mod_cast hseconds
  by_cases hjitters : jitters config ttl = true
  · have hrounded : lifetime config jitter ttl = roundHalfEven (ttl * jitter) := if_pos hjitters
    constructor
    · intro hle
      by_cases hdvd : second ∣ lifetime config jitter ttl
      · left
        rw [bounded_iff hdraw]
        intro _
        rw [← hrounded, ← Int.tdiv_mul_cancel hdvd]
        exact hle
      · exact .inr hdvd
    · rintro (hbounded | hdvd)
      · have hbound := (bounded_iff hdraw).mp hbounded hjitters
        rw [← hrounded] at hbound
        exact hcast.trans hbound
      · -- the seconds stay below the first integer past the factor
        have hceil : lifetime config jitter ttl ≤ ⌈longest config ttl⌉ := by
          rw [hrounded]
          exact roundHalfEven_le_of_le ((mul_le_longest hdraw hjitters).trans (Int.le_ceil _))
        have hlt : (lifetime config jitter ttl).tdiv second * second <
            lifetime config jitter ttl := by
          refine lt_of_le_of_ne hseconds fun heq => hdvd ?_
          rw [← heq]
          exact Int.dvd_mul_left _ _
        have hbelow : (lifetime config jitter ttl).tdiv second * second ≤
            ⌈longest config ttl⌉ - 1 := Int.le_sub_one_of_lt (lt_of_lt_of_le hlt hceil)
        have hbelow : (((lifetime config jitter ttl).tdiv second * second : Int) : Rat) ≤
            (⌈longest config ttl⌉ - 1 : Int) := by exact_mod_cast hbelow
        have hup := Int.ceil_lt_add_one (longest config ttl)
        push_cast at hbelow ⊢
        linarith
  · have hsame : lifetime config jitter ttl = ttl := if_neg hjitters
    refine iff_of_true (hcast.trans ?_) (.inl fun hj => absurd hj hjitters)
    rw [hsame] at hnonneg ⊢
    exact le_longest hnonneg

theorem expireSeconds_of_le {t : Timedelta} (h : second ≤ t) :
    Redis.expireSeconds (some t) = some (t.tdiv second) := by
  have hpos : 0 < t.tdiv second := by
    rw [Int.tdiv_eq_ediv_of_nonneg (le_trans (by decide) h)]
    exact (Int.le_ediv_iff_mul_le (by decide)).mpr h
  rw [Redis.expireSeconds, Option.map_some, Option.filter_some, if_pos (decide_eq_true hpos)]

theorem expireSeconds_of_lt {t : Timedelta} (h : t < second) :
    Redis.expireSeconds (some t) = none := by
  have hnonpos : ¬ 0 < t.tdiv second := by
    rw [not_lt]
    cases le_total 0 t with
    | inl hnonneg => exact le_of_eq (Int.tdiv_eq_zero_of_lt hnonneg h)
    | inr hneg =>
        rw [← neg_neg t, Int.neg_tdiv]
        exact neg_nonpos.mpr (Int.tdiv_nonneg (neg_nonneg.mpr hneg) (by decide))
  rw [Redis.expireSeconds, Option.map_some, Option.filter_some,
    if_neg (by rw [decide_eq_true_eq]; exact hnonpos)]

section Backends
variable {V : Type} {dumps : V → Text} {tenantId key : Text} {value : V}

theorem sqlite_honours_iff (hdraw : Draws config jitter) {now : Rat} {table table' : Table}
    (hset : set dumps ⟨tenantId, config⟩ key value (some ttl) jitter now table = .ok table') :
    (∃ row ∈ table' (getTenantKey tenantId key),
        ExpiresBy (now + longest config ttl / 1000000) row.expiresAt) ↔
      Honoured config jitter ttl := by
  obtain ⟨-, stored, hstored, rfl⟩ := set_ok.mp hset
  simp only [Function.update_self, Option.mem_def, Option.some.injEq, exists_eq_left']
  by_cases hzero : ttl = 0
  · subst hzero
    cases hstored
    exact iff_of_false not_expiresBy_none not_honoured_zero
  · rw [jitteredTtl_ok hzero hstored, ← lifetime_le_iff hdraw hzero, Option.map_some,
      expiresBy_some, totalSeconds, add_le_add_iff_left]
    exact div_le_div_iff_of_pos_right (by norm_num)

theorem redis_honours_iff (hdraw : Draws config jitter) {now : Rat}
    {keyspace keyspace' : Redis.Keyspace}
    (hset : Redis.set dumps ⟨tenantId, config⟩ key value (some ttl) jitter now false keyspace =
      .ok keyspace') :
    (∃ entry ∈ keyspace' (Redis.getTenantKey tenantId key),
        ExpiresBy (now + longest config ttl / 1000000) entry.expiresAt) ↔
      HonouredInSeconds config jitter ttl := by
  obtain ⟨-, stored, hstored, rfl⟩ := Redis.set_ok.mp hset
  simp only [Bool.false_eq_true, if_false, Function.update_self, Option.mem_def,
    Option.some.injEq, exists_eq_left']
  by_cases hzero : ttl = 0
  · subst hzero
    cases hstored
    refine iff_of_false not_expiresBy_none fun h => ?_
    rw [HonouredInSeconds, lifetime_zero] at h
    exact absurd h.1 (by decide)
  · rw [jitteredTtl_ok hzero hstored, HonouredInSeconds]
    cases le_or_gt second (lifetime config jitter ttl) with
    | inl hle =>
        rw [expireSeconds_of_le hle, Option.map_some, expiresBy_some, add_le_add_iff_left,
          ← seconds_le_iff hdraw hle, le_div_iff₀ (by norm_num)]
        push_cast
        exact (and_iff_right hle).symm
    | inr hlt =>
        rw [expireSeconds_of_lt hlt]
        exact iff_of_false not_expiresBy_none fun h => absurd h.1 (not_le_of_gt hlt)

theorem mock_honours_iff (hdraw : Draws config jitter) {now : Int} {data data' : Mock.Data}
    {entry : Mock.Entry}
    (hset : Mock.set dumps ⟨tenantId, config⟩ key value (some ttl) jitter now data = .ok data')
    (hentry : data'.lookup (Mock.getTenantKey tenantId key) = some entry) :
    (entry.expiresAt : Rat) ≤ now + longest config ttl ↔ Honoured config jitter ttl := by
  obtain ⟨stored, hstored, rfl⟩ := Mock.set_lookup hset hentry
  by_cases hzero : ttl = 0
  · subst hzero
    cases hstored
    refine iff_of_false (fun hle => ?_) not_honoured_zero
    simp only [longest, Int.cast_zero, mul_zero, Option.getD_none, Int.cast_add] at hle
    have hcentury : (0 : Rat) < (Mock.noTtl : Int) := by decide +kernel
    linarith
  · rw [jitteredTtl_ok hzero hstored, ← lifetime_le_iff hdraw hzero]
    push_cast
    exact add_le_add_iff_left _

/-- SQLite and the mock honour what does not overstay, Redis what it also counts in
seconds. -/
theorem ttl_honoured_iff (dumps : V → Text) (tenantId key : Text) (value : V)
    (config : CacheConfig) (ttl : Timedelta) (jitter : Rat) (hdraw : Draws config jitter) :
    (∀ (now : Rat) (table table' : Table),
      set dumps ⟨tenantId, config⟩ key value (some ttl) jitter now table = .ok table' →
      ((∃ row ∈ table' (getTenantKey tenantId key),
          ExpiresBy (now + longest config ttl / 1000000) row.expiresAt) ↔
        Honoured config jitter ttl)) ∧
    (∀ (now : Rat) (keyspace keyspace' : Redis.Keyspace),
      Redis.set dumps ⟨tenantId, config⟩ key value (some ttl) jitter now false keyspace =
        .ok keyspace' →
      ((∃ entry ∈ keyspace' (Redis.getTenantKey tenantId key),
          ExpiresBy (now + longest config ttl / 1000000) entry.expiresAt) ↔
        HonouredInSeconds config jitter ttl)) ∧
    (∀ (now : Int) (data data' : Mock.Data) (entry : Mock.Entry),
      Mock.set dumps ⟨tenantId, config⟩ key value (some ttl) jitter now data = .ok data' →
      data'.lookup (Mock.getTenantKey tenantId key) = some entry →
      ((entry.expiresAt : Rat) ≤ now + longest config ttl ↔ Honoured config jitter ttl)) :=
  ⟨fun _ _ _ hset => sqlite_honours_iff hdraw hset,
    fun _ _ _ hset => redis_honours_iff hdraw hset,
    fun _ _ _ _ hset hentry => mock_honours_iff hdraw hset hentry⟩

end Backends

/-- Two seconds on Redis. -/
theorem ttl_honoured_two_seconds :
    ∃ entry ∈ Function.update (fun _ => none) (Redis.getTenantKey ['t'] ['k'])
        (some (⟨['1'], some (0 + (2 : Int))⟩ : Redis.Entry)) (Redis.getTenantKey ['t'] ['k']),
      ExpiresBy (0 + longest default 2000000 / 1000000) entry.expiresAt := by
  have hdraw : Draws default 1 := ⟨by decide +kernel, by decide +kernel⟩
  have hlifetime : jitteredTtl default 1 (some 2000000) = .ok (some 2000000) := by
    have hround : lifetime default 1 2000000 = 2000000 := by decide +kernel
    rw [jitteredTtl_some (by decide), hround]
    exact if_neg fun h => absurd h.2 (by decide)
  refine ((ttl_honoured_iff id ['t'] ['k'] ['1'] default 2000000 1 hdraw).2.1 0 (fun _ => none) _
    (Redis.set_ok.mpr ⟨rfl, some 2000000, hlifetime, rfl⟩)).mpr ⟨by decide +kernel, .inl ?_⟩
  exact fun _ => .inr (by decide +kernel)

/-- A lifetime of zero on SQLite, and one of half a second on Redis. -/
theorem ttl_dropped :
    Draws default 1 ∧
    (∃ table', set id ⟨['t'], default⟩ ['k'] ['1'] (some 0) 1 0 (fun _ => none) = .ok table' ∧
      (table' (getTenantKey ['t'] ['k'])).map Row.expiresAt = some none) ∧
    (∃ keyspace',
      Redis.set id ⟨['t'], default⟩ ['k'] ['1'] (some 500000) 1 0 false (fun _ => none) =
        .ok keyspace' ∧
      (keyspace' (Redis.getTenantKey ['t'] ['k'])).map Redis.Entry.expiresAt = some none) := by
  have hlifetime : jitteredTtl default 1 (some 500000) = .ok (some 500000) := rfl
  refine ⟨⟨by decide +kernel, by decide +kernel⟩, ⟨_, set_ok.mpr ⟨rfl, none, rfl, rfl⟩, ?_⟩,
    ⟨_, Redis.set_ok.mpr ⟨rfl, _, hlifetime, rfl⟩, ?_⟩⟩
  · rw [Function.update_self]
    rfl
  · rw [if_neg (by decide), Function.update_self]
    rfl

end DualeAI.Cache
