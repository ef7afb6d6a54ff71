import Mathlib.Data.List.Basic
import Mathlib.Data.List.Nodup

/-!
A Python `dict`: entries with distinct keys, in the order of insertion.
-/
namespace Foundation

abbrev Dict (κ ν : Type) := List (κ × ν)

namespace Dict
variable {κ ν : Type} [BEq κ]

/-- `d[key] = value`. -/
def put (key : κ) (value : ν) (d : Dict κ ν) : Dict κ ν :=
  if (d.lookup key).isSome then d.map fun (k, v) => (k, if k == key then value else v)
  else d ++ [(key, value)]

/-- `d.pop(key, None)`. -/
def pop (key : κ) (d : Dict κ ν) : Dict κ ν := d.filter fun entry => entry.1 != key

/-- The entries put one after another into an empty `dict`. -/
def ofList (entries : List (κ × ν)) : Dict κ ν :=
  entries.foldl (fun d entry => put entry.1 entry.2 d) []

variable {key k : κ} {value v : ν} {d : Dict κ ν}

theorem keys_put : (put key value d).map Prod.fst =
    if (d.lookup key).isSome then d.map Prod.fst else d.map Prod.fst ++ [key] := by
  rw [put]
  split
  · simp
  · simp

theorem length_put : (put key value d).length =
    if (d.lookup key).isSome then d.length else d.length + 1 := by
  rw [put]
  split
  · rw [List.length_map]
  · rw [List.length_append, List.length_singleton]

theorem nodup_pop (h : (d.map Prod.fst).Nodup) : ((pop key d).map Prod.fst).Nodup :=
  h.sublist (List.filter_sublist.map Prod.fst)

theorem foldl_pop_sublist (keys : List κ) (d : Dict κ ν) :
    (keys.foldl (fun d key => pop key d) d).Sublist d := by
  induction keys generalizing d with
  | nil => exact List.Sublist.refl d
  | cons k keys ih => exact (ih _).trans List.filter_sublist

variable [LawfulBEq κ]

theorem mem_of_lookup (h : d.lookup key = some value) : (key, value) ∈ d := by
  obtain ⟨before, after, rfl, -⟩ := List.lookup_eq_some_iff.mp h
  exact List.mem_append_right _ List.mem_cons_self

theorem notMem_keys (h : d.lookup key = none) : key ∉ d.map Prod.fst := by
  intro hmem
  obtain ⟨⟨k, v⟩, hpair, rfl⟩ := List.mem_map.mp hmem
  exact bne_iff_ne.mp (List.lookup_eq_none_iff.mp h _ hpair) rfl

/-- An entry is the new one, or an old one under another key. -/
theorem mem_put (h : (k, v) ∈ put key value d) : k = key ∧ v = value ∨ k ≠ key ∧ (k, v) ∈ d := by
  rw [put] at h
  split at h
  · obtain ⟨⟨k', v'⟩, hmem, hpair⟩ := List.mem_map.mp h
    obtain ⟨rfl, rfl⟩ := Prod.mk.inj hpair
    by_cases hk : k' = key
    · exact .inl ⟨hk, if_pos (beq_iff_eq.mpr hk)⟩
    · rw [if_neg (mt beq_iff_eq.mp hk)]
      exact .inr ⟨hk, hmem⟩
  · next hnone =>
      cases List.mem_append.mp h with
      | inl hmem =>
          refine .inr ⟨fun hk => ?_, hmem⟩
          subst hk
          exact notMem_keys (Option.not_isSome_iff_eq_none.mp hnone)
            (List.mem_map_of_mem hmem)
      | inr hmem => exact .inl (Prod.mk.inj (List.mem_singleton.mp hmem))

theorem mem_pop : (k, v) ∈ pop key d ↔ (k, v) ∈ d ∧ k ≠ key := by
  rw [pop, List.mem_filter, bne_iff_ne]

theorem lookup_cons_of_ne {d : Dict κ ν} (h : key ≠ k) :
    ((k, v) :: d).lookup key = d.lookup key := by
  rw [List.lookup_cons, beq_eq_false_iff_ne.mpr h]

theorem lookup_put_self : (put key value d).lookup key = some value := by
  rw [put]
  split
  · next h =>
      induction d with
      | nil => cases h
      | cons head rest ih =>
          obtain ⟨k, v⟩ := head
          by_cases hk : key = k
          · simp [hk]
          · rw [lookup_cons_of_ne hk] at h
            rw [List.map_cons, lookup_cons_of_ne hk]
            exact ih h
  · next h =>
      rw [List.lookup_append, Option.not_isSome_iff_eq_none.mp h]
      simp

theorem lookup_put_of_ne (h : k ≠ key) : (put key value d).lookup k = d.lookup k := by
  rw [put]
  split
  · clear * - h
    induction d with
    | nil => rfl
    | cons head rest ih =>
        obtain ⟨k', v'⟩ := head
        by_cases hk : k = k'
        · subst hk
          simp [h]
        · rw [List.map_cons, lookup_cons_of_ne hk, lookup_cons_of_ne hk]
          exact ih
  · rw [List.lookup_append, lookup_cons_of_ne h]
    simp

theorem lookup_filter (p : κ → Bool) :
    (d.filter fun entry => p entry.1).lookup key = if p key then d.lookup key else none := by
  induction d with
  | nil => simp
  | cons head rest ih =>
      obtain ⟨k', v'⟩ := head
      by_cases hk : key = k'
      · subst hk
        cases hp : p key with
        | true => simp [hp]
        | false => simpa [hp] using ih
      · rw [lookup_cons_of_ne hk, ← ih, List.filter_cons]
        split
        · exact lookup_cons_of_ne hk
        · rfl

theorem lookup_filter_of_keep {keep : κ × ν → Bool} (h : d.lookup key = some value)
    (hkeep : keep (key, value) = true) : (d.filter keep).lookup key = some value := by
  induction d with
  | nil => cases h
  | cons head rest ih =>
      obtain ⟨k, v⟩ := head
      by_cases hk : key = k
      · subst hk
        rw [List.lookup_cons_self] at h
        cases h
        rw [List.filter_cons_of_pos hkeep, List.lookup_cons_self]
      · rw [lookup_cons_of_ne hk] at h
        rw [List.filter_cons]
        split
        · rw [lookup_cons_of_ne hk]
          exact ih h
        · exact ih h

theorem lookup_foldl_pop (keys : List κ) :
    (keys.foldl (fun d key => pop key d) d).lookup key =
      if key ∈ keys then none else d.lookup key := by
  induction keys generalizing d with
  | nil => simp
  | cons k keys ih =>
      rw [List.foldl_cons, ih, pop, lookup_filter (fun key => key != k)]
      by_cases hk : key = k
      · simp [hk]
      · simp [hk]

theorem lookup_of_mem (hkeys : (d.map Prod.fst).Nodup) (h : (key, value) ∈ d) :
    d.lookup key = some value := by
  induction d with
  | nil => cases h
  | cons head rest ih =>
      obtain ⟨k, v⟩ := head
      have hfresh := List.nodup_cons.mp hkeys
      cases List.mem_cons.mp h with
      | inl heq =>
          cases heq
          exact List.lookup_cons_self
      | inr hmem =>
          have hk : key ≠ k := by
            intro heq
            subst heq
            exact hfresh.1 (List.mem_map.mpr ⟨(key, value), hmem, rfl⟩)
          rw [lookup_cons_of_ne hk]
          exact ih hfresh.2 hmem

theorem lookup_pop_of_ne (h : k ≠ key) : (pop key d).lookup k = d.lookup k := by
  rw [pop, lookup_filter (fun k => k != key), if_pos (bne_iff_ne.mpr h)]

theorem nodup_put (h : (d.map Prod.fst).Nodup) : ((put key value d).map Prod.fst).Nodup := by
  rw [keys_put]
  split
  · exact h
  · next hnone =>
      exact List.Nodup.append h (List.nodup_singleton key) (List.disjoint_singleton.mpr
        (notMem_keys (Option.not_isSome_iff_eq_none.mp hnone)))

theorem put_of_notMem (h : key ∉ d.map Prod.fst) : put key value d = d ++ [(key, value)] := by
  have hnone : d.lookup key = none := List.lookup_eq_none_iff.mpr fun entry hmem =>
    bne_iff_ne.mpr fun heq => h (heq ▸ List.mem_map_of_mem hmem)
  rw [put, hnone]
  rfl

theorem mem_foldl_put (entries : List (κ × ν)) {entry : κ × ν}
    (h : entry ∈ entries.foldl (fun d entry => put entry.1 entry.2 d) d) :
    entry ∈ d ∨ entry ∈ entries := by
  induction entries generalizing d with
  | nil => exact .inl h
  | cons first entries ih =>
      cases ih h with
      | inr hmem => exact .inr (List.mem_cons_of_mem first hmem)
      | inl hput =>
          cases mem_put hput with
          | inr hold => exact .inl hold.2
          | inl hnew =>
              have heq : entry = first := Prod.ext hnew.1 hnew.2
              exact .inr (heq ▸ List.mem_cons_self)

theorem mem_ofList {entries : List (κ × ν)} {entry : κ × ν} (h : entry ∈ ofList entries) :
    entry ∈ entries :=
  (mem_foldl_put entries h).resolve_left List.not_mem_nil

theorem foldl_put (entries : List (κ × ν)) (h : ((d ++ entries).map Prod.fst).Nodup) :
    entries.foldl (fun d entry => put entry.1 entry.2 d) d = d ++ entries := by
  induction entries generalizing d with
  | nil => rw [List.foldl_nil, List.append_nil]
  | cons entry entries ih =>
      have hnew : entry.1 ∉ d.map Prod.fst := by
        rw [List.map_append, List.nodup_append] at h
        exact fun hmem => h.2.2 _ hmem _ List.mem_cons_self rfl
      rw [List.foldl_cons, put_of_notMem hnew, ih (by simpa using h)]
      simp

theorem ofList_of_nodup {entries : List (κ × ν)} (h : (entries.map Prod.fst).Nodup) :
    ofList entries = entries := foldl_put entries h

end Dict
end Foundation
