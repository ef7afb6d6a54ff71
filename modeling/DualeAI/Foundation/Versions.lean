import Mathlib.Data.List.Chain

/-!
Values published under version keys.

Each entry repeats the last one or puts a changed value under a new key, so that
a key names one value, and a value that does not change keeps its key.
-/
namespace Foundation
universe u v
variable {κ : Type u} {η : Type v}

inductive Versioned : List (κ × η) → Prop where
  | nil : Versioned []
  | again {l : List (κ × η)} {e : κ × η} (h : Versioned l) (hlast : l.getLast? = some e) :
      Versioned (l ++ [e])
  | fresh {l : List (κ × η)} {k : κ} {v : η} (h : Versioned l) (hnew : ∀ e ∈ l, e.1 ≠ k)
      (hchanged : ∀ e ∈ l.getLast?, e.2 ≠ v) : Versioned (l ++ [(k, v)])

namespace Versioned
variable {l : List (κ × η)}

theorem eq_of_key (h : Versioned l) : ∀ e ∈ l, ∀ e' ∈ l, e.1 = e'.1 → e = e' := by
  induction h with
  | nil => nofun
  | again _ hlast ih =>
      have hmem := List.mem_of_getLast? hlast
      simp only [List.mem_append, List.mem_singleton]
      rintro e (he | rfl) e' (he' | rfl) hkey
      · exact ih e he e' he' hkey
      · exact ih e he _ hmem hkey
      · exact ih _ hmem e' he' hkey
      · rfl
  | fresh _ hnew _ ih =>
      simp only [List.mem_append, List.mem_singleton]
      rintro e (he | rfl) e' (he' | rfl) hkey
      · exact ih e he e' he' hkey
      · exact absurd hkey (hnew e he)
      · exact absurd hkey.symm (hnew e' he')
      · rfl

theorem key_of_value (h : Versioned l) : l.IsChain fun e e' => e.2 = e'.2 → e.1 = e'.1 := by
  induction h with
  | nil => exact .nil
  | again _ hlast ih =>
      refine List.isChain_append.mpr ⟨ih, .singleton _, fun e he e' he' _ => ?_⟩
      cases he'
      rw [hlast] at he
      cases he
      rfl
  | fresh _ _ hchanged ih =>
      refine List.isChain_append.mpr ⟨ih, .singleton _, fun e he e' he' hvalue => ?_⟩
      cases he'
      exact absurd hvalue (hchanged e he)

end Versioned
end Foundation
