import Mathlib.Algebra.Order.Floor.Ring
import Mathlib.Algebra.Ring.Int.Parity
import Mathlib.Data.Rat.Floor

/-!
Rounding to the nearest integer, halves to the even one.
-/
namespace Foundation

def roundHalfEven (q : Rat) : Int :=
  if Int.fract q < 1 / 2 ∨ Int.fract q = 1 / 2 ∧ Even ⌊q⌋ then ⌊q⌋ else ⌊q⌋ + 1

theorem roundHalfEven_le_of_le {q : Rat} {n : Int} (h : q ≤ n) : roundHalfEven q ≤ n := by
  have hfloor : ⌊q⌋ ≤ n := by
    have hcast : (⌊q⌋ : Rat) ≤ n := (Int.floor_le q).trans h
    exact_mod_cast hcast
  rw [roundHalfEven]
  split
  · exact hfloor
  · next hup =>
      -- not rounded down, so `q` is no integer and its floor is below `n`
      have hfract : 0 < Int.fract q := by
        refine lt_of_le_of_ne (Int.fract_nonneg q) fun hzero => hup (.inl ?_)
        rw [← hzero]
        norm_num
      have hlt : (⌊q⌋ : Rat) < n := by
        rw [Int.fract] at hfract
        linarith
      have hlt : ⌊q⌋ < n := by exact_mod_cast hlt
      omega

theorem roundHalfEven_eq (q : Rat) : roundHalfEven q = ⌊q⌋ ∨ roundHalfEven q = ⌈q⌉ := by
  rw [roundHalfEven]
  split
  · exact .inl rfl
  · next hup =>
      right
      have hnotMem : q ∉ Set.range Int.cast := fun hmem => hup (.inl (by
        rw [Int.fract_eq_zero_iff.mpr hmem]
        norm_num))
      exact ((Int.ceil_eq_floor_add_one_iff_notMem q).mpr hnotMem).symm

/-- What rounding does to a bound that is no integer. -/
theorem roundHalfEven_le_iff {q bound : Rat} (h : q ≤ bound) :
    (roundHalfEven q : Rat) ≤ bound ↔ (⌈q⌉ : Rat) ≤ bound ∨ roundHalfEven q = ⌊q⌋ := by
  constructor
  · intro hle
    cases roundHalfEven_eq q with
    | inl hfloor => exact .inr hfloor
    | inr hceil =>
        rw [← hceil]
        exact .inl hle
  · rintro (hceil | hfloor)
    · have hround : (roundHalfEven q : Rat) ≤ ⌈q⌉ := by
        exact_mod_cast roundHalfEven_le_of_le (Int.le_ceil q)
      exact hround.trans hceil
    · rw [hfloor]
      exact (Int.floor_le q).trans h

end Foundation
