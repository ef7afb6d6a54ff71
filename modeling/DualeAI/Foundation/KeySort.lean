import Mathlib.Data.List.Sort

/-!
Sorting by a key that no two items share: the order before does not matter.
-/
namespace Foundation
variable {α κ : Type} [LinearOrder κ]

def sortBy (key : α → κ) (items : List α) : List α :=
  items.insertionSort fun a b => key a ≤ key b

variable {key : α → κ} {xs ys : List α}

theorem sortBy_perm (key : α → κ) (items : List α) : (sortBy key items).Perm items :=
  List.perm_insertionSort _ _

theorem sortBy_eq_iff (h : (xs.map key).Nodup) : sortBy key xs = sortBy key ys ↔ xs.Perm ys := by
  constructor
  · intro heq
    exact (sortBy_perm key xs).symm.trans (heq ▸ sortBy_perm key ys)
  · intro hperm
    refine List.Perm.eq_of_pairwise (fun a b ha hb hab hba => ?_)
      (List.pairwise_insertionSort _ _) (List.pairwise_insertionSort _ _)
      ((sortBy_perm key xs).trans (hperm.trans (sortBy_perm key ys).symm))
    have ha := (sortBy_perm key xs).mem_iff.mp ha
    have hb := hperm.mem_iff.mpr ((sortBy_perm key ys).mem_iff.mp hb)
    exact List.inj_on_of_nodup_map h ha hb (le_antisymm hab hba)

end Foundation
