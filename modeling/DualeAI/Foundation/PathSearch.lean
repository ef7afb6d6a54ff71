import Mathlib.Data.Fintype.Card
import Mathlib.Logic.Relation

/-!
Search of a finite graph along its paths, each with its own set of nodes seen.

`Avoiding r seen` are the edges of `r` out of the nodes not in `seen`. Where a path
along them from a node comes to something, that is the node itself or a successor has
a path to it that does not pass the node again. This is the recursion of such a search;
each step of it leaves fewer nodes unseen.
-/
namespace Foundation
open Relation
variable {α : Type} {r : α → α → Prop} {P : α → Prop} {v w : α}

/-- The edges out of the nodes that are not in `seen`. -/
def Avoiding (r : α → α → Prop) (seen : Finset α) (a b : α) : Prop := a ∉ seen ∧ r a b

/-- A path along them to something of the kind. -/
def PathTo (r : α → α → Prop) (P : α → Prop) (seen : Finset α) (v : α) : Prop :=
  ∃ w, ReflTransGen (Avoiding r seen) v w ∧ P w

variable {seen : Finset α}

theorem pathTo_empty : PathTo r P ∅ v ↔ ∃ w, ReflTransGen r v w ∧ P w := by
  have hall : Avoiding r ∅ = r := by
    funext a b
    apply propext
    exact and_iff_right (Finset.notMem_empty a)
  rw [PathTo, hall]

theorem pathTo_self (h : P v) : PathTo r P seen v := ⟨v, ReflTransGen.refl, h⟩

/-- No edge leads on. -/
theorem pathTo_of_stuck (h : ∀ item, ¬ Avoiding r seen v item) : PathTo r P seen v ↔ P v := by
  constructor
  · intro hpath
    obtain ⟨w, hpath, hw⟩ := hpath
    cases ReflTransGen.cases_head hpath with
    | inl heq =>
        rw [heq]
        exact hw
    | inr hstep =>
        obtain ⟨b, hedge, -⟩ := hstep
        exact absurd hedge (h b)
  · exact pathTo_self

theorem pathTo_of_mem (h : v ∈ seen) : PathTo r P seen v ↔ P v := by
  apply pathTo_of_stuck
  intro item hedge
  exact hedge.1 h

theorem pathTo_of_leaf (h : ∀ item, ¬ r v item) : PathTo r P seen v ↔ P v := by
  apply pathTo_of_stuck
  intro item hedge
  exact h item hedge.2

variable [DecidableEq α]

/-- A path out of a node needs no second visit to it. -/
theorem Avoiding.head_or (hpath : ReflTransGen (Avoiding r seen) v w) :
    w = v ∨ ∃ item, r v item ∧ ReflTransGen (Avoiding r (insert v seen)) item w := by
  induction hpath with
  | refl => exact Or.inl rfl
  | tail hpath hedge ih =>
      rename_i b c
      right
      by_cases hb : b = v
      · -- The path is back at its start: what came before is dropped.
        exact ⟨c, hb ▸ hedge.2, ReflTransGen.refl⟩
      · obtain ⟨item, hitem, hrest⟩ := ih.resolve_left hb
        refine ⟨item, hitem, hrest.tail ⟨?_, hedge.2⟩⟩
        intro hmem
        cases Finset.mem_insert.mp hmem with
        | inl heq => exact hb heq
        | inr hseen => exact hedge.1 hseen

theorem pathTo_of_notMem (h : v ∉ seen) :
    PathTo r P seen v ↔ P v ∨ ∃ item, r v item ∧ PathTo r P (insert v seen) item := by
  constructor
  · intro hpath
    obtain ⟨w, hpath, hw⟩ := hpath
    cases Avoiding.head_or hpath with
    | inl heq =>
        rw [heq] at hw
        exact Or.inl hw
    | inr hstep =>
        obtain ⟨item, hitem, hrest⟩ := hstep
        exact Or.inr ⟨item, hitem, w, hrest, hw⟩
  · intro hpath
    cases hpath with
    | inl hv => exact pathTo_self hv
    | inr hstep =>
        obtain ⟨item, hitem, w, hrest, hw⟩ := hstep
        refine ⟨w, ReflTransGen.head ⟨h, hitem⟩ ?_, hw⟩
        refine ReflTransGen.mono ?_ item w hrest
        intro a b hedge
        exact ⟨fun hmem => hedge.1 (Finset.mem_insert_of_mem hmem), hedge.2⟩

theorem card_unseen_insert [Fintype α] (h : v ∉ seen) : (insert v seen)ᶜ.card < seenᶜ.card := by
  apply Finset.card_lt_card
  rw [Finset.compl_ssubset_compl]
  exact Finset.ssubset_insert h

end Foundation
