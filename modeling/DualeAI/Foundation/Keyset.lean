import Mathlib.Data.List.Basic
import Mathlib.Order.Lattice

/-!
Pages over a list that is sorted by distinct keys.

A cursor is the key of the last item of a page; the next page begins after it. It
need not belong to the list any more.
-/
namespace Foundation.Keyset
variable {α κ : Type} [LinearOrder κ] (key : α → κ)

def beyond : (cursor : Option κ) → κ → Bool
  | none, _ => true
  | some c, k => c < k

/-- The items after a cursor. -/
def after (cursor : Option κ) (items : List α) : List α :=
  items.filter fun x => beyond cursor (key x)

def page (limit : Nat) (cursor : Option κ) (items : List α) : List α :=
  (after key cursor items).take limit

/-- The cursor of the next page, if items are left for one. -/
def nextCursor (limit : Nat) (cursor : Option κ) (items : List α) : Option κ :=
  if limit < (after key cursor items).length then (page key limit cursor items).getLast?.map key
  else none

/-- Sorted by distinct keys. -/
def Sorted (items : List α) : Prop := items.Pairwise fun x y => key x < key y

variable {key} {items : List α} {cursor : Option κ} {limit : Nat} {c : κ} {x : α}

theorem beyond_some {k : κ} : beyond (some c) k = true ↔ c < k := decide_eq_true_iff

theorem mem_after : x ∈ after key cursor items ↔ x ∈ items ∧ beyond cursor (key x) = true :=
  List.mem_filter

theorem Sorted.after (h : Sorted key items) : Sorted key (after key cursor items) := h.filter _

theorem Sorted.page (h : Sorted key items) : Sorted key (page key limit cursor items) :=
  h.after.sublist (List.take_sublist _ _)

theorem mem_page_imp (h : x ∈ page key limit cursor items) :
    x ∈ items ∧ beyond cursor (key x) = true :=
  mem_after.mp (List.mem_of_mem_take h)

theorem length_page_le : (page key limit cursor items).length ≤ limit :=
  List.length_take_le _ _

/-- Without a next page, a page has all that is left. -/
theorem page_of_nextCursor_none (hlimit : 1 ≤ limit)
    (h : nextCursor key limit cursor items = none) :
    page key limit cursor items = after key cursor items := by
  rw [nextCursor] at h
  split at h
  · next hlt =>
      rw [Option.map_eq_none_iff, List.getLast?_eq_none_iff, page, List.take_eq_nil_iff] at h
      cases h with
      | inl hzero => omega
      | inr hnil =>
          rw [hnil] at hlt
          exact absurd hlt (Nat.not_lt_zero _)
  · next hge => exact List.take_of_length_le (Nat.le_of_not_lt hge)

/-- The last item of a page is the greatest of it, and smaller than what is left. -/
theorem nextCursor_spec (hsorted : Sorted key items)
    (h : nextCursor key limit cursor items = some c) :
    limit < (after key cursor items).length ∧ beyond cursor c = true ∧
      (∃ x ∈ page key limit cursor items, key x = c) ∧
      (∀ x ∈ page key limit cursor items, key x ≤ c) ∧
      ∀ x ∈ (after key cursor items).drop limit, c < key x := by
  rw [nextCursor] at h
  split at h
  · next hlt =>
      obtain ⟨last, hlast, rfl⟩ := Option.map_eq_some_iff.mp h
      have hmem : last ∈ page key limit cursor items := List.mem_of_getLast? hlast
      refine ⟨hlt, (mem_page_imp hmem).2, ⟨last, hmem, rfl⟩, ?_, ?_⟩
      · obtain ⟨front, hfront⟩ := List.getLast?_eq_some_iff.mp hlast
        have hpage : Sorted key (page key limit cursor items) := hsorted.page
        rw [hfront] at hpage ⊢
        intro x hx
        cases List.mem_append.mp hx with
        | inl hx =>
            have hbefore := (List.pairwise_append.mp hpage).2.2 x hx last
              (List.mem_singleton_self last)
            exact le_of_lt hbefore
        | inr hx => rw [List.mem_singleton.mp hx]
      · intro x hx
        have hall : Sorted key (after key cursor items) := hsorted.after
        rw [← List.take_append_drop limit (after key cursor items)] at hall
        exact (List.pairwise_append.mp hall).2.2 last hmem x hx
  · cases h

theorem beyond_trans (hc : beyond cursor c = true) {k : κ} (hk : c < k) :
    beyond cursor k = true := by
  cases cursor with
  | none => rfl
  | some c' => exact beyond_some.mpr (lt_trans (beyond_some.mp hc) hk)

/-- The next page goes on where this one ends. -/
theorem after_nextCursor (hsorted : Sorted key items)
    (h : nextCursor key limit cursor items = some c) :
    after key (some c) items = (after key cursor items).drop limit := by
  obtain ⟨-, hbeyond, -, hpage, hrest⟩ := nextCursor_spec hsorted h
  have hnarrow : after key (some c) items =
      (after key cursor items).filter fun x => beyond (some c) (key x) := by
    rw [after, after, List.filter_filter]
    refine List.filter_congr fun x _ => ?_
    cases hx : beyond (some c) (key x) with
    | false => rfl
    | true => rw [beyond_trans hbeyond (beyond_some.mp hx), Bool.and_self]
  rw [hnarrow]
  conv_lhs => rw [← List.take_append_drop limit (after key cursor items)]
  rw [List.filter_append]
  have htake : ((after key cursor items).take limit).filter
      (fun x => beyond (some c) (key x)) = [] := by
    refine List.filter_eq_nil_iff.mpr fun x hx => ?_
    rw [beyond_some]
    exact not_lt.mpr (hpage x hx)
  have hdrop : ((after key cursor items).drop limit).filter
      (fun x => beyond (some c) (key x)) = (after key cursor items).drop limit :=
    List.filter_eq_self.mpr fun x hx => beyond_some.mpr (hrest x hx)
  rw [htake, hdrop, List.nil_append]

/-- What a page passes over is in it. -/
theorem mem_page_of_le (hsorted : Sorted key items)
    (h : nextCursor key limit cursor items = some c) (hx : x ∈ items)
    (hbeyond : beyond cursor (key x) = true) (hle : key x ≤ c) :
    x ∈ page key limit cursor items := by
  have hafter := mem_after.mpr ⟨hx, hbeyond⟩
  rw [← List.take_append_drop limit (after key cursor items)] at hafter
  cases List.mem_append.mp hafter with
  | inl hpage => exact hpage
  | inr hrest =>
      have hgreater := (nextCursor_spec hsorted h).2.2.2.2 x hrest
      exact absurd hgreater (not_lt.mpr hle)

theorem length_after_lt (hlimit : 1 ≤ limit) (hsorted : Sorted key items)
    (h : nextCursor key limit cursor items = some c) :
    (after key (some c) items).length < (after key cursor items).length := by
  have hlt := (nextCursor_spec hsorted h).1
  rw [after_nextCursor hsorted h, List.length_drop]
  omega

end Foundation.Keyset
