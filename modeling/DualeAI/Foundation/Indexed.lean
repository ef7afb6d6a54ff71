import Mathlib.Algebra.BigOperators.Group.Finset.Basic
import Mathlib.Algebra.GroupWithZero.Nat
import Mathlib.Data.List.Basic
import Mathlib.Data.List.Forall2

/-!
Lists as tables of numbered entries.

An entry keeps its number: a table grows at its end, and an entry is changed in
place.
-/
namespace Foundation
variable {α : Type}

theorem getElem?_modify_eq_some {l : List α} {f : α → α} {n m : Nat} {b : α} :
    (l.modify n f)[m]? = some b ↔ ∃ a, l[m]? = some a ∧ b = if n = m then f a else a := by
  rw [List.getElem?_modify]
  cases l[m]? with
  | none => simp
  | some a => by_cases h : n = m <;> simp [h, eq_comm]

theorem getElem?_concat_eq_some {l : List α} {a b : α} {m : Nat}
    (h : (l ++ [b])[m]? = some a) : l[m]? = some a ∨ m = l.length ∧ a = b := by
  cases Nat.lt_or_ge m l.length with
  | inl hlt =>
      rw [List.getElem?_append_left hlt] at h
      exact .inl h
  | inr hge =>
      have hlast : m = l.length := by
        have hbound := (List.getElem?_eq_some_iff.mp h).1
        rw [List.length_append, List.length_singleton] at hbound
        omega
      rw [hlast, List.getElem?_concat_length] at h
      exact .inr ⟨hlast, (Option.some.inj h).symm⟩

theorem getElem?_set_eq_some {l : List α} {a b : α} {n m : Nat} (h : (l.set n b)[m]? = some a) :
    m = n ∧ a = b ∨ m ≠ n ∧ l[m]? = some a := by
  rw [List.getElem?_set] at h
  split at h
  · next hsame =>
      split at h
      · exact .inl ⟨hsame.symm, (Option.some.inj h).symm⟩
      · cases h
  · next hne => exact .inr ⟨Ne.symm hne, h⟩

theorem set_eq_self {l : List α} {a : α} {n : Nat} (h : l[n]? = some a) : l.set n a = l := by
  obtain ⟨hlt, rfl⟩ := List.getElem?_eq_some_iff.mp h
  exact List.set_getElem_self hlt

theorem forall_getElem?_concat {l : List α} {b : α} {P : Nat → α → Prop}
    (h : ∀ (n : Nat) (a : α), l[n]? = some a → P n a) (hb : P l.length b) :
    ∀ (n : Nat) (a : α), (l ++ [b])[n]? = some a → P n a := by
  intro n a hget
  cases getElem?_concat_eq_some hget with
  | inl hold => exact h n a hold
  | inr hlast =>
      obtain ⟨rfl, rfl⟩ := hlast
      exact hb

theorem forall_mem_set {l : List α} {b : α} {n : Nat} {P : α → Prop} (h : ∀ a ∈ l, P a)
    (hb : P b) : ∀ a ∈ l.set n b, P a := by
  intro a hmem
  cases List.mem_or_eq_of_mem_set hmem with
  | inl hold => exact h a hold
  | inr hnew =>
      rw [hnew]
      exact hb

theorem forall_mem_modify {l : List α} {f : α → α} {n : Nat} {P : α → Prop}
    (h : ∀ a ∈ l, P a) (hf : ∀ a, l[n]? = some a → P (f a)) : ∀ a ∈ l.modify n f, P a := by
  intro b hmem
  obtain ⟨m, hget⟩ := List.mem_iff_getElem?.mp hmem
  obtain ⟨a, ha, rfl⟩ := getElem?_modify_eq_some.mp hget
  split
  · next hm => exact hf a (hm ▸ ha)
  · exact h a (List.mem_of_getElem? ha)

/-- Two tables that go together, where an entry of each changes. -/
theorem forall₂_modify_set {β : Type} {R : α → β → Prop} {l : List α} {m : List β} {n : Nat}
    {f : α → α} {b : β} (h : List.Forall₂ R l m)
    (hn : ∀ a c, l[n]? = some a → m[n]? = some c → R a c → R (f a) b) :
    List.Forall₂ R (l.modify n f) (m.set n b) := by
  induction h generalizing n with
  | nil => simp
  | cons hhead htail ih =>
      cases n with
      | zero => exact .cons (hn _ _ rfl rfl hhead) htail
      | succ n => exact .cons hhead (ih hn)

theorem map_eq_of_forall₂ {β γ : Type} {R : α → β → Prop} {l : List α} {m : List β} {f : α → γ}
    {g : β → γ} (h : List.Forall₂ R l m) (hR : ∀ a b, R a b → f a = g b) :
    l.map f = m.map g := by
  induction h with
  | nil => rfl
  | cons hhead _ ih => rw [List.map_cons, List.map_cons, hR _ _ hhead, ih]

theorem exists_mem_of_forall₂ {β : Type} {R : α → β → Prop} {l : List α} {m : List β} {a : α}
    (h : List.Forall₂ R l m) (ha : a ∈ l) : ∃ b ∈ m, R a b := by
  induction h with
  | nil => cases ha
  | cons hhead _ ih =>
      cases List.mem_cons.mp ha with
      | inl heq => exact ⟨_, List.mem_cons_self, heq ▸ hhead⟩
      | inr htail =>
          obtain ⟨b, hb, hR⟩ := ih htail
          exact ⟨b, List.mem_cons_of_mem _ hb, hR⟩

/-! ## Sums over a table -/

theorem sum_map_modify {l : List α} {n : Nat} {x : α} (f : α → α) (g : α → Nat)
    (h : l[n]? = some x) : ((l.modify n f).map g).sum + g x = (l.map g).sum + g (f x) := by
  induction l generalizing n with
  | nil => cases h
  | cons y l ih =>
      cases n with
      | zero =>
          cases h
          simp
          omega
      | succ n =>
          have hrest := ih h
          simp only [List.modify_succ_cons, List.map_cons, List.sum_cons]
          omega

/-- How many entries are of a kind, where one of them changes. -/
theorem countP_set {l : List α} {n : Nat} {a : α} (p : α → Bool) (b : α) (h : l[n]? = some a) :
    (l.set n b).countP p + (p a).toNat = l.countP p + (p b).toNat := by
  induction l generalizing n with
  | nil => cases h
  | cons c l ih =>
      cases n with
      | zero =>
          cases h
          rw [List.set_cons_zero, List.countP_cons, List.countP_cons]
          cases p a <;> cases p b <;> rfl
      | succ n =>
          have hrest := ih h
          rw [List.set_cons_succ, List.countP_cons, List.countP_cons]
          omega

theorem countP_set_le {l : List α} {n bound : Nat} {a b : α} {p : α → Bool}
    (h : l[n]? = some a) (hle : l.countP p ≤ bound)
    (hb : p b = true → p a = true ∨ l.countP p < bound) : (l.set n b).countP p ≤ bound := by
  have hcount := countP_set p b h
  cases hnew : p b with
  | false =>
      rw [hnew, Bool.toNat_false] at hcount
      omega
  | true =>
      rw [hnew, Bool.toNat_true] at hcount
      cases hb hnew with
      | inl hold =>
          rw [hold, Bool.toNat_true] at hcount
          omega
      | inr hfree => omega

/-- Kinds that overlap: it is enough to compare them entry by entry. -/
theorem countP_add_le_add {l : List α} {p q p' q' : α → Bool}
    (h : ∀ a, (p a).toNat + (q a).toNat ≤ (p' a).toNat + (q' a).toNat) :
    l.countP p + l.countP q ≤ l.countP p' + l.countP q' := by
  have hite (b : Bool) : (if b = true then 1 else 0) = b.toNat := by cases b <;> rfl
  induction l with
  | nil => exact Nat.le_refl _
  | cons a l ih =>
      have ha := h a
      simp only [List.countP_cons, hite]
      omega

/-- Two sums that differ in one place. -/
theorem sum_range_change {n i : Nat} {f g : Nat → Nat} (hi : i < n)
    (h : ∀ j, j ≠ i → g j = f j) :
    (∑ j ∈ Finset.range n, g j) + f i = (∑ j ∈ Finset.range n, f j) + g i := by
  have hmem := Finset.mem_range.mpr hi
  have hsame : ∑ j ∈ (Finset.range n).erase i, g j = ∑ j ∈ (Finset.range n).erase i, f j :=
    Finset.sum_congr rfl fun j hj => h j (Finset.ne_of_mem_erase hj)
  rw [← Finset.add_sum_erase _ g hmem, ← Finset.add_sum_erase _ f hmem, hsame]
  omega

end Foundation
