import Mathlib.Data.List.DropRight
import Mathlib.Data.List.Infix

/-!
The streak at the end of a history: how many of its last entries are of a kind.
-/
namespace Foundation
variable {α : Type} {p : α → Bool} {past : List α} {x : α}

/-- The last `k` entries are all of the kind. -/
def EndsIn (p : α → Bool) (k : Nat) (past : List α) : Prop :=
  ∃ last, last <:+ past ∧ last.length = k ∧ ∀ x ∈ last, p x = true

def streak (p : α → Bool) (past : List α) : Nat := (past.rtakeWhile p).length

@[simp] theorem streak_nil : streak p [] = 0 := by
  rw [streak, List.rtakeWhile_nil, List.length_nil]

theorem streak_concat_of_pos (h : p x = true) : streak p (past ++ [x]) = streak p past + 1 := by
  rw [streak, List.rtakeWhile_concat_pos p past x h, List.length_append, List.length_singleton,
    streak]

theorem streak_concat_of_neg (h : p x = false) : streak p (past ++ [x]) = 0 := by
  rw [streak, List.rtakeWhile_concat_neg p past x (by simp [h]), List.length_nil]

theorem endsIn_zero : EndsIn p 0 past :=
  ⟨[], List.nil_suffix, rfl, fun _ hmem => absurd hmem List.not_mem_nil⟩

theorem endsIn_concat {k : Nat} :
    EndsIn p (k + 1) (past ++ [x]) ↔ p x = true ∧ EndsIn p k past := by
  constructor
  · intro h
    obtain ⟨last, hsuffix, hlength, hall⟩ := h
    cases List.suffix_concat_iff.mp hsuffix with
    | inl hnil =>
        rw [hnil] at hlength
        cases hlength
    | inr hconcat =>
        obtain ⟨front, rfl, hfront⟩ := hconcat
        rw [List.length_append, List.length_singleton] at hlength
        refine ⟨hall x (List.mem_append_right _ (List.mem_singleton_self x)), front, hfront,
          Nat.succ.inj hlength, ?_⟩
        intro y hmem
        exact hall y (List.mem_append_left _ hmem)
  · intro h
    obtain ⟨hx, front, hfront, hlength, hall⟩ := h
    refine ⟨front ++ [x], List.suffix_concat_iff.mpr (.inr ⟨front, rfl, hfront⟩), ?_, ?_⟩
    · rw [List.length_append, List.length_singleton, hlength]
    · intro y hmem
      cases List.mem_append.mp hmem with
      | inl hmem => exact hall y hmem
      | inr hmem => rwa [List.mem_singleton.mp hmem]

/-- A counter that is reset by entries of other kinds counts the streak. -/
theorem endsIn_iff {k : Nat} : EndsIn p k past ↔ k ≤ streak p past := by
  induction past using List.reverseRecOn generalizing k with
  | nil =>
      rw [streak_nil, Nat.le_zero]
      constructor
      · intro h
        obtain ⟨last, hsuffix, hlength, -⟩ := h
        rw [← hlength, List.suffix_nil.mp hsuffix, List.length_nil]
      · intro hk
        rw [hk]
        exact endsIn_zero
  | append_singleton past x ih =>
      cases k with
      | zero => exact ⟨fun _ => Nat.zero_le _, fun _ => endsIn_zero⟩
      | succ k =>
          rw [endsIn_concat, ih]
          cases hx : p x with
          | true => simp [streak_concat_of_pos hx]
          | false => simp [streak_concat_of_neg hx]

end Foundation
