import DualeAI.Foundation.LineBuffer
import Mathlib.Data.List.Induction

/-!
The states a line reader passes through, and where its run over lines ends.

`Reaches` takes the reader of `LineBuffer.feed` apart into its steps: a chunk is
received, its complete lines are taken off the buffer one at a time, and what is left
is bounded before the next chunk. The states between two chunks are those the chunks
lead to (`reaches_iff_feed`).
-/
namespace Foundation.LineBuffer
universe u v
variable {χ : Type u} {ε : Type u} {α : Type v} {σ : Type u}

/-- Between two chunks, or between two lines of a chunk. -/
inductive Stage where
  | receiving
  | draining

/-- A state of the reader, with the chunks received and the lines taken off them. -/
inductive Reaches (sep : χ) (limit : Nat) (onLine : σ → List χ → Gen ε α σ) (s₀ : σ) :
    Stage → List (List χ) → List (List χ) → σ → List χ → Prop where
  | start : Reaches sep limit onLine s₀ .receiving [] [] s₀ []
  | receive {chunks taken s buffer} (chunk : List χ) :
      Reaches sep limit onLine s₀ .receiving chunks taken s buffer →
      Reaches sep limit onLine s₀ .draining (chunks ++ [chunk]) taken s (buffer ++ chunk)
  | line {chunks taken s l rest s'} :
      Reaches sep limit onLine s₀ .draining chunks taken s (l ++ sep :: rest) →
      sep ∉ l → l.length ≤ limit → (onLine s l).result = .ok s' →
      Reaches sep limit onLine s₀ .draining chunks (taken ++ [l]) s' rest
  | drained {chunks taken s buffer} :
      Reaches sep limit onLine s₀ .draining chunks taken s buffer →
      sep ∉ buffer → buffer.length ≤ limit →
      Reaches sep limit onLine s₀ .receiving chunks taken s buffer

section Reader
variable {sep : χ} {limit : Nat} {tooLong : ε} {onLine : σ → List χ → Gen ε α σ} {s₀ : σ}
  {stage : Stage} {chunks taken : List (List χ)} {s : σ} {buffer : List χ}

theorem boundedLine_of_le {l : List χ} (h : l.length ≤ limit) :
    boundedLine limit tooLong onLine s l = onLine s l := if_neg (Nat.not_lt.mpr h)

theorem boundedLine_ok {l : List χ} {s' : σ}
    (h : (boundedLine limit tooLong onLine s l).result = .ok s') : l.length ≤ limit := by
  rw [boundedLine] at h
  split at h
  · cases h
  · next hshort => exact Nat.le_of_not_lt hshort

namespace Reaches

/-- The state is the one the lines taken lead to. -/
theorem run (h : Reaches sep limit onLine s₀ stage chunks taken s buffer) (tooLong : ε) :
    (taken.foldlM (boundedLine limit tooLong onLine) s₀).result = .ok s := by
  induction h with
  | start => rfl
  | receive chunk h ih => exact ih
  | line h hsep hlength hline ih =>
      rw [Gen.foldlM_concat_of_ok ih, boundedLine_of_le hlength]
      exact hline
  | drained h hsep hlength ih => exact ih

/-- Nothing received is lost: it is a line taken or still in the buffer. -/
theorem stream (h : Reaches sep limit onLine s₀ stage chunks taken s buffer) :
    (∀ l ∈ taken, sep ∉ l) ∧ chunks.flatten = taken.flatMap (· ++ [sep]) ++ buffer := by
  induction h with
  | start => exact ⟨fun l hl => absurd hl List.not_mem_nil, rfl⟩
  | receive chunk h ih =>
      refine ⟨ih.1, ?_⟩
      rw [List.flatten_append, ih.2, List.flatten_singleton, List.append_assoc]
  | line h hsep hlength hline ih =>
      constructor
      · intro l hl
        cases List.mem_append.mp hl with
        | inl htaken => exact ih.1 l htaken
        | inr hlast =>
            rw [List.mem_singleton.mp hlast]
            exact hsep
      · rw [ih.2, List.flatMap_append, List.flatMap_singleton, List.append_assoc,
          List.append_assoc, List.singleton_append]
  | drained h hsep hlength ih => exact ih

theorem buffer_bound (h : Reaches sep limit onLine s₀ .receiving chunks taken s buffer) :
    sep ∉ buffer ∧ buffer.length ≤ limit := by
  cases h with
  | start => exact ⟨List.not_mem_nil, Nat.zero_le _⟩
  | drained h hsep hlength => exact ⟨hsep, hlength⟩

theorem taken_eq_lines [DecidableEq χ]
    (h : Reaches sep limit onLine s₀ .receiving chunks taken s buffer) :
    taken = lines sep chunks.flatten := by
  rw [h.stream.2, lines_flatMap h.stream.1, lines_of_not_mem h.buffer_bound.1, List.append_nil]

end Reaches

variable [DecidableEq χ]

theorem not_mem_of_drain {s' : σ} {rest : List χ}
    (h : (drain sep limit tooLong onLine s buffer).result = .ok (s', rest)) : sep ∉ rest := by
  rw [drain_eq] at h
  obtain ⟨s₁, -, hrest, -⟩ := Gen.bind_result_ok h
  cases hrest
  exact not_mem_residue buffer

theorem feed_of_drained (hsep : sep ∉ buffer) (hlength : buffer.length ≤ limit) :
    feed sep limit tooLong onLine (s, buffer) [] = pure (s, buffer) := by
  rw [feed, List.append_nil, drain_open hsep, pure_bind, if_neg (Nat.not_lt.mpr hlength)]

theorem feed_line {l rest : List χ} {s' : σ} (hsep : sep ∉ l) (hlength : l.length ≤ limit)
    (hline : (onLine s l).result = .ok s') :
    (feed sep limit tooLong onLine (s, l ++ sep :: rest) []).result =
      (feed sep limit tooLong onLine (s', rest) []).result := by
  rw [feed, feed, List.append_nil, List.append_nil, drain_line hsep, boundedLine_of_le hlength,
    bind_assoc, Gen.bind_of_ok hline]

/-- Where the chunks received lead: to the state between chunks, or where the rest of
the last one leads from a state between lines. -/
theorem Reaches.feed (h : Reaches sep limit onLine s₀ stage chunks taken s buffer)
    (tooLong : ε) : (chunks.foldlM (LineBuffer.feed sep limit tooLong onLine) (s₀, [])).result =
      (LineBuffer.feed sep limit tooLong onLine (s, buffer) []).result := by
  induction h with
  | start =>
      rw [feed_of_drained List.not_mem_nil (Nat.zero_le _)]
      rfl
  | receive chunk h ih =>
      rw [feed_of_drained h.buffer_bound.1 h.buffer_bound.2] at ih
      rw [Gen.foldlM_concat_of_ok ih, LineBuffer.feed, LineBuffer.feed, List.append_nil]
  | line h hsep hlength hline ih => rw [ih, feed_line hsep hlength hline]
  | drained h hsep hlength ih => exact ih

theorem Reaches.drain (h : Reaches sep limit onLine s₀ .draining chunks taken s buffer)
    {s' : σ} {rest : List χ}
    (hdrain : (LineBuffer.drain sep limit tooLong onLine s buffer).result = .ok (s', rest)) :
    ∃ taken', Reaches sep limit onLine s₀ .draining chunks taken' s' rest := by
  induction buffer using line_induction sep generalizing taken s with
  | open_line xs hsep =>
      rw [drain_open hsep] at hdrain
      cases hdrain
      exact ⟨taken, h⟩
  | line l xs hsep ih =>
      rw [drain_line hsep] at hdrain
      obtain ⟨s₁, hline, hrest, -⟩ := Gen.bind_result_ok hdrain
      have hlength := boundedLine_ok hline
      rw [boundedLine_of_le hlength] at hline
      exact ih (h.line hsep hlength hline) hrest

/-- The states between chunks are those the reader's own loop over chunks leads to. -/
theorem reaches_iff_feed (tooLong : ε) :
    Reaches sep limit onLine s₀ .receiving chunks (lines sep chunks.flatten) s buffer ↔
      (chunks.foldlM (feed sep limit tooLong onLine) (s₀, [])).result = .ok (s, buffer) := by
  constructor
  · intro h
    rw [h.feed tooLong, feed_of_drained h.buffer_bound.1 h.buffer_bound.2]
    rfl
  · suffices hreach : (chunks.foldlM (feed sep limit tooLong onLine) (s₀, [])).result =
        .ok (s, buffer) → ∃ taken, Reaches sep limit onLine s₀ .receiving chunks taken s buffer by
      intro h
      obtain ⟨taken, h⟩ := hreach h
      rw [← h.taken_eq_lines]
      exact h
    induction chunks using List.reverseRecOn generalizing s buffer with
    | nil =>
        intro h
        cases h
        exact ⟨[], Reaches.start⟩
    | append_singleton chunks chunk ih =>
        intro h
        obtain ⟨p, hbefore⟩ := Gen.foldlM_prefix_ok h
        obtain ⟨taken, hreach⟩ := ih hbefore
        rw [Gen.foldlM_concat_of_ok hbefore] at h
        obtain ⟨p', hdrain, hbound, -⟩ := Gen.bind_result_ok h
        obtain ⟨taken', hdrained⟩ := (hreach.receive chunk).drain hdrain
        have hsep := not_mem_of_drain hdrain
        split at hbound
        · cases hbound
        · next hshort =>
            cases hbound
            exact ⟨taken', hdrained.drained hsep (Nat.le_of_not_lt hshort)⟩

end Reader
end Foundation.LineBuffer
