import DualeAI.Foundation.Generator

/-!
A delimiter buffer fed in chunks.

The reader appends each chunk to a residual buffer, hands every complete line to
a line handler and refuses a line longer than a limit, whether the line is
complete or still growing. `feed_eq_wholeStream` shows that the cuts between the
chunks leave no trace: the run is the one over the concatenated stream.
-/
namespace Foundation.LineBuffer
universe u v w
variable {χ : Type u} [DecidableEq χ] {ε : Type u} {α : Type v} {σ : Type u}

/-! ## Lines of a stream -/

section Lines
variable (sep : χ)

/-- The complete lines of a stream, their delimiters dropped. -/
def lines (xs : List χ) : List (List χ) := (xs.splitOn sep).dropLast

def residue (xs : List χ) : List χ :=
  (xs.splitOn sep).getLast (List.splitOn_ne_nil sep xs)

variable {sep}

@[simp] theorem lines_of_not_mem {xs : List χ} (h : sep ∉ xs) : lines sep xs = [] := by
  simp [lines, List.splitOn_eq_singleton h]

@[simp] theorem residue_of_not_mem {xs : List χ} (h : sep ∉ xs) : residue sep xs = xs := by
  simp [residue, List.splitOn_eq_singleton h]

theorem lines_line {l : List χ} (h : sep ∉ l) (xs : List χ) :
    lines sep (l ++ sep :: xs) = l :: lines sep xs := by
  rw [lines, List.splitOn_append_cons_self_of_not_mem h,
    List.dropLast_cons_of_ne_nil (List.splitOn_ne_nil sep xs), lines]

theorem residue_line {l : List χ} (h : sep ∉ l) (xs : List χ) :
    residue sep (l ++ sep :: xs) = residue sep xs := by
  simp only [residue, List.splitOn_append_cons_self_of_not_mem h]
  exact List.getLast_cons (List.splitOn_ne_nil sep xs)

/-- A stream is one unfinished line, or a finished line and a stream. -/
theorem line_cases (sep : χ) (xs : List χ) :
    sep ∉ xs ∨ ∃ l ys, sep ∉ l ∧ xs = l ++ sep :: ys := by
  by_cases h : sep ∈ xs
  · obtain ⟨l, ys, he, hl⟩ := List.eq_append_cons_of_mem h
    exact .inr ⟨l, ys, hl, he⟩
  · exact .inl h

theorem line_induction (sep : χ) {P : List χ → Prop} (open_line : ∀ xs, sep ∉ xs → P xs)
    (line : ∀ l xs, sep ∉ l → P xs → P (l ++ sep :: xs)) (xs : List χ) : P xs := by
  induction hn : xs.length using Nat.strongRecOn generalizing xs with
  | _ n ih =>
      cases line_cases sep xs with
      | inl h => exact open_line xs h
      | inr hright =>
          obtain ⟨l, ys, hl, rfl⟩ := hright
          refine line l ys hl (ih ys.length ?_ ys rfl)
          simp only [List.length_append, List.length_cons] at hn
          omega

theorem not_mem_residue (xs : List χ) : sep ∉ residue sep xs := by
  induction xs using line_induction sep with
  | open_line xs h => rwa [residue_of_not_mem h]
  | line l xs hl ih => rwa [residue_line hl]

theorem lines_append (xs ys : List χ) :
    lines sep (xs ++ ys) = lines sep xs ++ lines sep (residue sep xs ++ ys) := by
  induction xs using line_induction sep with
  | open_line xs h => simp [h]
  | line l xs hl ih =>
      rw [List.append_assoc, List.cons_append, lines_line hl, lines_line hl, residue_line hl, ih,
        List.cons_append]

theorem residue_append (xs ys : List χ) :
    residue sep (xs ++ ys) = residue sep (residue sep xs ++ ys) := by
  induction xs using line_induction sep with
  | open_line xs h => simp [h]
  | line l xs hl ih =>
      rw [List.append_assoc, List.cons_append, residue_line hl, residue_line hl, ih]

@[simp] theorem residue_concat_sep (xs : List χ) : residue sep (xs ++ [sep]) = [] := by
  rw [residue_append]
  simpa using residue_line (not_mem_residue xs) ([] : List χ)

theorem lines_flatMap {ls : List (List χ)} (h : ∀ l ∈ ls, sep ∉ l) (xs : List χ) :
    lines sep (ls.flatMap (· ++ [sep]) ++ xs) = ls ++ lines sep xs := by
  induction ls with
  | nil => rfl
  | cons l ls ih =>
      have hl := h l List.mem_cons_self
      have hs : ∀ k ∈ ls, sep ∉ k := fun k hk => h k (List.mem_cons_of_mem l hk)
      rw [List.flatMap_cons, List.append_assoc, List.append_assoc, List.singleton_append,
        lines_line hl, ih hs, List.cons_append]

theorem residue_flatMap {ls : List (List χ)} (h : ∀ l ∈ ls, sep ∉ l) (xs : List χ) :
    residue sep (ls.flatMap (· ++ [sep]) ++ xs) = residue sep xs := by
  induction ls with
  | nil => rfl
  | cons l ls ih =>
      have hl := h l List.mem_cons_self
      have hs : ∀ k ∈ ls, sep ∉ k := fun k hk => h k (List.mem_cons_of_mem l hk)
      rw [List.flatMap_cons, List.append_assoc, List.append_assoc, List.singleton_append,
        residue_line hl, ih hs]

end Lines

/-! ## The reader -/

section Reader
variable (sep : χ) (limit : Nat) (tooLong : ε) (onLine : σ → List χ → Gen ε α σ)

def drain (s : σ) (buffer : List χ) : Gen ε α (σ × List χ) :=
  match h : buffer.idxOf? sep with
  | none => pure (s, buffer)
  | some lineEnd =>
      if lineEnd > limit then Gen.raise tooLong
      else do
        let s' ← onLine s (buffer.take lineEnd)
        drain s' (buffer.drop (lineEnd + 1))
termination_by buffer.length
decreasing_by
  have : lineEnd < buffer.length := by
    obtain ⟨hlt, -⟩ := List.findIdx?_eq_some_iff_getElem.mp h
    exact hlt
  simp only [List.length_drop]
  omega

/-- One chunk: buffer it, drain the complete lines, bound what is left. -/
def feed (p : σ × List χ) (chunk : List χ) : Gen ε α (σ × List χ) := do
  let p' ← drain sep limit tooLong onLine p.1 (p.2 ++ chunk)
  if p'.2.length > limit then Gen.raise tooLong else pure p'

def boundedLine (s : σ) (line : List χ) : Gen ε α σ :=
  if line.length > limit then Gen.raise tooLong else onLine s line

/-- The run over an uncut stream: its lines in order, then the unfinished one. -/
def wholeStream (s : σ) (xs : List χ) : Gen ε α σ := do
  let s' ← (lines sep xs).foldlM (boundedLine limit tooLong onLine) s
  if (residue sep xs).length > limit then Gen.raise tooLong else pure s'

variable {sep limit tooLong onLine}

theorem drain_open {s : σ} {buffer : List χ} (h : sep ∉ buffer) :
    drain sep limit tooLong onLine s buffer = pure (s, buffer) := by
  rw [drain]
  have hn : buffer.idxOf? sep = none := by simpa [List.idxOf?_eq_none_iff] using h
  split
  · rfl
  · next hs => rw [hn] at hs; cases hs

theorem drain_line {s : σ} {l xs : List χ} (h : sep ∉ l) :
    drain sep limit tooLong onLine s (l ++ sep :: xs) =
      boundedLine limit tooLong onLine s l >>= fun s' =>
        drain sep limit tooLong onLine s' xs := by
  have hfind : (l ++ sep :: xs).idxOf? sep = some l.length := by
    rw [List.idxOf?_eq_some_iff]
    refine ⟨by simp, by simp, ?_⟩
    intro j hj hsep
    rw [List.getElem_append_left hj] at hsep
    exact h (hsep ▸ List.getElem_mem hj)
  rw [drain]
  split
  · next hn => rw [hfind] at hn; cases hn
  · next lineEnd hs =>
      rw [hfind] at hs
      cases hs
      rw [boundedLine]
      split
      · rfl
      · simp

theorem drain_eq (s : σ) (buffer : List χ) :
    drain sep limit tooLong onLine s buffer =
      (lines sep buffer).foldlM (boundedLine limit tooLong onLine) s >>= fun s' =>
        pure (s', residue sep buffer) := by
  induction buffer using line_induction sep generalizing s with
  | open_line xs h => simp [drain_open h, h]
  | line l xs hl ih =>
      rw [drain_line hl, lines_line hl, residue_line hl, List.foldlM_cons, bind_assoc]
      exact bind_congr ih

/-- Reading on after `xs` resumes with the state and the unfinished line it left. -/
theorem wholeStream_append (s : σ) (xs ys : List χ) :
    wholeStream sep limit tooLong onLine s (xs ++ ys) =
      (lines sep xs).foldlM (boundedLine limit tooLong onLine) s >>= fun s' =>
        wholeStream sep limit tooLong onLine s' (residue sep xs ++ ys) := by
  simp only [wholeStream, lines_append xs ys, residue_append xs ys, List.foldlM_append, bind_assoc]

theorem wholeStream_of_long {s : σ} {xs : List χ} (hsep : sep ∉ xs) (hlong : limit < xs.length)
    (ys : List χ) : wholeStream sep limit tooLong onLine s (xs ++ ys) = Gen.raise tooLong := by
  cases line_cases sep ys with
  | inl hy =>
      have h : sep ∉ xs ++ ys := by simp [hsep, hy]
      simp only [wholeStream, lines_of_not_mem h, residue_of_not_mem h, List.length_append]
      simp [show limit < xs.length + ys.length by omega]
  | inr hright =>
      obtain ⟨l, zs, hl, rfl⟩ := hright
      have h : sep ∉ xs ++ l := by simp [hsep, hl]
      rw [← List.append_assoc, wholeStream, lines_line h, List.foldlM_cons, boundedLine,
        if_pos (by simp only [List.length_append]; omega)]
      rfl

/-- A run that raises does so however the stream goes on. -/
theorem wholeStream_append_of_error {s : σ} {xs : List χ} {e : ε}
    (h : (wholeStream sep limit tooLong onLine s xs).result = .error e) (ys : List χ) :
    (wholeStream sep limit tooLong onLine s (xs ++ ys)).result = .error e := by
  rw [wholeStream_append]
  rw [wholeStream] at h
  cases hlines : ((lines sep xs).foldlM (boundedLine limit tooLong onLine) s).result with
  | error e' =>
      rw [Gen.bind_of_error hlines] at h ⊢
      exact h
  | ok s' =>
      rw [Gen.bind_of_ok hlines] at h ⊢
      split at h
      · next hlong =>
          rw [wholeStream_of_long (not_mem_residue xs) hlong]
          exact h
      · cases h

theorem feed_eq (s : σ) (buffer chunk : List χ) :
    feed sep limit tooLong onLine (s, buffer) chunk =
      (lines sep (buffer ++ chunk)).foldlM (boundedLine limit tooLong onLine) s >>= fun s' =>
        if (residue sep (buffer ++ chunk)).length > limit then Gen.raise tooLong
        else pure (s', residue sep (buffer ++ chunk)) := by
  simp only [feed, drain_eq, bind_assoc, pure_bind]

/-- Fed chunk by chunk or whole, a stream gives the same run. -/
theorem feed_eq_wholeStream (chunks : List (List χ)) (s : σ) (buffer : List χ)
    (hsep : sep ∉ buffer) (hlen : buffer.length ≤ limit) :
    (do let p ← chunks.foldlM (feed sep limit tooLong onLine) (s, buffer); pure p.1) =
      wholeStream sep limit tooLong onLine s (buffer ++ chunks.flatten) := by
  induction chunks generalizing s buffer with
  | nil =>
      simp [wholeStream, hsep, Nat.not_lt.mpr hlen]
  | cons c cs ih =>
      rw [List.foldlM_cons, feed_eq, List.flatten_cons, ← List.append_assoc, wholeStream_append,
        bind_assoc, bind_assoc]
      refine bind_congr fun s' => ?_
      have hres : sep ∉ residue sep (buffer ++ c) := not_mem_residue _
      split
      · next hlong => rw [wholeStream_of_long hres hlong]; rfl
      · next hshort => exact ih s' _ hres (Nat.le_of_not_lt hshort)

theorem wholeStream_yields_isPrefix (s : σ) (xs ys : List χ) :
    (wholeStream sep limit tooLong onLine s xs).yields <+:
      (wholeStream sep limit tooLong onLine s (xs ++ ys)).yields := by
  have hstop : (wholeStream sep limit tooLong onLine s xs).yields =
      ((lines sep xs).foldlM (boundedLine limit tooLong onLine) s).yields := by
    rw [wholeStream]
    cases hr : ((lines sep xs).foldlM (boundedLine limit tooLong onLine) s).result with
    | error e => rw [Gen.bind_of_error hr]
    | ok s' => rw [Gen.bind_of_ok hr]; split <;> simp
  rw [hstop, wholeStream_append]
  exact Gen.yields_isPrefix_bind _ _

end Reader
end Foundation.LineBuffer
