import DualeAI.Foundation.Text

/-!
SQLite's `LIKE` without an `ESCAPE` clause.

`%` stands for any text and `_` for any character, every other character for itself
in either case of the ASCII letters. The two noncharacters below U+10000 are read as the
replacement character. Both sides end at their first NUL.
-/
namespace Foundation

/-- A character as it is compared. -/
def likeFold (c : Char) : Char :=
  if c = '\uFFFE' ∨ c = '\uFFFF' then '\uFFFD' else c.toLower

def likeMatch : Text → Text → Bool
  | [], t => t.isEmpty
  | c :: p, t =>
      if c = '%' then t.tails.any (likeMatch p)
      else
        match t with
        | [] => false
        | d :: t => (c == '_' || likeFold c == likeFold d) && likeMatch p t

def cText (t : Text) : Text := t.takeWhile (· != '\x00')

/-- `t LIKE pattern`. -/
def like (pattern t : Text) : Bool := likeMatch (cText pattern) (cText t)

theorem cText_eq {t : Text} (h : '\x00' ∉ t) : cText t = t := by
  refine List.takeWhile_eq_self_iff.mpr fun c hc => ?_
  simpa using fun heq : c = '\x00' => h (heq ▸ hc)

/-- A pattern in two parts matches a text in two parts. -/
theorem likeMatch_append {p q t : Text} :
    likeMatch (p ++ q) t = true ↔
      ∃ u v, t = u ++ v ∧ likeMatch p u = true ∧ likeMatch q v = true := by
  induction p generalizing t with
  | nil =>
      constructor
      · exact fun h => ⟨[], t, rfl, rfl, h⟩
      · rintro ⟨u, v, rfl, hu, hv⟩
        rw [List.isEmpty_iff.mp hu]
        exact hv
  | cons c p ih =>
      simp only [List.cons_append, likeMatch]
      by_cases hc : c = '%'
      · simp only [if_pos hc, any_tails]
        constructor
        · rintro ⟨u, w, rfl, hw⟩
          obtain ⟨v, x, rfl, hv, hx⟩ := ih.mp hw
          exact ⟨u ++ v, x, (List.append_assoc _ _ _).symm, ⟨u, v, rfl, hv⟩, hx⟩
        · rintro ⟨_, x, rfl, ⟨u, v, rfl, hv⟩, hx⟩
          exact ⟨u, v ++ x, List.append_assoc _ _ _, ih.mpr ⟨v, x, rfl, hv, hx⟩⟩
      · simp only [if_neg hc]
        constructor
        · intro h
          cases t with
          | nil => cases h
          | cons d t =>
              obtain ⟨hd, ht⟩ := Bool.and_eq_true_iff.mp h
              obtain ⟨u, v, rfl, hu, hv⟩ := ih.mp ht
              exact ⟨d :: u, v, rfl, Bool.and_eq_true_iff.mpr ⟨hd, hu⟩, hv⟩
        · rintro ⟨u, v, rfl, hu, hv⟩
          cases u with
          | nil => cases hu
          | cons d u =>
              obtain ⟨hd, hu⟩ := Bool.and_eq_true_iff.mp hu
              exact Bool.and_eq_true_iff.mpr ⟨hd, ih.mpr ⟨u, v, rfl, hu, hv⟩⟩

theorem likeMatch_percent (t : Text) : likeMatch ['%'] t = true :=
  any_tails.mpr ⟨t, [], (List.append_nil t).symm, rfl⟩

/-- A pattern that ends in `%` looks for a beginning. -/
theorem likeMatch_append_percent {p t : Text} :
    likeMatch (p ++ ['%']) t = true ↔ ∃ u v, t = u ++ v ∧ likeMatch p u = true := by
  rw [likeMatch_append]
  constructor
  · rintro ⟨u, v, ht, hu, -⟩
    exact ⟨u, v, ht, hu⟩
  · rintro ⟨u, v, ht, hu⟩
    exact ⟨u, v, ht, hu, likeMatch_percent v⟩

/-- Without wildcards only the folding of characters is left. -/
theorem likeMatch_literal {p t : Text} (hpercent : '%' ∉ p) (hunderscore : '_' ∉ p) :
    likeMatch p t = true ↔ p.map likeFold = t.map likeFold := by
  induction p generalizing t with
  | nil => cases t <;> simp [likeMatch]
  | cons c p ih =>
      have hc : c ≠ '%' := (List.ne_of_not_mem_cons hpercent).symm
      have hc' : (c == '_') = false :=
        beq_eq_false_iff_ne.mpr (List.ne_of_not_mem_cons hunderscore).symm
      have ih {t : Text} := ih (t := t) (List.not_mem_of_not_mem_cons hpercent)
        (List.not_mem_of_not_mem_cons hunderscore)
      cases t with
      | nil => simp [likeMatch, hc]
      | cons d t => simp [likeMatch, hc, hc', ih]

/-- A text matches itself, wildcards and all. -/
theorem likeMatch_self (t : Text) : likeMatch t t = true := by
  induction t with
  | nil => rfl
  | cons c t ih =>
      rw [likeMatch]
      split
      · exact any_tails.mpr ⟨[c], t, rfl, ih⟩
      · simp [ih]

/-- What begins with a text is like that text and `%`. -/
theorem like_append_percent (p t : Text) : like (p ++ ['%']) (p ++ t) = true := by
  rw [like, cText, cText, List.takeWhile_append, List.takeWhile_append]
  split
  · exact likeMatch_append_percent.mpr ⟨p, _, rfl, likeMatch_self p⟩
  · exact likeMatch_self _

end Foundation
