import DualeAI.Foundation.Text

/-!
Glob patterns as Redis reads them.

`*` stands for any text and `?` for any character; a class in brackets stands for
one of its characters, or for any other one after `^`; a backslash makes the
character behind it an ordinary one.
-/
namespace Foundation

inductive GlobToken where
  | anyText
  | anyChar
  | oneOf (negated : Bool) (ranges : List (Char × Char))
  | literal (c : Char)

namespace Glob

/-- The ranges of a class, and the pattern behind its bracket. -/
def readClass : Text → List (Char × Char) × Text
  | [] => ([], [])
  | ']' :: p => ([], p)
  | '\\' :: c :: p => ((c, c) :: (readClass p).1, (readClass p).2)
  | a :: '-' :: b :: p => ((if a ≤ b then (a, b) else (b, a)) :: (readClass p).1, (readClass p).2)
  | a :: p => ((a, a) :: (readClass p).1, (readClass p).2)

/-- At most `n` tokens. -/
def readTokens : (n : Nat) → Text → List GlobToken
  | 0, _ | _, [] => []
  | n + 1, '*' :: p => .anyText :: readTokens n p
  | n + 1, '?' :: p => .anyChar :: readTokens n p
  | n + 1, '[' :: '^' :: p => .oneOf true (readClass p).1 :: readTokens n (readClass p).2
  | n + 1, '[' :: p => .oneOf false (readClass p).1 :: readTokens n (readClass p).2
  | n + 1, '\\' :: c :: p => .literal c :: readTokens n p
  | n + 1, c :: p => .literal c :: readTokens n p

def tokens (pattern : Text) : List GlobToken := readTokens pattern.length pattern

def admits (c : Char) : GlobToken → Bool
  | .anyText | .anyChar => true
  | .oneOf negated ranges => ranges.any (fun (a, b) => a ≤ c && c ≤ b) != negated
  | .literal d => c == d

def matchTokens : List GlobToken → Text → Bool
  | [], t => t.isEmpty
  | .anyText :: p, t => t.tails.any (matchTokens p)
  | token :: p, t =>
      match t with
      | [] => false
      | c :: t => admits c token && matchTokens p t

end Glob

/-- `t` matches the glob `pattern`. -/
def glob (pattern t : Text) : Bool := Glob.matchTokens (Glob.tokens pattern) t

namespace Glob

/-- A character without a meaning of its own. -/
def isOrdinary (c : Char) : Bool := c != '*' && c != '?' && c != '[' && c != '\\'

theorem readTokens_ordinary {n : Nat} {c : Char} (h : isOrdinary c = true) (p : Text) :
    readTokens (n + 1) (c :: p) = .literal c :: readTokens n p := by
  simp only [isOrdinary, Bool.and_eq_true, bne_iff_ne] at h
  obtain ⟨⟨⟨hstar, hquestion⟩, hbracket⟩, hbackslash⟩ := h
  rw [readTokens] <;> intros <;> contradiction

theorem tokens_ordinary {p : Text} (h : ∀ c ∈ p, isOrdinary c = true) (q : Text) :
    tokens (p ++ q) = p.map .literal ++ tokens q := by
  rw [tokens, List.length_append]
  induction p with
  | nil => rw [List.length_nil, Nat.zero_add]; rfl
  | cons c p ih =>
      rw [List.length_cons, Nat.add_right_comm, List.cons_append,
        readTokens_ordinary (h c List.mem_cons_self),
        ih fun d hd => h d (List.mem_cons_of_mem c hd)]
      rfl

theorem matchTokens_literals {p : Text} {rest : List GlobToken} {t : Text} :
    matchTokens (p.map .literal ++ rest) t = true ↔
      ∃ u, t = p ++ u ∧ matchTokens rest u = true := by
  induction p generalizing t with
  | nil =>
      constructor
      · exact fun h => ⟨t, rfl, h⟩
      · rintro ⟨u, rfl, hu⟩
        exact hu
  | cons c p ih =>
      cases t with
      | nil => simp [matchTokens]
      | cons d t =>
          simp only [List.map_cons, List.cons_append, matchTokens, admits, Bool.and_eq_true,
            beq_iff_eq, List.cons.injEq, ih]
          constructor
          · rintro ⟨rfl, u, rfl, hu⟩
            exact ⟨u, ⟨rfl, rfl⟩, hu⟩
          · rintro ⟨u, ⟨rfl, rfl⟩, hu⟩
            exact ⟨rfl, u, rfl, hu⟩

end Glob

/-- An ordinary text with a star behind it looks for a beginning. -/
theorem glob_ordinary_star {p t : Text} (h : ∀ c ∈ p, Glob.isOrdinary c = true) :
    glob (p ++ ['*']) t = true ↔ p <+: t := by
  rw [glob, Glob.tokens_ordinary h, Glob.matchTokens_literals]
  constructor
  · rintro ⟨u, rfl, -⟩
    exact List.prefix_append p u
  · rintro ⟨u, rfl⟩
    exact ⟨u, rfl, any_tails.mpr ⟨u, [], (List.append_nil u).symm, rfl⟩⟩

end Foundation
