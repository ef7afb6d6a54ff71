import Mathlib.Control.Monad.Basic
import Mathlib.Data.List.Basic

/-!
Generators as finished runs.

A Python generator hands values to its consumer one at a time and then either
returns or raises. What a consumer can observe of a run is the list of yielded
values together with the way the run ended, and values yielded before an
exception stay yielded. `Gen` records exactly that. Its monad sequences two
bodies of one generator function; an exception cuts the second body off.
-/
namespace Foundation
universe u v w

structure Gen (ε : Type u) (α : Type v) (β : Type w) where
  yields : List α
  result : Except ε β

namespace Gen
variable {ε : Type u} {α : Type v} {β γ δ : Type w}

@[ext] theorem ext {g h : Gen ε α β} (hy : g.yields = h.yields)
    (hr : g.result = h.result) : g = h := by
  cases g; cases h; simp_all

def ret (b : β) : Gen ε α β := ⟨[], .ok b⟩

def raise (e : ε) : Gen ε α β := ⟨[], .error e⟩

def emit (a : α) : Gen ε α PUnit := ⟨[a], .ok ⟨⟩⟩

def andThen (g : Gen ε α β) (k : β → Gen ε α γ) : Gen ε α γ :=
  match g.result with
  | .ok b => ⟨g.yields ++ (k b).yields, (k b).result⟩
  | .error e => ⟨g.yields, .error e⟩

instance : Monad (Gen ε α) where
  pure := ret
  bind := andThen

@[simp] theorem pure_yields (b : β) : (pure b : Gen ε α β).yields = [] := rfl
@[simp] theorem pure_result (b : β) : (pure b : Gen ε α β).result = .ok b := rfl
@[simp] theorem raise_yields (e : ε) : (raise e : Gen ε α β).yields = [] := rfl
@[simp] theorem raise_result (e : ε) : (raise e : Gen ε α β).result = .error e := rfl
@[simp] theorem emit_yields (a : α) : (emit a : Gen ε α PUnit).yields = [a] := rfl
@[simp] theorem emit_result (a : α) : (emit a : Gen ε α PUnit).result = .ok ⟨⟩ := rfl

@[simp] theorem mk_ok_bind (ys : List α) (b : β) (k : β → Gen ε α γ) :
    ((⟨ys, .ok b⟩ : Gen ε α β) >>= k) = ⟨ys ++ (k b).yields, (k b).result⟩ := rfl

@[simp] theorem mk_error_bind (ys : List α) (e : ε) (k : β → Gen ε α γ) :
    ((⟨ys, .error e⟩ : Gen ε α β) >>= k) = ⟨ys, .error e⟩ := rfl

@[simp] theorem raise_bind (e : ε) (k : β → Gen ε α γ) :
    ((raise e : Gen ε α β) >>= k) = raise e := rfl

theorem bind_of_ok {g : Gen ε α β} {b : β} (h : g.result = .ok b) (k : β → Gen ε α γ) :
    (g >>= k) = ⟨g.yields ++ (k b).yields, (k b).result⟩ := by
  cases g; cases h; rfl

theorem bind_of_error {g : Gen ε α β} {e : ε} (h : g.result = .error e)
    (k : β → Gen ε α γ) : (g >>= k) = ⟨g.yields, .error e⟩ := by
  cases g; cases h; rfl

instance : LawfulMonad (Gen ε α) := LawfulMonad.mk' (Gen ε α)
  (by intro β g; obtain ⟨ys, r⟩ := g; cases r <;> simp [Functor.map, andThen, ret])
  (by intro β γ b k; simp [Bind.bind, Pure.pure, andThen, ret])
  (by
    intro β γ δ g k l
    obtain ⟨ys, r⟩ := g
    cases r with
    | error e => rfl
    | ok b =>
        cases hk : (k b).result with
        | error e => simp [mk_ok_bind, bind_of_error hk, hk]
        | ok c => simp [mk_ok_bind, bind_of_ok hk, hk])

theorem yields_isPrefix_bind (g : Gen ε α β) (k : β → Gen ε α γ) :
    g.yields <+: (g >>= k).yields := by
  obtain ⟨ys, r⟩ := g
  cases r with
  | error e => exact List.prefix_rfl
  | ok b => exact List.prefix_append _ _

theorem bind_result_ok {g : Gen ε α β} {k : β → Gen ε α γ} {c : γ}
    (h : (g >>= k).result = .ok c) :
    ∃ b, g.result = .ok b ∧ (k b).result = .ok c ∧
      (g >>= k).yields = g.yields ++ (k b).yields := by
  cases hg : g.result with
  | error e => rw [bind_of_error hg] at h; cases h
  | ok b => rw [bind_of_ok hg] at h ⊢; exact ⟨b, rfl, h, rfl⟩

section Fold
variable {σ : Type w} {ι : Type u} {f : σ → ι → Gen ε α σ} {s s' : σ} {xs : List ι}

theorem foldlM_append_of_ok (h : (xs.foldlM f s).result = .ok s') (ys : List ι) :
    ((xs ++ ys).foldlM f s).result = (ys.foldlM f s').result := by
  rw [List.foldlM_append, bind_of_ok h]

theorem foldlM_concat_of_ok (h : (xs.foldlM f s).result = .ok s') (x : ι) :
    ((xs ++ [x]).foldlM f s).result = (f s' x).result := by
  rw [foldlM_append_of_ok h, List.foldlM_cons]
  simp only [List.foldlM_nil, bind_pure]

/-- A run that raises does so at one entry, all before it having passed. -/
theorem foldlM_raises {e : ε} (h : (xs.foldlM f s).result = .error e) :
    ∃ front x back s₁, xs = front ++ x :: back ∧ (front.foldlM f s).result = .ok s₁ ∧
      (f s₁ x).result = .error e := by
  induction xs generalizing s with
  | nil => cases h
  | cons x xs ih =>
      rw [List.foldlM_cons] at h
      cases hx : (f s x).result with
      | error e' =>
          rw [bind_of_error hx] at h
          cases h
          exact ⟨[], x, xs, s, rfl, rfl, hx⟩
      | ok s₁ =>
          rw [bind_of_ok hx] at h
          obtain ⟨front, y, back, s₂, hsplit, hfront, hy⟩ := ih h
          refine ⟨x :: front, y, back, s₂, by rw [hsplit, List.cons_append], ?_, hy⟩
          rw [List.foldlM_cons, bind_of_ok hx]
          exact hfront

theorem foldlM_prefix_ok {front back : List ι} (h : ((front ++ back).foldlM f s).result = .ok s') :
    ∃ s₁, (front.foldlM f s).result = .ok s₁ := by
  rw [List.foldlM_append] at h
  obtain ⟨s₁, hfront, -, -⟩ := bind_result_ok h
  exact ⟨s₁, hfront⟩

end Fold
end Gen
end Foundation
