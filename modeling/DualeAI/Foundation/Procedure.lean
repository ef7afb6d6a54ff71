import Mathlib.Control.Monad.Basic
import Mathlib.Data.List.Forall2

/-!
Procedures over a shared state.

A coroutine changes the objects it was given and then returns or raises, and
what it changed before an exception stays changed: `EStateM` without
backtracking. The lemmas give the run of a statement from the runs of its parts,
for sequencing, `except` clauses, `contextlib.suppress` and `finally`.
-/
namespace Foundation.Procedure
variable {ε σ α β : Type}

/-- An awaited call that ends as `result` says and leaves the state alone. -/
def await (result : Except ε α) : EStateM ε σ α := fun s =>
  match result with
  | .ok a => .ok a s
  | .error e => .error e s

/-- An `except` clause for the exceptions in `caught`. -/
def excepting (caught : ε → Bool) (p : EStateM ε σ α) (handle : ε → EStateM ε σ α) :
    EStateM ε σ α :=
  tryCatch p fun e => if caught e then handle e else throw e

/-- `contextlib.suppress`. -/
def suppress (caught : ε → Bool) (p : EStateM ε σ Unit) : EStateM ε σ Unit :=
  excepting caught p fun _ => pure ()

def stateAfter (p : EStateM ε σ α) (s : σ) : σ :=
  match p.run s with
  | .ok _ t | .error _ t => t

def RaisesOnly (caught : ε → Bool) (result : Except ε α) : Prop :=
  ∀ e, result = .error e → caught e = true

section Runs
variable {p : EStateM ε σ α} {s t u : σ} {a : α} {e : ε}

theorem await_ok : (await (.ok a) : EStateM ε σ α).run s = .ok a s := rfl

theorem await_error : (await (.error e) : EStateM ε σ α).run s = .error e s := rfl

theorem bind_of_ok (h : p.run s = .ok a t) (k : α → EStateM ε σ β) :
    (p >>= k).run s = (k a).run t := by
  rw [EStateM.run_bind, h]

theorem bind_of_error (h : p.run s = .error e t) (k : α → EStateM ε σ β) :
    (p >>= k).run s = .error e t := by
  rw [EStateM.run_bind, h]

theorem modify_bind (f : σ → σ) (k : Unit → EStateM ε σ β) :
    ((modify f : EStateM ε σ Unit) >>= k).run s = (k ()).run (f s) := rfl

theorem get_bind (k : σ → EStateM ε σ β) :
    ((get : EStateM ε σ σ) >>= k).run s = (k s).run s := rfl

variable {caught : ε → Bool} {handle : ε → EStateM ε σ α}

theorem excepting_of_ok (h : p.run s = .ok a t) :
    (excepting caught p handle).run s = .ok a t := by
  have hp : p s = .ok a t := h
  simp only [excepting, EStateM.run, tryCatch, tryCatchThe, MonadExceptOf.tryCatch,
    EStateM.tryCatch, hp]

theorem excepting_of_caught (h : p.run s = .error e t) (hcaught : caught e = true) :
    (excepting caught p handle).run s = (handle e).run t := by
  have hp : p s = .error e t := h
  simp only [excepting, EStateM.run, tryCatch, tryCatchThe, MonadExceptOf.tryCatch,
    EStateM.tryCatch, hp, hcaught, ite_true]
  rfl

theorem excepting_of_uncaught (h : p.run s = .error e t) (hcaught : caught e = false) :
    (excepting caught p handle).run s = .error e t := by
  have hp : p s = .error e t := h
  simp only [excepting, EStateM.run, tryCatch, tryCatchThe, MonadExceptOf.tryCatch,
    EStateM.tryCatch, hp, hcaught]
  rfl

variable {q : EStateM ε σ Unit}

theorem finally_of_ok (h : p.run s = .ok a t) (hq : q.run t = .ok () u) :
    (tryFinally p q).run s = .ok a u := by
  have hp : p s = .ok a t := h
  have hq' : q t = .ok () u := hq
  simp only [tryFinally, EStateM.run, Functor.map, EStateM.map, tryFinally', hp, hq']

/-- Whatever the body did, the finalizer takes over from the state it left. -/
theorem stateAfter_finally : stateAfter (tryFinally p q) s = stateAfter q (stateAfter p s) := by
  simp only [stateAfter, tryFinally, EStateM.run, Functor.map, EStateM.map, tryFinally']
  cases p s with
  | ok a t => cases hq : q t <;> simp only [hq]
  | error e t => cases hq : q t <;> simp only [hq]

end Runs
/-! ## Checks that change nothing -/

section Checks
variable {δ : Type}

theorem bind_eq_ok {x : Except ε α} {f : α → Except ε β} {b : β} (h : x >>= f = .ok b) :
    ∃ a, x = .ok a ∧ f a = .ok b := by
  cases x with
  | error e => cases h
  | ok a => exact ⟨a, rfl, h⟩

theorem mapError_eq_ok {x : Except ε α} {f : ε → δ} {a : α} (h : x.mapError f = .ok a) :
    x = .ok a := by
  cases x with
  | error e => cases h
  | ok a' => exact congrArg _ (Except.ok.inj h)

theorem forall₂_of_mapM {f : α → Except ε β} {items : List α} {results : List β}
    (h : items.mapM f = .ok results) : List.Forall₂ (fun a b => f a = .ok b) items results := by
  induction items generalizing results with
  | nil =>
      cases h
      exact .nil
  | cons a items ih =>
      rw [List.mapM_cons] at h
      obtain ⟨b, hb, h⟩ := bind_eq_ok h
      obtain ⟨rest, hrest, h⟩ := bind_eq_ok h
      cases h
      exact .cons hb (ih hrest)

end Checks

end Foundation.Procedure
