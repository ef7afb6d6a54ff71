import Mathlib.Init

/-!
Coroutines cut at their awaits.

A coroutine that is resumed runs to its next await, returns or raises. `nest`
makes an awaited coroutine part of the one that awaits it: a suspension of the
inner one is a suspension of the outer one, and its end is where the outer one
goes on.
-/
namespace Foundation
variable {ε π π' ρ ρ' : Type}

inductive Progress (ε π ρ : Type) where
  | suspended (point : π)
  | returned (result : ρ)
  | raised (e : ε)

namespace Progress

def nest (within : π → π') (next : ρ → Progress ε π' ρ') (handler : ε → Progress ε π' ρ') :
    Progress ε π ρ → Progress ε π' ρ'
  | .suspended point => .suspended (within point)
  | .returned result => next result
  | .raised e => handler e

/-- What holds at the await a coroutine stops at, and of its result. -/
def Holds (S : π → Prop) (R : ρ → Prop) : Progress ε π ρ → Prop
  | .suspended point => S point
  | .returned result => R result
  | .raised _ => True

variable {S : π → Prop} {R : ρ → Prop} {S' : π' → Prop} {R' : ρ' → Prop}
  {within : π → π'} {next : ρ → Progress ε π' ρ'} {handler : ε → Progress ε π' ρ'}

theorem holds_of_forall (hpoint : ∀ point, S point) (hresult : ∀ result, R result)
    (p : Progress ε π ρ) : p.Holds S R := by
  cases p with
  | suspended point => exact hpoint point
  | returned result => exact hresult result
  | raised e => trivial

theorem Holds.nest {p : Progress ε π ρ} (h : p.Holds S R)
    (hwithin : ∀ point, S point → S' (within point))
    (hnext : ∀ result, R result → (next result).Holds S' R')
    (hhandler : ∀ e, (handler e).Holds S' R') : (p.nest within next handler).Holds S' R' := by
  cases p with
  | suspended point => exact hwithin point h
  | returned result => exact hnext result h
  | raised e => exact hhandler e

end Progress
end Foundation
