import Mathlib.Data.Option.Basic
import Mathlib.Logic.Function.Basic

/-!
A memory whose values expire: what a cache is for.

A value is there from its store until its lifetime is over, it is replaced or it is
removed. It is no longer there at the instant its lifetime ends.
-/
namespace Foundation

/-- Without a lifetime a value is kept for good. -/
structure Kept (ν : Type) where
  value : ν
  storedAt : Int
  lifetime : Option Int

def Kept.expiresAt {ν : Type} (kept : Kept ν) : Option Int := kept.lifetime.map (kept.storedAt + ·)

def Kept.isLive {ν : Type} (now : Int) (kept : Kept ν) : Bool := kept.expiresAt.all (now < ·)

abbrev ExpiringMemory (κ ν : Type) := κ → Option (Kept ν)

inductive MemoryAction (κ ν : Type) where
  | store (key : κ) (kept : Kept ν)
  | remove (key : κ)
  | removeAll
  /-- What changes nothing that can be read. -/
  | look

/-- Whether an action stores or removes what is under the key. -/
def MemoryAction.Touches {κ ν : Type} (key : κ) : MemoryAction κ ν → Prop
  | .store k _ | .remove k => k = key
  | .removeAll => True
  | .look => False

namespace ExpiringMemory
variable {κ ν : Type}

def empty : ExpiringMemory κ ν := fun _ => none

def read (now : Int) (key : κ) (memory : ExpiringMemory κ ν) : Option ν :=
  ((memory key).filter (Kept.isLive now)).map Kept.value

variable [DecidableEq κ]

def act (memory : ExpiringMemory κ ν) : MemoryAction κ ν → ExpiringMemory κ ν
  | .store key kept => Function.update memory key (some kept)
  | .remove key => Function.update memory key none
  | .removeAll => empty
  | .look => memory

theorem act_of_not_touches {key : κ} {action : MemoryAction κ ν} (h : ¬ action.Touches key)
    (memory : ExpiringMemory κ ν) : memory.act action key = memory key := by
  cases action with
  | store k kept => exact Function.update_of_ne (fun heq => h heq.symm) _ _
  | remove k => exact Function.update_of_ne (fun heq => h heq.symm) _ _
  | removeAll => exact absurd trivial h
  | look => rfl

theorem run_of_not_touches {key : κ} {actions : List (MemoryAction κ ν)}
    (h : ∀ action ∈ actions, ¬ action.Touches key) (memory : ExpiringMemory κ ν) :
    actions.foldl act memory key = memory key := by
  induction actions generalizing memory with
  | nil => rfl
  | cons action actions ih =>
      have hrest : ∀ action ∈ actions, ¬ action.Touches key :=
        fun action hmem => h action (List.mem_cons_of_mem _ hmem)
      rw [List.foldl_cons, ih hrest]
      exact act_of_not_touches (h action List.mem_cons_self) memory

/-- A stored value can be read until it expires, is replaced or is removed. -/
theorem read_of_stored {key : κ} {kept : Kept ν} {actions : List (MemoryAction κ ν)} {now : Int}
    (h : ∀ action ∈ actions, ¬ action.Touches key) (hlive : kept.isLive now = true)
    (memory : ExpiringMemory κ ν) :
    read now key (actions.foldl act (memory.act (.store key kept))) = some kept.value := by
  rw [read, run_of_not_touches h, act, Function.update_self, Option.filter_some_pos hlive,
    Option.map_some]

end ExpiringMemory

theorem filter_filter_of_imp {α : Type} {p q : α → Bool} {o : Option α}
    (h : ∀ a, p a = true → q a = true) : (o.filter q).filter p = o.filter p := by
  rw [Option.filter_filter]
  congr 1
  funext a
  cases hp : p a with
  | false => exact Bool.and_false _
  | true => exact Bool.and_true _ ▸ h a hp

end Foundation
