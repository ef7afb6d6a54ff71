import Mathlib.Data.List.Nodup
import Mathlib.Data.List.Infix

/-!
Logs read entry by entry.

`EachAgainstPast` states a property of every entry of a log against the entries
before it. `after` is what a reader gets who resumes behind the entry a cursor
names, and `advance` moves a cursor over the entries that were read.
-/
namespace Foundation.Log
universe u v
variable {α : Type u} {κ : Type v}

/-! ## Entries against their past -/

def EachAgainstPast (P : List α → α → Prop) (log : List α) : Prop :=
  ∀ before a later, log = before ++ a :: later → P before a

theorem eachAgainstPast_nil (P : List α → α → Prop) : EachAgainstPast P [] := by
  intro before a later h
  simp at h

theorem eachAgainstPast_append {P : List α → α → Prop} {xs ys : List α} :
    EachAgainstPast P (xs ++ ys) ↔
      EachAgainstPast P xs ∧ EachAgainstPast (fun before a => P (xs ++ before) a) ys := by
  constructor
  · intro h
    refine ⟨?_, ?_⟩
    · rintro before a later rfl
      exact h before a (later ++ ys) (by simp)
    · rintro before a later rfl
      exact h (xs ++ before) a later (by simp)
  · rintro ⟨hxs, hys⟩ before a later h
    rcases List.append_eq_append_iff.mp h with ⟨front, rfl, hback⟩ | ⟨front, rfl, hback⟩
    · exact hys front a later hback
    · cases front with
      | nil => simpa using hys [] a later (by simpa using hback.symm)
      | cons b front =>
          obtain ⟨rfl, -⟩ := List.cons_eq_cons.mp hback
          exact hxs before a front rfl

theorem eachAgainstPast_concat {P : List α → α → Prop} {xs : List α} {a : α} :
    EachAgainstPast P (xs ++ [a]) ↔ EachAgainstPast P xs ∧ P xs a := by
  rw [eachAgainstPast_append]
  refine and_congr_right fun _ => ⟨fun h => ?_, fun h before b later hsplit => ?_⟩
  · simpa using h [] a [] rfl
  · cases before with
    | nil =>
        obtain ⟨rfl, -⟩ := List.cons_eq_cons.mp hsplit
        rwa [List.append_nil]
    | cons c before => simp at hsplit

theorem eachAgainstPast_cons {P : List α → α → Prop} {a : α} {xs : List α} (ha : P [] a)
    (hxs : ∀ b ∈ xs, ∀ before, P before b) : EachAgainstPast P (a :: xs) := by
  intro before b later h
  cases before with
  | nil =>
      obtain ⟨rfl, -⟩ := List.cons_eq_cons.mp h
      exact ha
  | cons c before =>
      obtain ⟨-, rfl⟩ := List.cons_eq_cons.mp h
      exact hxs b (by simp) _

/-! ## Resuming behind a cursor -/

section Cursor
variable [DecidableEq κ] (cursor : α → κ)

/-- The entries behind the one the cursor names; all of them for no cursor. -/
def after : Option κ → List α → List α
  | none, log => log
  | some c, log => (log.dropWhile fun a => decide (cursor a ≠ c)).tail

omit [DecidableEq κ] in
/-- The cursor of the last entry read, if one was. -/
def advance (c : Option κ) (read : List α) : Option κ := read.foldl (fun _ a => some (cursor a)) c

variable {cursor}

omit [DecidableEq κ] in
@[simp] theorem advance_nil (c : Option κ) : advance cursor c [] = c := rfl

omit [DecidableEq κ] in
theorem advance_append (c : Option κ) (xs ys : List α) :
    advance cursor c (xs ++ ys) = advance cursor (advance cursor c xs) ys :=
  List.foldl_append

omit [DecidableEq κ] in
@[simp] theorem advance_concat (c : Option κ) (xs : List α) (a : α) :
    advance cursor c (xs ++ [a]) = some (cursor a) := by
  simp [advance]

theorem after_cursor {front back : List α} {a : α}
    (h : cursor a ∉ front.map cursor) :
    after cursor (some (cursor a)) (front ++ a :: back) = back := by
  have hfront : ∀ b ∈ front, decide (cursor b ≠ cursor a) = true := by
    intro b hb
    have hne : cursor b ≠ cursor a := fun he => h (List.mem_map.mpr ⟨b, hb, he⟩)
    simp [hne]
  rw [after, List.dropWhile_append_of_pos hfront]
  simp

theorem after_isSuffix (c : Option κ) (log : List α) : after cursor c log <:+ log := by
  cases c with
  | none => exact List.suffix_rfl
  | some c => exact (List.tail_suffix _).trans (List.dropWhile_suffix _)

/-- Reading on from where a reader stopped gives what it had not read. -/
theorem after_advance {log read rest : List α} {c : Option κ} (hlog : (log.map cursor).Nodup)
    (h : after cursor c log = read ++ rest) : after cursor (advance cursor c read) log = rest := by
  induction read using List.reverseRecOn with
  | nil => simpa using h
  | append_singleton read a _ =>
      have hsuffix : after cursor c log <:+ log := after_isSuffix c log
      obtain ⟨front, hfront⟩ := hsuffix
      rw [h] at hfront
      have hsplit : log = (front ++ read) ++ a :: rest := by rw [← hfront]; simp
      rw [advance_concat, hsplit]
      apply after_cursor
      rw [hsplit, List.map_append, List.map_cons] at hlog
      intro hm
      exact (List.nodup_append.mp hlog).2.2 _ hm _ List.mem_cons_self rfl

end Cursor
end Foundation.Log
