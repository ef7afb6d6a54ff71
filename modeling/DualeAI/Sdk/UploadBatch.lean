import DualeAI.Foundation.Indexed
import DualeAI.Foundation.Transition
import DualeAI.Sdk.Attachments

/-!
`upload_attachments_to_library`: workers that share the attachments of a batch.

The workers take their work from one iterator and store receipts in one list. An
action is what the event loop runs between two suspensions; what a worker does once
the document is created, up to its next request, is one action. `failure` is the
exception of the first worker that failed; the batch learns of it later, or is itself
cancelled, and then cancels its workers and waits for them, which may still go on. Who
took which attachment, and which calls of `create_library_document` returned, is
recorded.
-/
namespace DualeAI.Attachments
open Foundation

/-- `_validate_prepared_attachments`; `fileError` is what the checks of the file raise. -/
def validatePreparedAttachments {R : Type} (fileError : PreparedAttachment → Option (Exc R)) :
    (seenKeys : List Text) → List PreparedAttachment → Except (Exc R) Unit
  | _, [] => .ok ()
  | seenKeys, attachment :: attachments =>
      if seenKeys.contains attachment.key then
        .error (.valueError ("Duplicate attachment key: ".toList ++ attachment.key))
      else
        match fileError attachment with
        | some e => .error e
        | none => validatePreparedAttachments fileError (attachment.key :: seenKeys) attachments

theorem validated_iff {R : Type} {fileError : PreparedAttachment → Option (Exc R)}
    {seenKeys : List Text} {attachments : List PreparedAttachment} :
    validatePreparedAttachments fileError seenKeys attachments = .ok () ↔
      (attachments.map PreparedAttachment.key).Nodup ∧
      (∀ attachment ∈ attachments, attachment.key ∉ seenKeys) ∧
      ∀ attachment ∈ attachments, fileError attachment = none := by
  induction attachments generalizing seenKeys with
  | nil => simp [validatePreparedAttachments]
  | cons attachment attachments ih =>
      rw [validatePreparedAttachments, List.forall_mem_cons, List.forall_mem_cons, List.map_cons,
        List.nodup_cons]
      by_cases hseen : attachment.key ∈ seenKeys
      · rw [if_pos (List.contains_iff_mem.mpr hseen)]
        exact iff_of_false (fun h => by cases h) fun h => h.2.1.1 hseen
      · rw [if_neg (mt List.contains_iff_mem.mp hseen)]
        cases hfile : fileError attachment with
        | some e => exact iff_of_false (fun h => by cases h) fun h => by cases h.2.2.1
        | none =>
            dsimp only
            rw [ih]
            constructor
            · rintro ⟨hnodup, hnew, hfiles⟩
              refine ⟨⟨fun hmem => ?_, hnodup⟩, ⟨hseen, fun other hother hmem => ?_⟩, rfl, hfiles⟩
              · obtain ⟨other, hother, hkey⟩ := List.mem_map.mp hmem
                exact hnew other hother (hkey ▸ List.mem_cons_self)
              · exact hnew other hother (List.mem_cons_of_mem _ hmem)
            · rintro ⟨⟨hfresh, hnodup⟩, ⟨-, hnew⟩, -, hfiles⟩
              refine ⟨hnodup, fun other hother hmem => ?_, hfiles⟩
              cases List.mem_cons.mp hmem with
              | inl heq => exact hfresh (heq ▸ List.mem_map_of_mem hother)
              | inr hold => exact hnew other hother hold

/-- `with_completed_receipts`. -/
def LibraryUploadError.withCompletedReceipts {R : Type} (receipts : Dict Text R)
    (error : LibraryUploadError R) : LibraryUploadError R :=
  { message := error.message
    attachmentKey := error.attachmentKey
    partNumber := error.partNumber
    completedReceipts := receipts
    problemDetails := error.problemDetails }

namespace Batch

/-- Where a worker waits: to start, or for one of the calls of
`upload_attachment_to_library`. -/
inductive Phase where
  | waiting
  | requesting
  | transferring
  | creating
  | returned
  | failed
  | cancelled
deriving DecidableEq

/-- `index` is the attachment it has taken and has no receipt for. -/
structure Worker where
  phase : Phase := .waiting
  index : Option Nat := none

def Worker.ended (worker : Worker) : Bool :=
  worker.phase = .returned || worker.phase = .failed || worker.phase = .cancelled

inductive Outcome (R : Type) where
  | returned (receipts : Dict Text R)
  | raised (error : Exc R)

structure State (R : Type) where
  /-- How far the iterator is. -/
  next : Nat := 0
  receiptSlots : List (Option R)
  workers : List Worker
  failure : Option (Exc R) := none
  /-- What `_gather_related` is going to raise. -/
  stopped : Option (Exc R) := none
  outcome : Option (Outcome R) := none
  taken : List (Nat × Nat) := []
  created : List (Nat × R) := []

inductive Action (R : Type) where
  | start (w : Nat)
  | transfer (w : Nat)
  | create (w : Nat)
  | receive (w : Nat) (receipt : R)
  | fail (w : Nat) (error : Exc R)
  | cancel (w : Nat)
  | stop
  | interrupt
  | finish

def maxConcurrentUploads : Nat := 8

section Steps
variable {R : Type} (attachments : List PreparedAttachment)

def initial : State R where
  receiptSlots := List.replicate attachments.length none
  workers := List.replicate (min maxConcurrentUploads attachments.length) {}
  outcome := if attachments.isEmpty then some (.returned []) else none

namespace State

def setWorker (w : Nat) (worker : Worker) (s : State R) : State R :=
  { s with workers := s.workers.set w worker }

/-- `next(work)`, and the first call for what it gives. -/
def takeNext (w : Nat) (s : State R) : State R :=
  if s.next < attachments.length then
    { s.setWorker w ⟨.requesting, some s.next⟩ with
      next := s.next + 1
      taken := s.taken ++ [(w, s.next)] }
  else s.setWorker w ⟨.returned, none⟩

/-- `receipts[index] = receipt`. -/
def store (w i : Nat) (receipt : R) (s : State R) : State R :=
  { s.setWorker w ⟨.creating, none⟩ with
    receiptSlots := s.receiptSlots.set i (some receipt)
    created := s.created ++ [(i, receipt)] }

end State

/-- The receipts that are there, by the key of their attachment. -/
def completed (slots : List (Option R)) : List (Text × R) :=
  (attachments.zip slots).filterMap fun (attachment, receipt) =>
    receipt.map fun receipt => (attachment.key, receipt)

/-- How the batch ends after its workers, with the exception that `_gather_related`
raises, if it does. -/
def conclude (stopped : Option (Exc R)) (slots : List (Option R)) : Outcome R :=
  match stopped with
  | some (.libraryUpload error) =>
      .raised (.libraryUpload
        (error.withCompletedReceipts (Dict.ofList (completed attachments slots))))
  | some error => .raised error
  | none =>
      if slots.any Option.isNone then
        .raised (.runtimeError "Attachment worker exited without a receipt".toList)
      else .returned (Dict.ofList (completed attachments slots))

def step (s : State R) : Action R → Option (State R)
  | .start w => do
      let worker ← s.workers[w]?
      if worker.phase = .waiting ∧ s.stopped.isNone then some (s.takeNext attachments w) else none
  | .transfer w => do
      let worker ← s.workers[w]?
      if worker.phase = .requesting then
        some (s.setWorker w { worker with phase := .transferring })
      else none
  | .create w => do
      let worker ← s.workers[w]?
      if worker.phase = .transferring then
        some (s.setWorker w { worker with phase := .creating })
      else none
  | .receive w receipt => do
      let worker ← s.workers[w]?
      let i ← worker.index
      if worker.phase = .creating then some ((s.store w i receipt).takeNext attachments w)
      else none
  | .fail w error => do
      let worker ← s.workers[w]?
      if worker.ended ∨ worker.phase = .waiting then none
      else
        some { s.setWorker w { worker with phase := .failed } with
          failure := s.failure.orElse fun _ => some error }
  | .cancel w => do
      let worker ← s.workers[w]?
      if worker.ended ∨ s.stopped.isNone then none
      else some (s.setWorker w { worker with phase := .cancelled })
  | .stop =>
      if s.failure.isSome ∧ s.stopped.isNone ∧ s.outcome.isNone then
        some { s with stopped := s.failure }
      else none
  | .interrupt =>
      if s.outcome.isSome then none
      else if s.stopped.isNone then some { s with stopped := some .cancelled }
      else some { s with outcome := some (.raised .cancelled) }
  | .finish =>
      if s.outcome.isNone ∧ (∀ worker ∈ s.workers, worker.ended) ∧
          (s.stopped.isSome ∨ ∀ worker ∈ s.workers, worker.phase = .returned) then
        some { s with outcome := some (conclude attachments s.stopped s.receiptSlots) }
      else none

end Steps

/-! ## Who holds what -/

section Holding
variable {R : Type} {attachments : List PreparedAttachment}

/-- A taken attachment has its receipt or is held by the one worker that took it, and a
worker returns only when nothing is left. -/
structure Invariant (attachments : List PreparedAttachment) (s : State R) : Prop where
  next_le : s.next ≤ attachments.length
  slots_length : s.receiptSlots.length = attachments.length
  crew : s.workers.length = min maxConcurrentUploads attachments.length
  taken : s.taken.map Prod.snd = List.range s.next
  created : ∀ i receipt, (i, receipt) ∈ s.created ↔ s.receiptSlots[i]? = some (some receipt)
  created_nodup : (s.created.map Prod.fst).Nodup
  fresh : ∀ i receipt, s.receiptSlots[i]? = some (some receipt) → i < s.next
  holds : ∀ (w : Nat) (worker : Worker) (i : Nat), s.workers[w]? = some worker →
    worker.index = some i → i < s.next ∧ s.receiptSlots[i]? = some none
  alone : ∀ (w w' : Nat) (a b : Worker) (i : Nat), s.workers[w]? = some a →
    s.workers[w']? = some b → a.index = some i → b.index = some i → w = w'
  held : ∀ i < s.next, s.receiptSlots[i]? = some none →
    ∃ (w : Nat) (worker : Worker), s.workers[w]? = some worker ∧ worker.index = some i
  idle : ∀ worker ∈ s.workers, worker.phase = .waiting ∨ worker.phase = .returned →
    worker.index = none
  exhausted : ∀ worker ∈ s.workers, worker.phase = .returned → s.next = attachments.length

theorem invariant_initial : Invariant attachments (initial attachments : State R) := by
  have hworker {worker : Worker} (h : worker ∈ (initial attachments : State R).workers) :
      worker = {} := (List.mem_replicate.mp h).2
  have hslot {i : Nat} {receipt : R}
      (h : (initial attachments).receiptSlots[i]? = some (some receipt)) : False := by
    cases (List.mem_replicate.mp (List.mem_of_getElem? h)).2
  refine ⟨Nat.zero_le _, List.length_replicate, List.length_replicate, rfl, fun i receipt => ?_,
    List.nodup_nil, fun i receipt h => (hslot h).elim, fun w worker i hget hi => ?_,
    fun w w' a b i hget _ hi _ => ?_, fun i hi => absurd hi (Nat.not_lt_zero _),
    fun worker hmem _ => ?_, fun worker hmem hreturned => ?_⟩
  · exact iff_of_false List.not_mem_nil hslot
  · rw [hworker (List.mem_of_getElem? hget)] at hi
    cases hi
  · rw [hworker (List.mem_of_getElem? hget)] at hi
    cases hi
  · rw [hworker hmem]
  · rw [hworker hmem] at hreturned
    cases hreturned

/-- The worker goes on with what it holds. -/
theorem Invariant.setPhase {s : State R} {w : Nat} {worker : Worker} {phase : Phase}
    (h : Invariant attachments s) (hget : s.workers[w]? = some worker)
    (hphase : phase ≠ .waiting ∧ phase ≠ .returned) :
    Invariant attachments (s.setWorker w { worker with phase := phase }) := by
  have hbefore {w' : Nat} {a : Worker}
      (ha : (s.workers.set w { worker with phase := phase })[w']? = some a) :
      ∃ b, s.workers[w']? = some b ∧ b.index = a.index := by
    cases getElem?_set_eq_some ha with
    | inl hw =>
        obtain ⟨rfl, rfl⟩ := hw
        exact ⟨worker, hget, rfl⟩
    | inr hother => exact ⟨a, hother.2, rfl⟩
  have hafter {w' : Nat} {b : Worker} (hb : s.workers[w']? = some b) :
      ∃ a, (s.workers.set w { worker with phase := phase })[w']? = some a ∧ a.index = b.index := by
    by_cases hw : w' = w
    · subst hw
      cases hget.symm.trans hb
      exact ⟨_, List.getElem?_set_self (List.getElem?_eq_some_iff.mp hget).1, rfl⟩
    · exact ⟨b, (List.getElem?_set_ne (Ne.symm hw)).trans hb, rfl⟩
  refine ⟨h.next_le, h.slots_length, List.length_set.trans h.crew, h.taken, h.created,
    h.created_nodup, h.fresh, fun w' a i ha hi => ?_, fun w' w'' a b i ha hb hia hib => ?_,
    fun i hi hslot => ?_, forall_mem_set h.idle fun hidle => absurd hidle (not_or.mpr hphase),
    forall_mem_set h.exhausted fun hreturned => absurd hreturned hphase.2⟩
  · obtain ⟨b, hb, hindex⟩ := hbefore ha
    exact h.holds w' b i hb (hindex.trans hi)
  · obtain ⟨a', ha', hindexa⟩ := hbefore ha
    obtain ⟨b', hb', hindexb⟩ := hbefore hb
    exact h.alone w' w'' a' b' i ha' hb' (hindexa.trans hia) (hindexb.trans hib)
  · obtain ⟨w', b, hb, hindex⟩ := h.held i hi hslot
    obtain ⟨a, ha, hsame⟩ := hafter hb
    exact ⟨w', a, ha, hsame.trans hindex⟩

theorem setWorker_cases {s : State R} {w w' : Nat} {worker a : Worker}
    (h : (s.setWorker w worker).workers[w']? = some a) :
    w' = w ∧ a = worker ∨ w' ≠ w ∧ s.workers[w']? = some a := getElem?_set_eq_some h

theorem setWorker_self {s : State R} {w : Nat} {old worker : Worker}
    (h : s.workers[w]? = some old) : (s.setWorker w worker).workers[w]? = some worker :=
  List.getElem?_set_self (List.getElem?_eq_some_iff.mp h).1

theorem setWorker_of_ne {s : State R} {w w' : Nat} {worker a : Worker} (hne : w' ≠ w)
    (h : s.workers[w']? = some a) : (s.setWorker w worker).workers[w']? = some a :=
  (List.getElem?_set_ne (Ne.symm hne)).trans h

/-- The iterator is at its end. -/
theorem Invariant.return {s : State R} {w : Nat} {worker : Worker}
    (h : Invariant attachments s) (hget : s.workers[w]? = some worker)
    (hindex : worker.index = none) (hend : attachments.length ≤ s.next) :
    Invariant attachments (s.setWorker w ⟨.returned, none⟩) := by
  have hlast : s.next = attachments.length := Nat.le_antisymm h.next_le hend
  refine ⟨h.next_le, h.slots_length, List.length_set.trans h.crew, h.taken, h.created,
    h.created_nodup, h.fresh, fun w' a i ha hi => ?_, fun w' w'' a b i ha hb hia hib => ?_,
    fun i hi hslot => ?_, forall_mem_set h.idle fun _ => rfl, fun _ _ _ => hlast⟩
  · cases setWorker_cases ha with
    | inl hw =>
        rw [hw.2] at hi
        cases hi
    | inr hother => exact h.holds w' a i hother.2 hi
  · cases setWorker_cases ha with
    | inl hw =>
        rw [hw.2] at hia
        cases hia
    | inr hother =>
        cases setWorker_cases hb with
        | inl hw =>
            rw [hw.2] at hib
            cases hib
        | inr hother' => exact h.alone w' w'' a b i hother.2 hother'.2 hia hib
  · obtain ⟨w', b, hb, hi'⟩ := h.held i hi hslot
    refine ⟨w', b, setWorker_of_ne (fun heq => ?_) hb, hi'⟩
    subst heq
    cases hget.symm.trans hb
    rw [hindex] at hi'
    cases hi'

theorem Invariant.take {s : State R} {w : Nat} {worker : Worker} (h : Invariant attachments s)
    (hget : s.workers[w]? = some worker) (hindex : worker.index = none)
    (hmore : s.next < attachments.length) :
    Invariant attachments { s.setWorker w ⟨.requesting, some s.next⟩ with
      next := s.next + 1
      taken := s.taken ++ [(w, s.next)] } := by
  have hslot : s.receiptSlots[s.next]? = some none := by
    have hlt : s.next < s.receiptSlots.length := by rw [h.slots_length]; exact hmore
    rw [List.getElem?_eq_getElem hlt]
    cases hreceipt : s.receiptSlots[s.next] with
    | none => rfl
    | some receipt =>
        have hfresh := h.fresh s.next receipt (by rw [List.getElem?_eq_getElem hlt, hreceipt])
        exact absurd hfresh (Nat.lt_irrefl _)
  have hnobody {w' : Nat} {a : Worker} (ha : s.workers[w']? = some a) :
      a.index ≠ some s.next := fun hi => absurd (h.holds w' a s.next ha hi).1 (Nat.lt_irrefl _)
  refine ⟨hmore, h.slots_length, List.length_set.trans h.crew, ?_, h.created, h.created_nodup,
    fun i receipt hi => Nat.lt_succ_of_lt (h.fresh i receipt hi), fun w' a i ha hi => ?_,
    fun w' w'' a b i ha hb hia hib => ?_, fun i hi hslot' => ?_, forall_mem_set h.idle ?_,
    forall_mem_set (fun a hmem hreturned => ?_) ?_⟩
  · rw [List.map_append, h.taken, List.range_succ]
    rfl
  · cases setWorker_cases ha with
    | inl hw =>
        rw [hw.2] at hi
        cases hi
        exact ⟨Nat.lt_succ_self _, hslot⟩
    | inr hother =>
        obtain ⟨hlt, hnone⟩ := h.holds w' a i hother.2 hi
        exact ⟨Nat.lt_succ_of_lt hlt, hnone⟩
  · cases setWorker_cases ha with
    | inl hw =>
        rw [hw.2] at hia
        cases hia
        cases setWorker_cases hb with
        | inl hw' => rw [hw.1, hw'.1]
        | inr hother => exact absurd hib (hnobody hother.2)
    | inr hother =>
        cases setWorker_cases hb with
        | inl hw =>
            rw [hw.2] at hib
            cases hib
            exact absurd hia (hnobody hother.2)
        | inr hother' => exact h.alone w' w'' a b i hother.2 hother'.2 hia hib
  · cases Nat.lt_succ_iff_lt_or_eq.mp hi with
    | inl hlt =>
        obtain ⟨w', b, hb, hi'⟩ := h.held i hlt hslot'
        refine ⟨w', b, setWorker_of_ne (fun heq => ?_) hb, hi'⟩
        subst heq
        cases hget.symm.trans hb
        rw [hindex] at hi'
        cases hi'
    | inr heq =>
        subst heq
        exact ⟨w, _, setWorker_self hget, rfl⟩
  · intro hidle
    cases hidle <;> contradiction
  · have hend := h.exhausted a hmem hreturned
    omega
  · intro hreturned
    cases hreturned

theorem Invariant.takeNext {s : State R} {w : Nat} {worker : Worker}
    (h : Invariant attachments s) (hget : s.workers[w]? = some worker)
    (hindex : worker.index = none) : Invariant attachments (s.takeNext attachments w) := by
  rw [State.takeNext]
  split
  · next hmore => exact h.take hget hindex hmore
  · next hend => exact h.return hget hindex (Nat.le_of_not_lt hend)

/-- The receipt of the attachment that `w` holds. -/
theorem Invariant.store {s : State R} {w i : Nat} {worker : Worker} {receipt : R}
    (h : Invariant attachments s) (hget : s.workers[w]? = some worker)
    (hindex : worker.index = some i) : Invariant attachments (s.store w i receipt) := by
  obtain ⟨hlt, hnone⟩ := h.holds w worker i hget hindex
  have hbound : i < s.receiptSlots.length := (List.getElem?_eq_some_iff.mp hnone).1
  have hslots (j : Nat) (slot : Option R) :
      (s.receiptSlots.set i (some receipt))[j]? = some slot ↔
        j = i ∧ slot = some receipt ∨ j ≠ i ∧ s.receiptSlots[j]? = some slot := by
    by_cases hj : j = i
    · subst hj
      simp [hbound, eq_comm]
    · simp [List.getElem?_set_ne (Ne.symm hj), hj]
  have hnew : ∀ receipt', (i, receipt') ∉ s.created := fun receipt' hmem => by
    have hslot := (h.created i receipt').mp hmem
    rw [hnone] at hslot
    cases hslot
  have hother {w' : Nat} {a : Worker} {j : Nat}
      (ha : (s.setWorker w ⟨.creating, none⟩).workers[w']? = some a) (hj : a.index = some j) :
      s.workers[w']? = some a ∧ j ≠ i := by
    cases setWorker_cases ha with
    | inl hw =>
        rw [hw.2] at hj
        cases hj
    | inr hold =>
        refine ⟨hold.2, fun heq => hold.1 ?_⟩
        subst heq
        exact h.alone w' w a worker j hold.2 hget hj hindex
  refine ⟨h.next_le, List.length_set.trans h.slots_length, List.length_set.trans h.crew, h.taken,
    fun j r => ?_, ?_, fun j r hj => ?_, fun w' a j ha hj => ?_,
    fun w' w'' a b j ha hb hja hjb => ?_, fun j hj hslot => ?_, forall_mem_set h.idle fun _ => rfl,
    forall_mem_set h.exhausted fun hreturned => by cases hreturned⟩
  · refine Iff.trans ?_ (hslots j (some r)).symm
    rw [State.store, List.mem_append, List.mem_singleton, h.created, Prod.mk.injEq]
    constructor
    · rintro (hold | ⟨rfl, rfl⟩)
      · refine .inr ⟨fun heq => ?_, hold⟩
        subst heq
        exact hnew r ((h.created j r).mpr hold)
      · exact .inl ⟨rfl, rfl⟩
    · rintro (⟨rfl, hr⟩ | ⟨-, hold⟩)
      · exact .inr ⟨rfl, Option.some.inj hr⟩
      · exact .inl hold
  · rw [State.store, List.map_append]
    refine List.Nodup.append h.created_nodup (List.nodup_singleton i) ?_
    refine List.disjoint_singleton.mpr fun hmem => ?_
    obtain ⟨⟨j, receipt'⟩, hmem', rfl⟩ := List.mem_map.mp hmem
    exact hnew receipt' hmem'
  · cases (hslots j (some r)).mp hj with
    | inl hi => exact hi.1 ▸ hlt
    | inr hold => exact h.fresh j r hold.2
  · obtain ⟨ha', hne⟩ := hother ha hj
    obtain ⟨hlt', hslot⟩ := h.holds w' a j ha' hj
    exact ⟨hlt', (hslots j none).mpr (.inr ⟨hne, hslot⟩)⟩
  · exact h.alone w' w'' a b j (hother ha hja).1 (hother hb hjb).1 hja hjb
  · cases (hslots j none).mp hslot with
    | inl hi => cases hi.2
    | inr hold =>
        obtain ⟨w', b, hb, hj'⟩ := h.held j hj hold.2
        refine ⟨w', b, setWorker_of_ne (fun heq => hold.1 ?_) hb, hj'⟩
        subst heq
        cases hget.symm.trans hb
        exact Option.some.inj (hj'.symm.trans hindex)

theorem Invariant.environment {s : State R} (h : Invariant attachments s)
    (failure stopped : Option (Exc R)) (outcome : Option (Outcome R)) :
    Invariant attachments
      { s with failure := failure, stopped := stopped, outcome := outcome } :=
  ⟨h.next_le, h.slots_length, h.crew, h.taken, h.created, h.created_nodup, h.fresh, h.holds,
    h.alone, h.held, h.idle, h.exhausted⟩

theorem Invariant.step {s t : State R} {a : Action R} (h : Invariant attachments s)
    (hstep : step attachments s a = some t) : Invariant attachments t := by
  cases a with
  | start w =>
      obtain ⟨worker, hget, hbody⟩ := Option.bind_eq_some_iff.mp hstep
      obtain ⟨hguard, heq⟩ := Option.ite_none_right_eq_some.mp hbody
      cases heq
      exact h.takeNext hget (h.idle worker (List.mem_of_getElem? hget) (.inl hguard.1))
  | transfer w | create w =>
      obtain ⟨worker, hget, hbody⟩ := Option.bind_eq_some_iff.mp hstep
      obtain ⟨-, heq⟩ := Option.ite_none_right_eq_some.mp hbody
      cases heq
      exact h.setPhase hget ⟨by decide, by decide⟩
  | receive w receipt =>
      obtain ⟨worker, hget, hbody⟩ := Option.bind_eq_some_iff.mp hstep
      obtain ⟨i, hindex, hbody⟩ := Option.bind_eq_some_iff.mp hbody
      obtain ⟨-, heq⟩ := Option.ite_none_right_eq_some.mp hbody
      cases heq
      exact (h.store hget hindex).takeNext (setWorker_self hget) rfl
  | fail w error =>
      obtain ⟨worker, hget, hbody⟩ := Option.bind_eq_some_iff.mp hstep
      obtain ⟨-, heq⟩ := Option.ite_none_left_eq_some.mp hbody
      cases heq
      exact (h.setPhase hget ⟨by decide, by decide⟩).environment _ _ _
  | cancel w =>
      obtain ⟨worker, hget, hbody⟩ := Option.bind_eq_some_iff.mp hstep
      obtain ⟨-, heq⟩ := Option.ite_none_left_eq_some.mp hbody
      cases heq
      exact h.setPhase hget ⟨by decide, by decide⟩
  | stop =>
      obtain ⟨-, heq⟩ := Option.ite_none_right_eq_some.mp hstep
      cases heq
      exact h.environment _ _ _
  | interrupt =>
      obtain ⟨-, hbody⟩ := Option.ite_none_left_eq_some.mp hstep
      split at hbody
      · cases hbody
        exact h.environment _ _ _
      · cases hbody
        exact h.environment _ _ _
  | finish =>
      obtain ⟨-, heq⟩ := Option.ite_none_right_eq_some.mp hstep
      cases heq
      exact h.environment _ _ _

theorem invariant_of_run {past : List (Action R)} {s : State R}
    (h : Run (step attachments) (initial attachments) past s) : Invariant attachments s :=
  h.invariant (I := fun _ s => Invariant attachments s) invariant_initial
    fun _ _ _ _ hs hstep => hs.step hstep

/-! ## The outcome -/

/-- A batch that was not interrupted while it waited concludes from what its workers
left, and they do nothing any more. -/
def Concluded (attachments : List PreparedAttachment) (s : State R) : Prop :=
  ∀ o ∈ s.outcome, o = .raised .cancelled ∨
    (∀ worker ∈ s.workers, worker.ended = true) ∧ o = conclude attachments s.stopped s.receiptSlots

theorem Concluded.active {s t : State R} {w : Nat} {worker : Worker}
    (h : Concluded attachments s) (hget : s.workers[w]? = some worker)
    (hactive : worker.ended = false) (houtcome : t.outcome = s.outcome) :
    Concluded attachments t := by
  intro o ho
  rw [houtcome] at ho
  refine .inl ((h o ho).resolve_right fun hended => ?_)
  rw [hended.1 worker (List.mem_of_getElem? hget)] at hactive
  cases hactive

theorem takeNext_outcome (w : Nat) (s : State R) :
    (s.takeNext attachments w).outcome = s.outcome := by
  rw [State.takeNext]
  split <;> rfl

theorem Concluded.step {s t : State R} {a : Action R} (h : Concluded attachments s)
    (hstep : step attachments s a = some t) : Concluded attachments t := by
  have hactive {worker : Worker} {phase : Phase} (hphase : worker.phase = phase)
      (hopen : phase ≠ .returned ∧ phase ≠ .failed ∧ phase ≠ .cancelled) :
      worker.ended = false := by
    simp [Worker.ended, hphase, hopen]
  cases a with
  | start w =>
      obtain ⟨worker, hget, hbody⟩ := Option.bind_eq_some_iff.mp hstep
      obtain ⟨hguard, heq⟩ := Option.ite_none_right_eq_some.mp hbody
      cases heq
      exact h.active hget (hactive hguard.1 (by decide)) (takeNext_outcome w s)
  | transfer w | create w =>
      obtain ⟨worker, hget, hbody⟩ := Option.bind_eq_some_iff.mp hstep
      obtain ⟨hguard, heq⟩ := Option.ite_none_right_eq_some.mp hbody
      cases heq
      exact h.active hget (hactive hguard (by decide)) rfl
  | receive w receipt =>
      obtain ⟨worker, hget, hbody⟩ := Option.bind_eq_some_iff.mp hstep
      obtain ⟨i, -, hbody⟩ := Option.bind_eq_some_iff.mp hbody
      obtain ⟨hguard, heq⟩ := Option.ite_none_right_eq_some.mp hbody
      cases heq
      exact h.active hget (hactive hguard (by decide)) (takeNext_outcome w _)
  | fail w error =>
      obtain ⟨worker, hget, hbody⟩ := Option.bind_eq_some_iff.mp hstep
      obtain ⟨hguard, heq⟩ := Option.ite_none_left_eq_some.mp hbody
      cases heq
      exact h.active hget (Bool.not_eq_true _ ▸ fun hended => hguard (.inl hended)) rfl
  | cancel w =>
      obtain ⟨worker, hget, hbody⟩ := Option.bind_eq_some_iff.mp hstep
      obtain ⟨hguard, heq⟩ := Option.ite_none_left_eq_some.mp hbody
      cases heq
      exact h.active hget (Bool.not_eq_true _ ▸ fun hended => hguard (.inl hended)) rfl
  | stop =>
      obtain ⟨hguard, heq⟩ := Option.ite_none_right_eq_some.mp hstep
      cases heq
      intro o ho
      rw [Option.isNone_iff_eq_none.mp hguard.2.2] at ho
      cases ho
  | interrupt =>
      obtain ⟨hnone, hbody⟩ := Option.ite_none_left_eq_some.mp hstep
      split at hbody
      · cases hbody
        exact fun o ho => absurd (Option.isSome_of_mem ho) hnone
      · cases hbody
        intro o ho
        cases ho
        exact .inl rfl
  | finish =>
      obtain ⟨hguard, heq⟩ := Option.ite_none_right_eq_some.mp hstep
      cases heq
      intro o ho
      cases ho
      exact .inr ⟨hguard.2.1, rfl⟩

theorem concluded_of_run {past : List (Action R)} {s : State R}
    (h : Run (step attachments) (initial attachments) past s) : Concluded attachments s := by
  refine h.invariant (I := fun _ s => Concluded attachments s) (fun o ho => ?_)
    fun _ _ _ _ hs hstep => hs.step hstep
  cases attachments with
  | nil =>
      cases ho
      exact .inr ⟨fun worker hmem => absurd hmem List.not_mem_nil, rfl⟩
  | cons => cases ho

/-! ## The receipts -/

theorem mem_completed {slots : List (Option R)} {key : Text} {receipt : R} :
    (key, receipt) ∈ completed attachments slots ↔
      ∃ (i : Nat) (attachment : PreparedAttachment), attachments[i]? = some attachment ∧
        attachment.key = key ∧ slots[i]? = some (some receipt) := by
  rw [completed, List.mem_filterMap]
  constructor
  · rintro ⟨⟨attachment, slot⟩, hmem, hreceipt⟩
    obtain ⟨i, hget⟩ := List.mem_iff_getElem?.mp hmem
    obtain ⟨hattachment, hslot⟩ := List.getElem?_zip_eq_some.mp hget
    obtain ⟨r, rfl, hpair⟩ := Option.map_eq_some_iff.mp hreceipt
    cases hpair
    exact ⟨i, attachment, hattachment, rfl, hslot⟩
  · rintro ⟨i, attachment, hattachment, rfl, hslot⟩
    refine ⟨(attachment, some receipt), ?_, rfl⟩
    exact List.mem_of_getElem? (List.getElem?_zip_eq_some.mpr ⟨hattachment, hslot⟩)

theorem completed_keys (attachments : List PreparedAttachment) (slots : List (Option R)) :
    ((completed attachments slots).map Prod.fst).Sublist
      (attachments.map PreparedAttachment.key) := by
  induction attachments generalizing slots with
  | nil => exact List.Sublist.refl _
  | cons attachment attachments ih =>
      cases slots with
      | nil => exact List.nil_sublist _
      | cons slot slots =>
          cases slot with
          | none => exact (ih slots).cons _
          | some receipt => exact (ih slots).cons_cons _

theorem completed_of_full {slots : List (Option R)} (hlength : slots.length = attachments.length)
    (hfull : ∀ slot ∈ slots, slot.isSome = true) :
    ((completed attachments slots).map Prod.fst) = attachments.map PreparedAttachment.key := by
  induction attachments generalizing slots with
  | nil => rfl
  | cons attachment attachments ih =>
      cases slots with
      | nil => cases hlength
      | cons slot slots =>
          obtain ⟨receipt, rfl⟩ := Option.isSome_iff_exists.mp (hfull slot List.mem_cons_self)
          have hrest := ih (Nat.succ.inj hlength) fun slot hmem =>
            hfull slot (List.mem_cons_of_mem _ hmem)
          exact congrArg (attachment.key :: ·) hrest

theorem conclude_returned {stopped : Option (Exc R)} {slots : List (Option R)}
    {receipts : Dict Text R} (h : Outcome.returned receipts = conclude attachments stopped slots) :
    (∀ slot ∈ slots, slot.isSome = true) ∧
      receipts = Dict.ofList (completed attachments slots) := by
  simp only [conclude] at h
  split at h
  · cases h
  · cases h
  · split at h
    · cases h
    · next hfull =>
        cases h
        refine ⟨fun slot hmem => ?_, rfl⟩
        rw [Option.isSome_iff_ne_none]
        rintro rfl
        exact hfull (List.any_eq_true.mpr ⟨none, hmem, rfl⟩)

theorem conclude_raised {stopped : Option (Exc R)} {slots : List (Option R)}
    {error : LibraryUploadError R}
    (h : Outcome.raised (.libraryUpload error) = conclude attachments stopped slots) :
    error.completedReceipts = Dict.ofList (completed attachments slots) := by
  simp only [conclude] at h
  split at h
  · cases h
    rfl
  · next hother =>
      cases h
      exact absurd rfl (hother error)
  · split at h <;> cases h

theorem Invariant.all_taken {s : State R} (h : Invariant attachments s)
    (hfull : ∀ slot ∈ s.receiptSlots, slot.isSome = true) : s.next = attachments.length := by
  refine Nat.le_antisymm h.next_le (Nat.le_of_not_lt fun hlt => ?_)
  rw [← h.slots_length] at hlt
  obtain ⟨receipt, hreceipt⟩ := Option.isSome_iff_exists.mp (hfull _ (List.getElem_mem hlt))
  exact absurd (h.fresh s.next receipt (by rw [List.getElem?_eq_getElem hlt, hreceipt]))
    (Nat.lt_irrefl _)

end Holding

/-- Each attachment is taken at most once. A batch that returns took them all and gives
the receipts in their order; one that raises an upload error reports the documents
that were created. -/
theorem upload_batch {R : Type} (fileError : PreparedAttachment → Option (Exc R))
    (attachments : List PreparedAttachment) (past : List (Action R)) (s : State R)
    (hvalid : validatePreparedAttachments fileError [] attachments = .ok ())
    (hrun : Run (step attachments) (initial attachments) past s) :
    (s.taken.map Prod.snd).Nodup ∧ (∀ i ∈ s.taken.map Prod.snd, i < attachments.length) ∧
    (s.created.map Prod.fst).Nodup ∧
    (∀ receipts, s.outcome = some (.returned receipts) →
      s.taken.map Prod.snd = List.range attachments.length ∧
      receipts.map Prod.fst = attachments.map PreparedAttachment.key ∧
      ∀ (i : Nat) (attachment : PreparedAttachment), attachments[i]? = some attachment →
        ∃ receipt, (attachment.key, receipt) ∈ receipts ∧ (i, receipt) ∈ s.created) ∧
    ∀ error, s.outcome = some (.raised (.libraryUpload error)) → ∀ key receipt,
      (key, receipt) ∈ error.completedReceipts ↔
        ∃ (i : Nat) (attachment : PreparedAttachment), attachments[i]? = some attachment ∧
          attachment.key = key ∧ (i, receipt) ∈ s.created := by
  have hinvariant := invariant_of_run hrun
  have hkeys := (validated_iff.mp hvalid).1
  have hdict : Dict.ofList (completed attachments s.receiptSlots) =
      completed attachments s.receiptSlots :=
    Dict.ofList_of_nodup (hkeys.sublist (completed_keys _ _))
  refine ⟨?_, ?_, hinvariant.created_nodup, fun receipts houtcome => ?_,
    fun error houtcome key receipt => ?_⟩
  · rw [hinvariant.taken]
    exact List.nodup_range
  · rw [hinvariant.taken]
    exact fun i hmem => Nat.lt_of_lt_of_le (List.mem_range.mp hmem) hinvariant.next_le
  · cases concluded_of_run hrun _ houtcome with
    | inl hcancelled => cases hcancelled
    | inr hconcluded =>
        obtain ⟨hfull, rfl⟩ := conclude_returned hconcluded.2
        rw [hdict]
        refine ⟨?_, completed_of_full hinvariant.slots_length hfull, fun i attachment hget => ?_⟩
        · rw [hinvariant.taken, hinvariant.all_taken hfull]
        · have hlt : i < s.receiptSlots.length := by
            rw [hinvariant.slots_length]
            exact (List.getElem?_eq_some_iff.mp hget).1
          obtain ⟨receipt, hreceipt⟩ :=
            Option.isSome_iff_exists.mp (hfull _ (List.getElem_mem hlt))
          have hslot : s.receiptSlots[i]? = some (some receipt) := by
            rw [List.getElem?_eq_getElem hlt, hreceipt]
          exact ⟨receipt, mem_completed.mpr ⟨i, attachment, hget, rfl, hslot⟩,
            (hinvariant.created i receipt).mpr hslot⟩
  · cases concluded_of_run hrun _ houtcome with
    | inl hcancelled => cases hcancelled
    | inr hconcluded =>
        rw [conclude_raised hconcluded.2, hdict, mem_completed]
        simp only [hinvariant.created]

/-- One document is created before the other part fails. -/
theorem upload_batch_partial :
    let attachments : List PreparedAttachment := [⟨['a'], ['p'], ['f'], [], 1⟩,
      ⟨['b'], ['q'], ['g'], [], 2⟩]
    let error : LibraryUploadError Nat := { message := [], attachmentKey := ['b'] }
    ∃ s : State Nat, Run (step attachments) (initial attachments)
        [.start 0, .start 1, .transfer 0, .create 0, .receive 0 7, .transfer 1,
          .fail 1 (.libraryUpload error), .stop, .finish] s ∧
      s.outcome = some (.raised (.libraryUpload (error.withCompletedReceipts [(['a'], 7)]))) ∧
      (s.taken.map Prod.snd).Nodup := by
  intro attachments error
  have hvalid : validatePreparedAttachments (fun _ => (none : Option (Exc Nat))) [] attachments =
      .ok () := rfl
  have hrun : Run (step attachments) (initial attachments)
      [.start 0, .start 1, .transfer 0, .create 0, .receive 0 7, .transfer 1,
        .fail 1 (.libraryUpload error), .stop, .finish] _ := Run.of_foldlM rfl
  exact ⟨_, hrun, rfl, (upload_batch _ attachments _ _ hvalid hrun).1⟩

end Batch
end DualeAI.Attachments
