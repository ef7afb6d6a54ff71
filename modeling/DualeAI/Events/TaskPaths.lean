import DualeAI.Events.Client
import DualeAI.Foundation.UriReference

/-!
The request paths that address a task.

A task id goes into the path as the caller gave it, so the path addresses that task
only where the id is one plain segment.
-/
namespace DualeAI.Client
open Foundation

inductive TaskOperation where
  | runTask
  | stopTask
  | submitToolResults
  deriving DecidableEq

def stopPath (taskId : Text) : Text := taskPath taskId ++ "/stop".toList

def requestPath : TaskOperation → Text → Text
  | .runTask, taskId => taskPath taskId
  | .stopTask, taskId => stopPath taskId
  | .submitToolResults, taskId => taskPath taskId

/-- What the path of an operation on a task stands for. -/
def taskResource (operation : TaskOperation) (taskId : Text) : List Text :=
  [[], "v1".toList, "tasks".toList, taskId] ++
    if operation = .stopTask then ["stop".toList] else []

def Addresses (operation : TaskOperation) (taskId : Text) : Prop :=
  readReference (requestPath operation taskId) =
    ⟨(taskResource operation taskId).map fun s => .name (encodeUtf8 s), none, none⟩

/-- Whether the paths tell the tasks among `taskIds` and the operations apart. -/
structure TaskAddressing (taskIds : Set Text) : Prop where
  distinct : ∀ a ∈ taskIds, ∀ b ∈ taskIds, a ≠ b → ∀ operation operation',
    requestPath operation a ≠ requestPath operation' b
  stop_apart : ∀ a ∈ taskIds, ∀ b ∈ taskIds, ∀ operation, operation ≠ .stopTask →
    requestPath .stopTask a ≠ requestPath operation b
  addresses : ∀ a ∈ taskIds, ∀ operation, Addresses operation a

def tasksPath : Text := "/v1/tasks".toList

theorem taskPath_eq (taskId : Text) : taskPath taskId = tasksPath ++ '/' :: taskId := rfl

theorem stopPath_eq (taskId : Text) :
    stopPath taskId = tasksPath ++ '/' :: (taskId ++ '/' :: "stop".toList) := rfl

theorem segments_tasksPath :
    segments tasksPath = [[], "v1".toList, "tasks".toList].map fun s => .name (encodeUtf8 s) := by
  decide +kernel

theorem notMem_path {c : Char} {taskId : Text} (h : c ∉ tasksPath ++ "/stop".toList)
    (operation : TaskOperation) : c ∉ requestPath operation taskId ↔ c ∉ taskId := by
  rw [List.mem_append, not_or] at h
  have hslash : c ≠ '/' := fun heq => h.2 (heq ▸ List.mem_cons_self)
  cases operation with
  | runTask | submitToolResults =>
      simp only [requestPath, taskPath_eq, List.mem_append, List.mem_cons, h.1, hslash, false_or]
  | stopTask =>
      have hstop : c ∉ "stop".toList := fun hmem => h.2 (List.mem_cons_of_mem _ hmem)
      simp only [requestPath, stopPath_eq, List.mem_append, List.mem_cons, h.1, hslash, hstop,
        false_or, or_false]

theorem segments_path_iff (operation : TaskOperation) (taskId : Text) :
    segments (requestPath operation taskId) =
        (taskResource operation taskId).map (fun s => .name (encodeUtf8 s)) ↔
      segments taskId = [.name (encodeUtf8 taskId)] := by
  have hstop : segments "stop".toList = [.name (encodeUtf8 "stop".toList)] := by decide +kernel
  cases operation with
  | runTask | submitToolResults =>
      rw [requestPath, taskPath_eq, segments_append, segments_tasksPath]
      exact List.append_right_inj _
  | stopTask =>
      have hresource : (taskResource .stopTask taskId).map (fun s => Segment.name (encodeUtf8 s)) =
          segments tasksPath ++ ([.name (encodeUtf8 taskId)] ++ segments "stop".toList) := by
        rw [segments_tasksPath, hstop]
        rfl
      rw [requestPath, stopPath_eq, segments_append, segments_append, hresource,
        List.append_right_inj, List.append_left_inj]

theorem addresses_iff (operation : TaskOperation) (taskId : Text) :
    Addresses operation taskId ↔ IsPlainSegment taskId := by
  rw [Addresses, readReference_eq_iff, segments_path_iff, notMem_path (by decide),
    notMem_path (by decide), isPlainSegment_iff]

/-- Where the paths of two operations are one, so are what they stand for. -/
theorem taskResource_eq {operation operation' : TaskOperation} {a b : Text}
    (ha : Addresses operation a) (hb : Addresses operation' b)
    (h : requestPath operation a = requestPath operation' b) :
    taskResource operation a = taskResource operation' b := by
  rw [Addresses, h] at ha
  have hsegments := congrArg Reference.segments (ha.symm.trans hb)
  exact List.map_injective_iff.mpr (fun s t hst => encodeUtf8_injective (Segment.name.inj hst))
    hsegments

theorem taskResource_inj {operation operation' : TaskOperation} {a b : Text}
    (h : taskResource operation a = taskResource operation' b) :
    a = b ∧ (operation = .stopTask ↔ operation' = .stopTask) := by
  cases operation <;> cases operation' <;> simp_all [taskResource]

/-- The paths tell tasks and operations apart exactly for ids that are plain segments. -/
theorem taskAddressing_iff (taskIds : Set Text) :
    TaskAddressing taskIds ↔ ∀ taskId ∈ taskIds, IsPlainSegment taskId := by
  constructor
  · exact fun h taskId hmem => (addresses_iff .runTask taskId).mp (h.addresses taskId hmem .runTask)
  · intro h
    have haddresses : ∀ a ∈ taskIds, ∀ operation, Addresses operation a :=
      fun a ha operation => (addresses_iff operation a).mpr (h a ha)
    refine ⟨fun a ha b hb hne operation operation' heq => ?_,
      fun a ha b hb operation hop heq => ?_, haddresses⟩
    · exact hne (taskResource_inj
        (taskResource_eq (haddresses a ha operation) (haddresses b hb operation') heq)).1
    · exact hop ((taskResource_inj
        (taskResource_eq (haddresses a ha .stopTask) (haddresses b hb operation) heq)).2.mp rfl)

/-- Stopping one task and submitting another. -/
theorem stopPath_of_task :
    "a".toList ≠ "a/stop".toList ∧
      requestPath .stopTask "a".toList = requestPath .runTask "a/stop".toList ∧
      ¬ TaskAddressing {"a".toList, "a/stop".toList} := by
  have hpath : requestPath .stopTask "a".toList = requestPath .runTask "a/stop".toList := rfl
  refine ⟨by decide, hpath, fun h => ?_⟩
  exact h.stop_apart _ (.inl rfl) _ (.inr rfl) .runTask (by decide) hpath

end DualeAI.Client
