import DualeAI.Foundation.Procedure
import DualeAI.Sdk.UploadBatch

/-!
`prepare_attachments`, and what the checks before an upload make of it later.

A file system is what `stat` makes of each path at one time, and none where `exists`
finds nothing.
-/
namespace DualeAI.Attachments
open Foundation

inductive PathEntry where
  | regular (size : Nat)
  | other
  /-- An `OSError` that `exists` lets through, such as a `PermissionError`. -/
  | refused (className : Text)

abbrev FileSystem := Text → Option PathEntry

inductive FileError where
  | fileNotFound (message : Text)
  | osError (className : Text)
  | valueError (message : Text)
  /-- The field of `PreparedAttachment` that is refused. -/
  | validationError (field : Text)

def FileError.toExc {R : Type} : FileError → Exc R
  | .fileNotFound _ => .other "FileNotFoundError".toList
  | .osError className => .other className
  | .valueError message => .valueError message
  | .validationError _ => .other "ValidationError".toList

/-- `PurePath.name`. -/
def pathName (path : Text) : Text :=
  ((path.splitOn '/').filter fun part => part != [] && part != ['.']).getLast?.getD []

/-- The size of the file, after the checks that the preparation and the upload both make. -/
def fileSize (fs : FileSystem) (path : Text) : Except FileError Nat :=
  match fs path with
  | none => .error (.fileNotFound ("File not found: ".toList ++ path))
  | some (.refused className) => .error (.osError className)
  | some .other =>
      .error (.valueError ("Attachment path is not a regular file: ".toList ++ path))
  | some (.regular size) =>
      if size = 0 then .error (.valueError ("Attachment file is empty: ".toList ++ path))
      else .ok size

/-- The first field out of its bounds. -/
def PreparedAttachment.refusedField (attachment : PreparedAttachment) : Option Text :=
  if attachment.key.length < 1 ∨ 128 < attachment.key.length then some "key".toList
  else if attachment.filename.length < 1 ∨ 500 < attachment.filename.length then
    some "filename".toList
  else if 500 < attachment.description.length then some "description".toList
  else if attachment.size < 1 then some "size".toList
  else none

/-- The loop's body in `prepare_attachments`. -/
def prepareAttachment (fs : FileSystem) (key : Text) (file : Text × Text) :
    Except FileError PreparedAttachment := do
  let size ← fileSize fs file.1
  let attachment : PreparedAttachment :=
    { key, path := file.1, filename := pathName file.1, description := file.2, size }
  match attachment.refusedField with
  | some field => .error (.validationError field)
  | none => .ok attachment

/-- `uuid7 n` is the identifier drawn for the file number `n`. -/
def prepareAttachments (fs : FileSystem) (uuid7 : Nat → Text) (files : List (Text × Text)) :
    Except FileError (List PreparedAttachment) :=
  files.zipIdx.mapM fun (file, n) => prepareAttachment fs (uuid7 n) file

/-- The checks of the file in `_validate_prepared_attachments`. -/
def fileError (fs : FileSystem) (attachment : PreparedAttachment) : Option FileError :=
  match fileSize fs attachment.path with
  | .error e => some e
  | .ok currentSize =>
      if currentSize ≠ attachment.size then
        some (.valueError ("Attachment changed after preparation: ".toList ++ attachment.path ++
          " (expected ".toList ++ (toString attachment.size).toList ++ " bytes, found ".toList ++
            (toString currentSize).toList ++ ")".toList))
      else none

section Prepared
variable {fs : FileSystem} {path key : Text} {file : Text × Text} {size : Nat}
  {attachment : PreparedAttachment}

theorem fileSize_eq_ok :
    fileSize fs path = .ok size ↔ fs path = some (.regular size) ∧ 0 < size := by
  rw [fileSize]
  split
  · next h => simp [h]
  · next h => simp [h]
  · next h => simp [h]
  · next found h =>
      rw [h, Option.some.injEq, PathEntry.regular.injEq]
      split
      · next hzero =>
          refine iff_of_false (fun h => by cases h) ?_
          omega
      · next hpos =>
          rw [Except.ok.injEq]
          omega

theorem fileError_eq_none :
    fileError fs attachment = none ↔ fileSize fs attachment.path = .ok attachment.size := by
  rw [fileError]
  cases fileSize fs attachment.path with
  | error e => simp
  | ok size => simp

theorem prepareAttachment_eq_ok (h : prepareAttachment fs key file = .ok attachment) :
    attachment.key = key ∧ attachment.path = file.1 ∧
      fileSize fs file.1 = .ok attachment.size := by
  obtain ⟨size, hsize, h⟩ := Procedure.bind_eq_ok h
  dsimp only at h
  split at h
  · cases h
  · cases h
    exact ⟨rfl, rfl, hsize⟩

end Prepared

/-- What was prepared passes the checks before an upload exactly if no identifier was
drawn twice and each file is a regular file of the size that it had. -/
theorem prepared_valid_iff {R : Type} {before after : FileSystem} {uuid7 : Nat → Text}
    {files : List (Text × Text)} {attachments : List PreparedAttachment}
    (h : prepareAttachments before uuid7 files = .ok attachments) :
    validatePreparedAttachments (R := R) (fun attachment =>
        (fileError after attachment).map FileError.toExc) [] attachments = .ok () ↔
      (∀ i < files.length, ∀ j < files.length, uuid7 i = uuid7 j → i = j) ∧
      ∀ file ∈ files, after file.1 = before file.1 := by
  have hmade := Procedure.forall₂_of_mapM h
  have hkeys : attachments.map PreparedAttachment.key = (List.range files.length).map uuid7 := by
    rw [← map_eq_of_forall₂ (f := fun entry => uuid7 entry.2) hmade
      fun entry attachment hprepared => (prepareAttachment_eq_ok hprepared).1.symm]
    rw [List.range_eq_range', ← List.zipIdx_map_snd 0 files, List.map_map]
    rfl
  have hsame {file : Text × Text} {n : Nat} {attachment : PreparedAttachment}
      (hprepared : prepareAttachment before (uuid7 n) file = .ok attachment) :
      fileError after attachment = none ↔ after file.1 = before file.1 := by
    obtain ⟨-, hpath, hsize⟩ := prepareAttachment_eq_ok hprepared
    obtain ⟨hregular, hpos⟩ := fileSize_eq_ok.mp hsize
    rw [fileError_eq_none, hpath, fileSize_eq_ok, hregular, and_iff_left hpos]
  rw [validated_iff, hkeys, List.nodup_map_iff_inj_on List.nodup_range]
  refine and_congr ?_ ?_
  · simp only [List.mem_range]
  · constructor
    · rintro ⟨-, hfiles⟩ file hmem
      obtain ⟨n, hn⟩ := List.mem_iff_getElem?.mp hmem
      obtain ⟨attachment, hattachment, hprepared⟩ :=
        exists_mem_of_forall₂ hmade (List.mem_zipIdx_iff_getElem?.mpr hn : (file, n) ∈ _)
      exact (hsame hprepared).mp (Option.map_eq_none_iff.mp (hfiles attachment hattachment))
    · intro hfiles
      refine ⟨fun _ _ => List.not_mem_nil, fun attachment hmem => ?_⟩
      obtain ⟨⟨file, n⟩, hentry, hprepared⟩ := exists_mem_of_forall₂ hmade.flip hmem
      have hfile := List.mem_of_getElem? (List.mem_zipIdx_iff_getElem?.mp hentry)
      rw [(hsame hprepared).mpr (hfiles file hfile), Option.map_none]

/-- Two files, the second of which may have grown. -/
def contractDisk (notes : Nat) : FileSystem := fun path =>
  if path = "contract.pdf".toList then some (.regular 2048)
  else if path = "notes.txt".toList then some (.regular notes)
  else none

def contractFiles : List (Text × Text) :=
  [("contract.pdf".toList, "Contract".toList), ("notes.txt".toList, [])]

theorem prepared_valid_iff_grown :
    ∃ attachments,
      prepareAttachments (contractDisk 10) (fun n => (toString n).toList) contractFiles =
        .ok attachments ∧
      validatePreparedAttachments (R := Nat) (fun attachment =>
        (fileError (contractDisk 10) attachment).map FileError.toExc) [] attachments = .ok () ∧
      validatePreparedAttachments (R := Nat) (fun attachment =>
        (fileError (contractDisk 12) attachment).map FileError.toExc) [] attachments ≠ .ok () := by
  have hprepared : prepareAttachments (contractDisk 10) (fun n => (toString n).toList)
      contractFiles = .ok
        [⟨"0".toList, "contract.pdf".toList, "contract.pdf".toList, "Contract".toList, 2048⟩,
          ⟨"1".toList, "notes.txt".toList, "notes.txt".toList, [], 10⟩] := rfl
  have hdrawn : ∀ i < contractFiles.length, ∀ j < contractFiles.length,
      (toString i).toList = (toString j).toList → i = j := by
    decide
  refine ⟨_, hprepared, (prepared_valid_iff hprepared).mpr ⟨hdrawn, fun _ _ => rfl⟩, ?_⟩
  intro hvalid
  have hnotes := ((prepared_valid_iff hprepared).mp hvalid).2 ("notes.txt".toList, []) (by decide)
  cases hnotes

end DualeAI.Attachments
