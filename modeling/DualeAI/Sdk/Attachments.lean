import DualeAI.Events.Bridge
import DualeAI.Foundation.Dict
import DualeAI.Foundation.Retry
import Mathlib.Data.List.Sort

/-!
`upload_attachment_to_library`: one prepared attachment in presigned parts.

The file stays as it is during the upload. A read gives at least a byte unless it is
at the end of the file, and at most what it is asked for. What the object store
replies to the attempts of a part, and the order in which the parts end, are the
environment's.
-/
namespace DualeAI.Attachments
open Foundation

structure PreparedAttachment where
  key : Text
  path : Text
  filename : Text
  description : Text
  size : Nat

structure LibraryUploadError (R : Type) where
  message : Text
  attachmentKey : Text
  partNumber : Option Nat := none
  completedReceipts : Dict Text R := []
  problemDetails : Option ProblemDetails := none

inductive Exc (R : Type) where
  | clientError
  | timeoutError
  | s3UploadError (status : Nat)
  | libraryUpload (error : LibraryUploadError R)
  | valueError (message : Text)
  | runtimeError (message : Text)
  | cancelled
  | other (className : Text)

structure LibraryDocumentUploadPart where
  partNumber : Nat
  uploadUrl : Text
  offset : Nat
  length : Nat

structure LibraryDocumentUploadResponse where
  uploadId : Text
  parts : List LibraryDocumentUploadPart

structure LibraryDocumentCreatePartRef where
  partNumber : Nat
  etag : Text

structure LibraryDocumentCreateRequest where
  uploadId : Text
  filename : Text
  description : Text
  contentSha256 : Text
  sizeBytes : Nat
  parts : List LibraryDocumentCreatePartRef

/-! ## Reading the file -/

def streamChunkSize : Nat := 64 * 1024

/-- `f.read(size)` at a position, where `count` bytes are there at once. -/
def read (file : Bytes) (position size count : Nat) : Bytes :=
  (file.drop position).take (min size (max 1 count))

theorem read_length_le (file : Bytes) (position size count : Nat) :
    (read file position size count).length ≤ size := by
  rw [read, List.length_take]
  omega

theorem read_length_le_rest (file : Bytes) (position size count : Nat) :
    (read file position size count).length ≤ file.length - position := by
  rw [read, List.length_take, List.length_drop]
  omega

/-- The loop of `_stream_file_part`; `counts` are those of its reads. -/
def streamFrom (file : Bytes) (counts : Nat → Nat) (call position remaining : Nat) : List Bytes :=
  if remaining = 0 then []
  else
    match read file position (min streamChunkSize remaining) (counts call) with
    | [] => []
    | byte :: rest =>
        let data := byte :: rest
        data :: streamFrom file counts (call + 1) (position + data.length) (remaining - data.length)
termination_by remaining
decreasing_by
  rw [List.length_cons]
  omega

def streamFilePart (file : Bytes) (counts : Nat → Nat) (offset length : Nat) : List Bytes :=
  streamFrom file counts 0 offset length

/-- The loop of `_compute_content_sha256`: what the digest is updated with. -/
def digestFrom (file : Bytes) (counts : Nat → Nat) (call position : Nat) : List Bytes :=
  match _h : read file position streamChunkSize (counts call) with
  | [] => []
  | byte :: rest =>
      let chunk := byte :: rest
      chunk :: digestFrom file counts (call + 1) (position + chunk.length)
termination_by file.length - position
decreasing_by
  have hlength := read_length_le_rest file position streamChunkSize (counts call)
  rw [_h, List.length_cons] at hlength
  rw [List.length_cons]
  omega

/-! ## Uploading a part -/

/-- What an attempt of the session's `put` comes to; where it raises, `sent` chunks of
the body had been taken. -/
inductive PutReply (R : Type) where
  | raised (error : Exc R) (sent : Nat)
  | response (status : Nat) (etag : Option Text)

/-- One attempt: the request and its reply. -/
structure Exchange (R : Type) where
  url : Text
  contentLength : Nat
  chunks : List Bytes
  reply : PutReply R

def maxUploadAttempts : Nat := 5

section Upload
variable {R : Type}

def isRetryable : Exc R → Bool
  | .clientError | .timeoutError | .s3UploadError _ => true
  | .libraryUpload _ | .valueError _ | .runtimeError _ | .cancelled | .other _ => false

def retryStatuses : List Nat := [500, 502, 503, 504]

/-- What an attempt makes of its reply. -/
def partResult (attachment : PreparedAttachment) (part : LibraryDocumentUploadPart) :
    PutReply R → Except (Exc R) LibraryDocumentCreatePartRef
  | .raised error _ => .error error
  | .response status etag =>
      if retryStatuses.contains status then .error (.s3UploadError status)
      else if status ≠ 200 then
        .error (.libraryUpload
          { message := "Object-store upload returned HTTP ".toList ++ (toString status).toList
            attachmentKey := attachment.key
            partNumber := some part.partNumber })
      else
        match etag with
        | none =>
            .error (.libraryUpload
              { message := "Object-store upload response omitted ETag".toList
                attachmentKey := attachment.key
                partNumber := some part.partNumber })
        | some etag =>
            if etag.isEmpty then .error (.other "ValidationError".toList)
            else .ok ⟨part.partNumber, etag⟩

def sentChunks (chunks : List Bytes) : PutReply R → List Bytes
  | .raised _ sent => chunks.take sent
  | .response _ _ => chunks

section Part
variable (file : Bytes) (counts : Nat → Nat → Nat) (replies : Nat → PutReply R)
variable (attachment : PreparedAttachment) (part : LibraryDocumentUploadPart)

/-- An attempt reads its part of the file afresh. -/
def putPart (number : Nat) (_ : Unit) :
    AttemptRun Unit (Exc R) (Exchange R) LibraryDocumentCreatePartRef where
  yields :=
    [{ url := part.uploadUrl
       contentLength := part.length
       chunks := sentChunks (streamFilePart file (counts number) part.offset part.length)
         (replies number)
       reply := replies number }]
  state := ()
  result := partResult attachment part (replies number)

def attemptsFailed : LibraryUploadError R where
  message := "Object-store upload failed after five attempts".toList
  attachmentKey := attachment.key
  partNumber := some part.partNumber

/-- `_upload_part`. -/
def uploadPart : AttemptRun Unit (Exc R) (Exchange R) LibraryDocumentCreatePartRef :=
  let run := Retry.retrying isRetryable (putPart file counts replies attachment part)
    maxUploadAttempts ()
  { run with
    result := run.result.mapError fun error =>
      if isRetryable error then .libraryUpload (attemptsFailed attachment part) else error }

end Part

/-! ## Uploading an attachment -/

/-- `_gather_related`: the results in order, or the exception of the first task that
failed; `finished` are the tasks in the order in which they ended. -/
def gatherRelated {β : Type} (finished : List Nat) (results : List (Except (Exc R) β)) :
    Except (Exc R) (List β) :=
  match finished.findSome? fun n => results[n]?.bind fun result =>
      match result with
      | .error e => some e
      | .ok _ => none with
  | some e => .error e
  | none => results.mapM id

/-- What the reads, the object store and the order of events make of an upload. -/
structure Environment (R : Type) where
  shaCounts : Nat → Nat
  shaError : Option (Exc R)
  counts : (part attempt call : Nat) → Nat
  replies : (part attempt : Nat) → PutReply R
  finished : List Nat
  /-- Whether the digest ended before the parts. -/
  shaFirst : Bool

section Attachment
variable (sha256 : Bytes → Text) (env : Environment R) (attachment : PreparedAttachment)
variable (file : Bytes) (response : LibraryDocumentUploadResponse)

def computeContentSha256 : Except (Exc R) Text :=
  match env.shaError with
  | some e => .error e
  | none => .ok (sha256 (digestFrom file env.shaCounts 0 0).flatten)

/-- The run of the part at a place of the response's list. -/
def partRun (part : LibraryDocumentUploadPart × Nat) :
    AttemptRun Unit (Exc R) (Exchange R) LibraryDocumentCreatePartRef :=
  uploadPart file (env.counts part.2) (env.replies part.2) attachment part.1

def completedParts : Except (Exc R) (List LibraryDocumentCreatePartRef) :=
  gatherRelated env.finished
    (response.parts.zipIdx.map fun part => (partRun env attachment file part).result)

def readError : Exc R → Exc R
  | .cancelled => .cancelled
  | .libraryUpload error => .libraryUpload error
  | _ =>
      .libraryUpload
        { message := "Could not read the prepared attachment".toList
          attachmentKey := attachment.key }

/-- The digest and the parts, gathered side by side. -/
def contentAndParts : Except (Exc R) (Text × List LibraryDocumentCreatePartRef) :=
  let sha := computeContentSha256 sha256 env file
  let parts := completedParts env attachment file response
  if env.shaFirst then do return (← sha, ← parts) else do
    let parts ← parts
    return (← sha, parts)

/-- What `upload_attachment_to_library` asks the Library to create. -/
def uploadRequest : Except (Exc R) LibraryDocumentCreateRequest := do
  let (contentSha256, parts) ←
    (contentAndParts sha256 env attachment file response).mapError (readError attachment)
  return {
    uploadId := response.uploadId
    filename := attachment.filename
    description := attachment.description
    contentSha256 := contentSha256
    sizeBytes := attachment.size
    parts := parts.mergeSort fun a b => a.partNumber ≤ b.partNumber }

end Attachment
end Upload
end DualeAI.Attachments
