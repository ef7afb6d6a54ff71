import DualeAI.Sdk.Attachments

/-!
What the parts of an upload add up to.

The server's parts tile the file by part number. A stream is its range of the file
however short the reads are, so what the last attempts of all parts sent is the file,
and the digest is over the same bytes.
-/
namespace DualeAI.Attachments
open Foundation

/-! ## Streams -/

theorem read_eq_take (file : Bytes) (position size count : Nat) :
    read file position size count =
      (file.drop position).take (read file position size count).length := by
  rw [read, List.length_take, ← List.take_eq_take_min]

theorem read_eq_nil {file : Bytes} {position size count : Nat} (hsize : 0 < size)
    (h : read file position size count = []) : file.drop position = [] := by
  rw [read, List.take_eq_nil_iff] at h
  exact h.resolve_left (by omega)

/-- What was read, and what a further read of the rest gives. -/
theorem append_take_drop {file data : Bytes} {position remaining : Nat}
    (hdata : data = (file.drop position).take data.length) (hle : data.length ≤ remaining) :
    data ++ (file.drop (position + data.length)).take (remaining - data.length) =
      (file.drop position).take remaining := by
  have hsum : remaining = data.length + (remaining - data.length) := by omega
  calc data ++ (file.drop (position + data.length)).take (remaining - data.length)
      = (file.drop position).take data.length ++
          ((file.drop position).drop data.length).take (remaining - data.length) := by
        rw [← hdata, List.drop_drop]
    _ = (file.drop position).take (data.length + (remaining - data.length)) :=
        List.take_add.symm
    _ = (file.drop position).take remaining := by rw [← hsum]

theorem streamFrom_flatten (file : Bytes) (counts : Nat → Nat) (call position remaining : Nat) :
    (streamFrom file counts call position remaining).flatten =
      (file.drop position).take remaining := by
  fun_induction streamFrom file counts call position remaining with
  | case1 call position => simp
  | case2 call position remaining hpos hread =>
      have hsize : 0 < min streamChunkSize remaining := by
        rw [Nat.lt_min]
        exact ⟨by decide, Nat.pos_of_ne_zero hpos⟩
      rw [read_eq_nil hsize hread, List.take_nil]
      rfl
  | case3 call position remaining hpos byte rest hread data ih =>
      have hdata := read_eq_take file position (min streamChunkSize remaining) (counts call)
      have hle := read_length_le file position (min streamChunkSize remaining) (counts call)
      rw [hread] at hdata hle
      rw [List.flatten_cons, ih]
      exact append_take_drop hdata (hle.trans (Nat.min_le_right _ _))

theorem streamFrom_chunks (file : Bytes) (counts : Nat → Nat) (call position remaining : Nat) :
    ∀ chunk ∈ streamFrom file counts call position remaining,
      chunk ≠ [] ∧ chunk.length ≤ streamChunkSize := by
  fun_induction streamFrom file counts call position remaining with
  | case1 | case2 => exact fun _ h => absurd h List.not_mem_nil
  | case3 call position remaining hpos byte rest hread data ih =>
      intro chunk hmem
      cases List.mem_cons.mp hmem with
      | inl hfirst =>
          have hle := read_length_le file position (min streamChunkSize remaining) (counts call)
          rw [hread] at hle
          rw [hfirst]
          exact ⟨List.cons_ne_nil _ _, hle.trans (Nat.min_le_left _ _)⟩
      | inr hrest => exact ih chunk hrest

/-- The loop ends after at most as many turns as there are bytes to send. -/
theorem streamFrom_length (file : Bytes) (counts : Nat → Nat) (call position remaining : Nat) :
    (streamFrom file counts call position remaining).length ≤ remaining := by
  fun_induction streamFrom file counts call position remaining with
  | case1 | case2 => exact Nat.zero_le _
  | case3 call position remaining hpos byte rest hread data ih =>
      have hdata : 1 ≤ data.length := by simp [data]
      rw [List.length_cons]
      omega

theorem digestFrom_flatten (file : Bytes) (counts : Nat → Nat) (call position : Nat) :
    (digestFrom file counts call position).flatten = file.drop position := by
  fun_induction digestFrom file counts call position with
  | case1 call position hread =>
      rw [read_eq_nil (by decide) hread]
      rfl
  | case2 call position byte rest hread chunk ih =>
      have hdata := read_eq_take file position streamChunkSize (counts call)
      rw [hread] at hdata
      rw [List.flatten_cons, ih, ← List.drop_drop]
      calc chunk ++ (file.drop position).drop chunk.length
          = (file.drop position).take chunk.length ++ (file.drop position).drop chunk.length := by
            rw [← hdata]
        _ = file.drop position := List.take_append_drop _ _

/-! ## Parts -/

section Parts
variable {R : Type}

/-- The parts follow one another from `offset` on up to the size. -/
def tilesFrom (size : Nat) : (offset : Nat) → List LibraryDocumentUploadPart → Prop
  | offset, [] => offset = size
  | offset, part :: parts => part.offset = offset ∧ tilesFrom size (offset + part.length) parts

def orderedParts (parts : List LibraryDocumentUploadPart) :
    List (LibraryDocumentUploadPart × Nat) :=
  parts.zipIdx.mergeSort fun a b => a.1.partNumber ≤ b.1.partNumber

/-- The parts tile the file by part number. -/
structure Tiles (size : Nat) (parts : List LibraryDocumentUploadPart) : Prop where
  distinct : (parts.map LibraryDocumentUploadPart.partNumber).Nodup
  tiles : tilesFrom size 0 ((orderedParts parts).map Prod.fst)

theorem tilesFrom_le {size offset : Nat} {parts : List LibraryDocumentUploadPart}
    (h : tilesFrom size offset parts) : offset ≤ size := by
  induction parts generalizing offset with
  | nil => exact Nat.le_of_eq h
  | cons part parts ih =>
      have hrest := ih h.2
      omega

/-- The ranges of the parts are the file. -/
theorem tilesFrom_ranges {file : Bytes} {offset : Nat} {parts : List LibraryDocumentUploadPart}
    (h : tilesFrom file.length offset parts) :
    parts.flatMap (fun part => (file.drop part.offset).take part.length) = file.drop offset := by
  induction parts generalizing offset with
  | nil =>
      rw [show offset = file.length from h, List.drop_length]
      rfl
  | cons part parts ih =>
      obtain ⟨rfl, hrest⟩ := h
      rw [List.flatMap_cons, ih hrest, ← List.drop_drop]
      exact List.take_append_drop _ _

theorem tilesFrom_range {file : Bytes} {offset : Nat} {parts : List LibraryDocumentUploadPart}
    (h : tilesFrom file.length offset parts) :
    ∀ part ∈ parts, ((file.drop part.offset).take part.length).length = part.length := by
  induction parts generalizing offset with
  | nil => exact fun _ hmem => absurd hmem List.not_mem_nil
  | cons part parts ih =>
      obtain ⟨rfl, hrest⟩ := h
      intro part' hmem
      cases List.mem_cons.mp hmem with
      | inl hfirst =>
          have hle := tilesFrom_le hrest
          rw [hfirst, List.length_take, List.length_drop]
          omega
      | inr hlater => exact ih hrest part' hlater

theorem partResult_ok {attachment : PreparedAttachment} {part : LibraryDocumentUploadPart}
    {reply : PutReply R} {ref : LibraryDocumentCreatePartRef}
    (h : partResult attachment part reply = .ok ref) :
    reply = .response 200 (some ref.etag) ∧ ref.partNumber = part.partNumber := by
  cases reply with
  | raised error sent => cases h
  | response status etag =>
      simp only [partResult] at h
      split at h
      · cases h
      · split at h
        · cases h
        · next hstatus =>
            cases etag with
            | none => cases h
            | some etag =>
                simp only at h
                split at h
                · cases h
                · cases h
                  rw [not_not.mp hstatus]
                  exact ⟨rfl, rfl⟩

theorem mapError_ok {ε ε' β : Type} {f : ε → ε'} {result : Except ε β} {b : β}
    (h : result.mapError f = .ok b) : result = .ok b := by
  cases result with
  | ok b' => cases h; rfl
  | error e => cases h

section Part
variable {file : Bytes} {counts : Nat → Nat → Nat} {replies : Nat → PutReply R}
variable {attachment : PreparedAttachment} {part : LibraryDocumentUploadPart}

/-- A part that succeeds sent its whole stream last, and its receipt is the reply's. -/
theorem uploadPart_ok {ref : LibraryDocumentCreatePartRef}
    (h : (uploadPart file counts replies attachment part).result = .ok ref) :
    ∃ past last, (uploadPart file counts replies attachment part).yields = past ++ [last] ∧
      last.reply = .response 200 (some ref.etag) ∧ ref.partNumber = part.partNumber ∧
      last.contentLength = part.length ∧
      last.chunks.flatten = (file.drop part.offset).take part.length := by
  obtain ⟨number, t, past, hresult, hyields⟩ := Retry.attemptsFrom_ok (mapError_ok h)
  obtain ⟨hreply, hnumber⟩ := partResult_ok hresult
  refine ⟨past, _, hyields, hreply, hnumber, rfl, ?_⟩
  rw [hreply]
  exact streamFrom_flatten file (counts number) 0 part.offset part.length

theorem uploadPart_yields {exchange : Exchange R}
    (h : exchange ∈ (uploadPart file counts replies attachment part).yields) :
    exchange.contentLength = part.length ∧
      (∀ chunk ∈ exchange.chunks, chunk.length ≤ streamChunkSize) ∧
      ∀ status etag, exchange.reply = .response status etag →
        exchange.chunks.flatten = (file.drop part.offset).take part.length := by
  obtain ⟨number, t, hmem⟩ := Retry.attemptsFrom_yields h
  cases List.mem_singleton.mp hmem
  refine ⟨rfl, fun chunk hchunk => ?_, fun status etag hreply => ?_⟩
  · have hstream := streamFrom_chunks file (counts number) 0 part.offset part.length chunk
    cases hreply : replies number with
    | raised error sent =>
        rw [hreply] at hchunk
        exact (hstream (List.mem_of_mem_take hchunk)).2
    | response status etag =>
        rw [hreply] at hchunk
        exact (hstream hchunk).2
  · rw [show replies number = _ from hreply]
    exact streamFrom_flatten file (counts number) 0 part.offset part.length

end Part

/-! ## The upload -/

section Upload
variable {env : Environment R} {attachment : PreparedAttachment} {file : Bytes}
variable {response : LibraryDocumentUploadResponse}

/-- What the object store got last for a part. -/
def lastBody (env : Environment R) (attachment : PreparedAttachment) (file : Bytes)
    (part : LibraryDocumentUploadPart × Nat) : Bytes :=
  match (partRun env attachment file part).yields.getLast? with
  | some exchange => exchange.chunks.flatten
  | none => []

/-- The receipt that the reply to the last request for a part gives. -/
def lastReceipt (env : Environment R) (attachment : PreparedAttachment) (file : Bytes)
    (part : LibraryDocumentUploadPart × Nat) : Option LibraryDocumentCreatePartRef :=
  match (partRun env attachment file part).yields.getLast? with
  | some ⟨_, _, _, .response 200 (some etag)⟩ => some ⟨part.1.partNumber, etag⟩
  | _ => none

theorem partRun_ok {part : LibraryDocumentUploadPart × Nat} {ref : LibraryDocumentCreatePartRef}
    (h : (partRun env attachment file part).result = .ok ref) :
    lastBody env attachment file part = (file.drop part.1.offset).take part.1.length ∧
      lastReceipt env attachment file part = some ref := by
  obtain ⟨past, ⟨url, contentLength, chunks, reply⟩, hyields, hreply, hnumber, -, hbody⟩ :=
    uploadPart_ok h
  have hlast : (partRun env attachment file part).yields.getLast? =
      some ⟨url, contentLength, chunks, reply⟩ := by
    rw [show (partRun env attachment file part).yields = _ from hyields, List.getLast?_concat]
  subst hreply
  refine ⟨?_, ?_⟩
  · rw [lastBody, hlast]
    exact hbody
  · rw [lastReceipt, hlast, ← hnumber]
    rfl

theorem mapM_id_ok {ε β : Type} {results : List (Except ε β)} {values : List β}
    (h : results.mapM id = .ok values) : results = values.map .ok := by
  induction results generalizing values with
  | nil =>
      cases h
      rfl
  | cons result results ih =>
      rw [List.mapM_cons] at h
      cases result with
      | error e => cases h
      | ok value =>
          cases hrest : results.mapM id with
          | error e =>
              rw [hrest] at h
              cases h
          | ok rest =>
              rw [hrest] at h
              cases h
              rw [ih hrest]
              rfl

theorem gatherRelated_ok {β : Type} {finished : List Nat} {results : List (Except (Exc R) β)}
    {values : List β} (h : gatherRelated finished results = .ok values) :
    results = values.map .ok := by
  rw [gatherRelated] at h
  split at h
  · cases h
  · exact mapM_id_ok h

theorem contentAndParts_ok {sha256 : Bytes → Text} {sha : Text}
    {refs : List LibraryDocumentCreatePartRef}
    (h : contentAndParts sha256 env attachment file response = .ok (sha, refs)) :
    computeContentSha256 sha256 env file = .ok sha ∧
      completedParts env attachment file response = .ok refs := by
  simp only [contentAndParts, bind, Except.bind, pure, Except.pure] at h
  cases hsha : computeContentSha256 sha256 env file with
  | error e =>
      cases hparts : completedParts env attachment file response <;>
        cases hfirst : env.shaFirst <;> simp [hsha, hparts, hfirst] at h
  | ok sha' =>
      cases hparts : completedParts env attachment file response with
      | error e => cases hfirst : env.shaFirst <;> simp [hsha, hparts, hfirst] at h
      | ok refs' =>
          have hboth : sha' = sha ∧ refs' = refs := by
            cases hfirst : env.shaFirst <;> simpa [hsha, hparts, hfirst] using h
          rw [hboth.1, hboth.2]
          exact ⟨rfl, rfl⟩

theorem computeContentSha256_ok {sha256 : Bytes → Text} {sha : Text}
    (h : computeContentSha256 sha256 env file = .ok sha) : sha = sha256 file := by
  rw [computeContentSha256] at h
  split at h
  · cases h
  · cases h
    rw [digestFrom_flatten, List.drop_zero]

/-- The receipts of the gathered parts, in the order of the response. -/
theorem map_lastReceipt {parts : List (LibraryDocumentUploadPart × Nat)}
    {refs : List LibraryDocumentCreatePartRef}
    (h : parts.map (fun part => (partRun env attachment file part).result) = refs.map .ok) :
    parts.map (lastReceipt env attachment file) = refs.map some ∧
      ∀ part ∈ parts, ∃ ref, (partRun env attachment file part).result = .ok ref := by
  induction parts generalizing refs with
  | nil =>
      cases refs with
      | nil => exact ⟨rfl, fun _ hmem => absurd hmem List.not_mem_nil⟩
      | cons => cases h
  | cons part parts ih =>
      cases refs with
      | nil => cases h
      | cons ref refs =>
          obtain ⟨hfirst, hrest⟩ := List.cons.inj h
          obtain ⟨hreceipts, hresults⟩ := ih hrest
          refine ⟨?_, fun part' hmem => ?_⟩
          · rw [List.map_cons, List.map_cons, (partRun_ok hfirst).2, hreceipts]
          · cases List.mem_cons.mp hmem with
            | inl hpart => exact ⟨ref, hpart ▸ hfirst⟩
            | inr hlater => exact hresults part' hlater

/-! ### The parts by number -/

theorem orderedParts_perm (parts : List LibraryDocumentUploadPart) :
    (orderedParts parts).Perm parts.zipIdx := List.mergeSort_perm _ _

theorem orderedParts_pairwise {parts : List LibraryDocumentUploadPart}
    (h : (parts.map LibraryDocumentUploadPart.partNumber).Nodup) :
    (orderedParts parts).Pairwise fun a b => a.1.partNumber < b.1.partNumber := by
  have htrans (a b c : LibraryDocumentUploadPart × Nat)
      (hab : decide (a.1.partNumber ≤ b.1.partNumber) = true)
      (hbc : decide (b.1.partNumber ≤ c.1.partNumber) = true) :
      decide (a.1.partNumber ≤ c.1.partNumber) = true :=
    decide_eq_true (Nat.le_trans (of_decide_eq_true hab) (of_decide_eq_true hbc))
  have htotal (a b : LibraryDocumentUploadPart × Nat) :
      (decide (a.1.partNumber ≤ b.1.partNumber) || decide (b.1.partNumber ≤ a.1.partNumber)) =
        true := by
    simp only [Bool.or_eq_true, decide_eq_true_eq]
    omega
  have hsorted := List.pairwise_mergeSort htrans htotal parts.zipIdx
  have hnodup : (orderedParts parts).Pairwise fun a b => a.1.partNumber ≠ b.1.partNumber := by
    have hmap : ((orderedParts parts).map fun part => part.1.partNumber).Nodup := by
      refine (((orderedParts_perm parts).map _).nodup_iff).mpr ?_
      have hfst : parts.zipIdx.map (fun part => part.1.partNumber) =
          parts.map LibraryDocumentUploadPart.partNumber := by
        rw [← List.zipIdx_map_fst 0 parts, List.map_map]
        simp only [List.zipIdx_map_fst]
        rfl
      rw [hfst]
      exact h
    exact List.pairwise_map.mp hmap
  exact hsorted.imp₂ (fun a b hle hne => Nat.lt_of_le_of_ne (of_decide_eq_true hle) hne) hnodup

theorem lastReceipt_number {part : LibraryDocumentUploadPart × Nat}
    {ref : LibraryDocumentCreatePartRef} (h : lastReceipt env attachment file part = some ref) :
    ref.partNumber = part.1.partNumber := by
  rw [lastReceipt] at h
  split at h
  · cases h
    rfl
  · cases h

/-- How the sort compares receipts, where there are any. -/
def receiptLe : Option LibraryDocumentCreatePartRef → Option LibraryDocumentCreatePartRef → Bool
  | some a, some b => a.partNumber ≤ b.partNumber
  | _, _ => false

/-- Sorting the receipts by number is sorting the parts. -/
theorem sorted_receipts {parts : List LibraryDocumentUploadPart}
    {refs : List LibraryDocumentCreatePartRef}
    (h : parts.zipIdx.map (lastReceipt env attachment file) = refs.map some) :
    (refs.mergeSort fun a b => a.partNumber ≤ b.partNumber).map some =
      (orderedParts parts).map (lastReceipt env attachment file) := by
  have hreceipt :
      ∀ part ∈ parts.zipIdx, ∃ ref, lastReceipt env attachment file part = some ref := by
    intro part hmem
    have hmapped := List.mem_map_of_mem (f := lastReceipt env attachment file) hmem
    rw [h] at hmapped
    obtain ⟨ref, -, heq⟩ := List.mem_map.mp hmapped
    exact ⟨ref, heq.symm⟩
  have hparts : (orderedParts parts).map (lastReceipt env attachment file) =
      (parts.zipIdx.map (lastReceipt env attachment file)).mergeSort receiptLe := by
    refine List.map_mergeSort fun a ha b hb => ?_
    obtain ⟨ra, hra⟩ := hreceipt a ha
    obtain ⟨rb, hrb⟩ := hreceipt b hb
    rw [hra, hrb, receiptLe, lastReceipt_number hra, lastReceipt_number hrb]
  rw [hparts, h]
  exact List.map_mergeSort fun a _ b _ => rfl

theorem uploadRequest_ok {sha256 : Bytes → Text} {request : LibraryDocumentCreateRequest}
    (h : uploadRequest sha256 env attachment file response = .ok request) :
    ∃ refs : List LibraryDocumentCreatePartRef, request.contentSha256 = sha256 file ∧
      request.parts = refs.mergeSort (fun a b => a.partNumber ≤ b.partNumber) ∧
      response.parts.zipIdx.map (fun part => (partRun env attachment file part).result) =
        refs.map .ok := by
  rw [uploadRequest] at h
  cases hgathered : contentAndParts sha256 env attachment file response with
  | error e =>
      rw [hgathered] at h
      cases h
  | ok gathered =>
      obtain ⟨sha, refs⟩ := gathered
      rw [hgathered] at h
      cases h
      obtain ⟨hsha, hparts⟩ := contentAndParts_ok hgathered
      exact ⟨refs, computeContentSha256_ok hsha, rfl, gatherRelated_ok hparts⟩

/-- Whatever the reads, the retries and the order of the parts: the bodies sent last
are the file, and the request to create the document agrees with them. -/
theorem upload_correct (sha256 : Bytes → Text) (env : Environment R)
    (attachment : PreparedAttachment) (file : Bytes) (response : LibraryDocumentUploadResponse)
    (request : LibraryDocumentCreateRequest) (htiles : Tiles file.length response.parts)
    (h : uploadRequest sha256 env attachment file response = .ok request) :
    (orderedParts response.parts).flatMap (lastBody env attachment file) = file ∧
    (∀ part ∈ response.parts.zipIdx, ∀ exchange ∈ (partRun env attachment file part).yields,
      exchange.contentLength = part.1.length ∧
      (∀ chunk ∈ exchange.chunks, chunk.length ≤ streamChunkSize) ∧
      ∀ status etag, exchange.reply = .response status etag →
        exchange.chunks.flatten.length = exchange.contentLength) ∧
    request.parts.map some =
      (orderedParts response.parts).map (lastReceipt env attachment file) ∧
    request.parts.Pairwise (fun a b => a.partNumber < b.partNumber) ∧
    request.contentSha256 = sha256 file ∧
    ∀ counts call position remaining,
      (streamFrom file counts call position remaining).length ≤ remaining := by
  obtain ⟨refs, hsha, hparts, hresults⟩ := uploadRequest_ok h
  obtain ⟨hreceipts, hsucceeded⟩ := map_lastReceipt hresults
  have hsorted := sorted_receipts hreceipts
  rw [← hparts] at hsorted
  have hmem {part : LibraryDocumentUploadPart × Nat} (hpart : part ∈ orderedParts response.parts) :
      part ∈ response.parts.zipIdx := (orderedParts_perm _).mem_iff.mp hpart
  refine ⟨?_, fun part hpart exchange hexchange => ?_, hsorted, ?_, hsha,
    fun counts call position remaining => streamFrom_length file counts call position remaining⟩
  · calc (orderedParts response.parts).flatMap (lastBody env attachment file)
        = (orderedParts response.parts).flatMap fun part =>
            (file.drop part.1.offset).take part.1.length := by
          refine List.flatMap_congr fun part hpart => ?_
          obtain ⟨ref, href⟩ := hsucceeded part (hmem hpart)
          exact (partRun_ok href).1
      _ = ((orderedParts response.parts).map Prod.fst).flatMap fun part =>
            (file.drop part.offset).take part.length := by rw [List.flatMap_map]
      _ = file := by rw [tilesFrom_ranges htiles.tiles, List.drop_zero]
  · obtain ⟨hlength, hchunks, hbody⟩ := uploadPart_yields hexchange
    refine ⟨hlength, hchunks, fun status etag hreply => ?_⟩
    rw [hbody status etag hreply, hlength]
    have hordered := List.mem_map_of_mem (f := Prod.fst) ((orderedParts_perm _).mem_iff.mpr hpart)
    exact tilesFrom_range htiles.tiles part.1 hordered
  · have hascending : ((orderedParts response.parts).map (lastReceipt env attachment file)).Pairwise
        fun a b => ∀ ra ∈ a, ∀ rb ∈ b, ra.partNumber < rb.partNumber := by
      refine List.pairwise_map.mpr ((orderedParts_pairwise htiles.distinct).imp ?_)
      intro a b hlt ra hra rb hrb
      rw [lastReceipt_number hra, lastReceipt_number hrb]
      exact hlt
    rw [← hsorted, List.pairwise_map] at hascending
    exact hascending.imp fun hlt => hlt _ rfl _ rfl

end Upload
end Parts

/-- Two parts in the wrong order, read a byte at a time, the first attempt of each
answered with 503. -/
theorem upload_correct_retried :
    let parts : List LibraryDocumentUploadPart := [⟨2, [], 2, 1⟩, ⟨1, [], 0, 2⟩]
    let replies (part attempt : Nat) : PutReply Unit :=
      if attempt = 1 then .response 503 none
      else .response 200 (some [if part = 0 then 'b' else 'a'])
    let env : Environment Unit := ⟨fun _ => 1, none, fun _ _ _ => 1, replies, [1, 0], true⟩
    let attachment : PreparedAttachment := ⟨['k'], ['p'], ['f'], [], 3⟩
    (orderedParts parts).flatMap (lastBody env attachment [1, 2, 3]) = [1, 2, 3] := by
  intro parts replies env attachment
  have hordered : orderedParts parts = [(⟨1, [], 0, 2⟩, 1), (⟨2, [], 2, 1⟩, 0)] := by
    simp [orderedParts, parts, List.zipIdx, List.mergeSort, List.MergeSort.Internal.splitInTwo]
  have htiles : Tiles [1, 2, 3].length parts := by
    refine ⟨by decide, ?_⟩
    rw [hordered]
    exact ⟨rfl, rfl, rfl⟩
  exact (upload_correct (fun _ => []) env attachment [1, 2, 3] ⟨['u'], parts⟩ _ htiles rfl).1

end DualeAI.Attachments
