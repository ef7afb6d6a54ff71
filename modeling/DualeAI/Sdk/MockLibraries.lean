import DualeAI.Foundation.Keyset
import DualeAI.Foundation.Transition
import DualeAI.Sdk.UploadBatch
import Mathlib.Data.Char
import Mathlib.Data.List.Lex
import Mathlib.Data.List.Sort
import Mathlib.Data.Prod.Lex

/-!
The in-memory library client of the test utilities, and a scan over its pages.

Document ids are drawn by the caller's UUID source, which is given with each
upload. What an upload stored before it raised stays stored.
-/
namespace DualeAI.MockLibraries
open Foundation
open Attachments (PreparedAttachment validatePreparedAttachments)

structure BusinessError where
  message : Text
  operation : Text

structure LibraryWithRevision where
  id : Text

structure PublicIndexedDocument where
  documentId : Text
  libraryId : Text
  filename : Text
  description : Text
  sizeBytes : Nat
  createdAt : Int

structure LibraryDocumentCreateResponse where
  documentId : Text
  libraryId : Text
  location : Text

structure LibraryDocumentListRequest where
  libraryId : Text
  limit : Nat
  cursor : Option Text
  limit_pos : 1 ≤ limit
  limit_le : limit ≤ 500

structure LibraryDocumentPage where
  documents : List PublicIndexedDocument
  nextCursor : Option Text

/-- A document is stored under its own id. -/
structure MockLibrariesClient where
  tenantId : Text
  libraries : Dict Text LibraryWithRevision
  documents : Dict (Text × Text) PublicIndexedDocument
  distinct : (documents.map Prod.fst).Nodup
  keyed : ∀ entry ∈ documents, entry.2.documentId = entry.1.2

/-- What `upload` raises. -/
inductive UploadFailure where
  | business (e : BusinessError)
  | attachments (e : Attachments.Exc LibraryDocumentCreateResponse)
  | validationError

namespace MockLibrariesClient

def requireLibrary (s : MockLibrariesClient) (libraryId : Text) :
    Except BusinessError LibraryWithRevision :=
  match s.libraries.lookup libraryId with
  | some library => .ok library
  | none =>
      .error ⟨"Library ".toList ++ libraryId ++ " does not exist".toList,
        "mock_library_read".toList⟩

/-! ## Uploads and deletes -/

def maxNameLength : Nat := 500

def maxSafeInteger : Nat := 9007199254740991

/-- The document that is made for an attachment, unless its model rejects it. -/
def indexedDocument (library : LibraryWithRevision) (attachment : PreparedAttachment)
    (documentId : Text) (now : Int) : Option PublicIndexedDocument :=
  if 1 ≤ attachment.filename.length ∧ attachment.filename.length ≤ maxNameLength ∧
      attachment.description.length ≤ maxNameLength ∧ attachment.size ≤ maxSafeInteger then
    some ⟨documentId, library.id, attachment.filename, attachment.description, attachment.size, now⟩
  else none

/-- A segment of the pattern that locations match. -/
def isSegment (text : Text) : Bool := !text.isEmpty && !text.contains '/'

def receipt (tenantId : Text) (document : PublicIndexedDocument) :
    Option LibraryDocumentCreateResponse :=
  if isSegment tenantId && isSegment document.libraryId && isSegment document.documentId then
    some ⟨document.documentId, document.libraryId,
      "/v1/tenants/".toList ++ tenantId ++ "/".toList ++ document.libraryId ++
        "/documents/".toList ++ document.documentId⟩
  else none

def putDocument (s : MockLibrariesClient) (document : PublicIndexedDocument) :
    MockLibrariesClient :=
  { s with
    documents := s.documents.put (document.libraryId, document.documentId) document
    distinct := Dict.nodup_put s.distinct
    keyed := by
      intro entry hmem
      cases Dict.mem_put hmem with
      | inl hnew => rw [hnew.1, hnew.2]
      | inr hold => exact s.keyed _ hold.2 }

/-- The loop of `upload`, over the attachments with the ids drawn for them. -/
def uploadEach (library : LibraryWithRevision) (now : Int) (s : MockLibrariesClient)
    (receipts : Dict Text LibraryDocumentCreateResponse) : List (PreparedAttachment × Text) →
      MockLibrariesClient × Except UploadFailure (Dict Text LibraryDocumentCreateResponse)
  | [] => (s, .ok receipts)
  | (attachment, documentId) :: rest =>
      match indexedDocument library attachment documentId now with
      | none => (s, .error .validationError)
      | some document =>
          let s := s.putDocument document
          match receipt s.tenantId document with
          | none => (s, .error .validationError)
          | some created => uploadEach library now s (receipts.put attachment.key created) rest

def upload (fileError : PreparedAttachment → Option (Attachments.Exc LibraryDocumentCreateResponse))
    (s : MockLibrariesClient) (libraryId : Text) (attachments : List (PreparedAttachment × Text))
    (now : Int) :
    MockLibrariesClient × Except UploadFailure (Dict Text LibraryDocumentCreateResponse) :=
  if attachments.isEmpty then (s, .ok [])
  else
    match validatePreparedAttachments fileError [] (attachments.map Prod.fst) with
    | .error e => (s, .error (.attachments e))
    | .ok _ =>
        match s.requireLibrary libraryId with
        | .error e => (s, .error (.business e))
        | .ok library => uploadEach library now s [] attachments

def deleteDocument (s : MockLibrariesClient) (libraryId documentId : Text) :
    MockLibrariesClient × Except BusinessError Unit :=
  match s.requireLibrary libraryId with
  | .error e => (s, .error e)
  | .ok library =>
      ({ s with
          documents := s.documents.pop (library.id, documentId)
          distinct := Dict.nodup_pop s.distinct
          keyed := fun entry hmem => s.keyed entry (List.mem_of_mem_filter hmem) }, .ok ())

/-! ## Pages -/

/-- `sorted(self._documents.items())`; no two entries have one key. -/
def sortedItems (s : MockLibrariesClient) : List ((Text × Text) × PublicIndexedDocument) :=
  s.documents.insertionSort fun a b => toLex a.1 ≤ toLex b.1

/-- The documents of a library in the order of their ids. -/
def documentsOf (s : MockLibrariesClient) (libraryId : Text) : List PublicIndexedDocument :=
  (s.sortedItems.filter fun entry => entry.1.1 == libraryId).map Prod.snd

def listDocuments (s : MockLibrariesClient) (request : LibraryDocumentListRequest) :
    Except BusinessError LibraryDocumentPage :=
  match s.requireLibrary request.libraryId with
  | .error e => .error e
  | .ok library =>
      let documents := s.documentsOf library.id
      let documents :=
        match request.cursor with
        | some cursor =>
            documents.filter fun (document : PublicIndexedDocument) => cursor < document.documentId
        | none => documents
      let page := documents.take request.limit
      let nextCursor :=
        if documents.length > request.limit then page.getLast?.map (·.documentId) else none
      .ok ⟨page, nextCursor⟩

end MockLibrariesClient

/-! ## A scan -/

structure Scan where
  client : MockLibrariesClient
  cursor : Option Text := none
  pages : List (List PublicIndexedDocument) := []
  ended : Bool := false

/-- What the scan has returned. -/
def Scan.returned (s : Scan) : List PublicIndexedDocument := s.pages.flatten

inductive Action where
  | upload (libraryId : Text) (attachments : List (PreparedAttachment × Text)) (now : Int)
  | deleteDocument (libraryId documentId : Text)
  | page

section Steps
variable (fileError : PreparedAttachment → Option (Attachments.Exc LibraryDocumentCreateResponse))
  (libraryId : Text) (limit : Nat) (limit_pos : 1 ≤ limit) (limit_le : limit ≤ 500)

/-- The scan of one library follows `next_cursor` until there is none. -/
def step (s : Scan) : Action → Option Scan
  | .upload libraryId attachments now =>
      some { s with client := (s.client.upload fileError libraryId attachments now).1 }
  | .deleteDocument libraryId documentId =>
      some { s with client := (s.client.deleteDocument libraryId documentId).1 }
  | .page =>
      if s.ended then none
      else
        match s.client.listDocuments ⟨libraryId, limit, s.cursor, limit_pos, limit_le⟩ with
        | .error _ => none
        | .ok page => some { s with
            cursor := page.nextCursor
            pages := s.pages ++ [page.documents]
            ended := page.nextCursor.isNone }

end Steps

/-! ## The pages of one library -/

namespace MockLibrariesClient
variable {s : MockLibrariesClient} {libraryId : Text} {library : LibraryWithRevision}

def holds (s : MockLibrariesClient) (libraryId documentId : Text) : Bool :=
  (s.documents.map Prod.fst).contains (libraryId, documentId)

theorem sortedItems_perm (s : MockLibrariesClient) : s.sortedItems.Perm s.documents :=
  List.perm_insertionSort _ _

theorem sortedItems_sorted (s : MockLibrariesClient) :
    s.sortedItems.Pairwise fun a b => toLex a.1 < toLex b.1 := by
  have hle : s.sortedItems.Pairwise fun a b => toLex a.1 ≤ toLex b.1 :=
    List.pairwise_insertionSort _ _
  have hne : s.sortedItems.Pairwise fun a b => a.1 ≠ b.1 := by
    have hnodup : (s.sortedItems.map Prod.fst).Nodup :=
      ((s.sortedItems_perm.map Prod.fst).nodup_iff).mpr s.distinct
    exact List.pairwise_map.mp hnodup
  refine hle.imp₂ ?_ hne
  intro a b hab hdiffer
  exact lt_of_le_of_ne hab fun heq => hdiffer (toLex_inj.mp heq)

theorem mem_documentsOf {document : PublicIndexedDocument} :
    document ∈ s.documentsOf libraryId ↔
      ((libraryId, document.documentId), document) ∈ s.documents := by
  rw [documentsOf, List.mem_map]
  constructor
  · intro h
    obtain ⟨⟨⟨owner, documentId⟩, value⟩, hmem, rfl⟩ := h
    obtain ⟨hmem, howner⟩ := List.mem_filter.mp hmem
    have hstored := (s.sortedItems_perm.mem_iff).mp hmem
    have hkey : value.documentId = documentId := s.keyed _ hstored
    have howner : owner = libraryId := beq_iff_eq.mp howner
    rw [hkey, ← howner]
    exact hstored
  · intro h
    refine ⟨_, List.mem_filter.mpr ⟨(s.sortedItems_perm.mem_iff).mpr h, ?_⟩, rfl⟩
    exact beq_iff_eq.mpr rfl

theorem documentsOf_sorted (s : MockLibrariesClient) (libraryId : Text) :
    Keyset.Sorted (·.documentId) (s.documentsOf libraryId) := by
  rw [Keyset.Sorted, documentsOf, List.pairwise_map]
  have hsorted := s.sortedItems_sorted.filter fun entry => entry.1.1 == libraryId
  refine hsorted.imp_of_mem ?_
  intro a b ha hb hlt
  obtain ⟨ha, haOwner⟩ := List.mem_filter.mp ha
  obtain ⟨hb, hbOwner⟩ := List.mem_filter.mp hb
  have hakey := s.keyed _ ((s.sortedItems_perm.mem_iff).mp ha)
  have hbkey := s.keyed _ ((s.sortedItems_perm.mem_iff).mp hb)
  rw [hakey, hbkey]
  cases Prod.Lex.toLex_lt_toLex.mp hlt with
  | inl howner =>
      rw [beq_iff_eq.mp haOwner, beq_iff_eq.mp hbOwner] at howner
      exact absurd howner (lt_irrefl _)
  | inr hid => exact hid.2

theorem listDocuments_eq (h : s.libraries.lookup libraryId = some library) (limit : Nat)
    (cursor : Option Text) (limit_pos : 1 ≤ limit) (limit_le : limit ≤ 500) :
    s.listDocuments ⟨libraryId, limit, cursor, limit_pos, limit_le⟩ =
      .ok ⟨Keyset.page (·.documentId) limit cursor (s.documentsOf library.id),
        Keyset.nextCursor (·.documentId) limit cursor (s.documentsOf library.id)⟩ := by
  rw [listDocuments, requireLibrary, h]
  cases cursor with
  | some c =>
      have hafter : (s.documentsOf library.id).filter (fun document => c < document.documentId) =
          Keyset.after (·.documentId) (some c) (s.documentsOf library.id) :=
        List.filter_congr fun document _ => by
          rw [Bool.eq_iff_iff, decide_eq_true_iff, Keyset.beyond_some]
      simp only [Keyset.page, Keyset.nextCursor, hafter, gt_iff_lt]
  | none =>
      have hall : Keyset.after (·.documentId) none (s.documentsOf library.id) =
          s.documentsOf library.id := List.filter_true _
      simp only [Keyset.page, Keyset.nextCursor, hall, gt_iff_lt]

theorem libraries_uploadEach (library : LibraryWithRevision) (now : Int)
    (receipts : Dict Text LibraryDocumentCreateResponse)
    (attachments : List (PreparedAttachment × Text)) :
    (s.uploadEach library now receipts attachments).1.libraries = s.libraries := by
  induction attachments generalizing s receipts with
  | nil => rfl
  | cons entry rest ih =>
      obtain ⟨attachment, documentId⟩ := entry
      rw [uploadEach]
      split
      · rfl
      · next document _ =>
          dsimp only
          split
          · rfl
          · exact ih _

theorem libraries_upload
    (fileError : PreparedAttachment → Option (Attachments.Exc LibraryDocumentCreateResponse))
    (libraryId : Text) (attachments : List (PreparedAttachment × Text)) (now : Int) :
    (s.upload fileError libraryId attachments now).1.libraries = s.libraries := by
  rw [upload]
  split
  · rfl
  · split
    · rfl
    · split
      · rfl
      · exact libraries_uploadEach _ _ _ _

theorem libraries_deleteDocument (libraryId documentId : Text) :
    (s.deleteDocument libraryId documentId).1.libraries = s.libraries := by
  rw [deleteDocument]
  split <;> rfl

end MockLibrariesClient

/-! ## The scan step by step -/

section Scans
variable {fileError : PreparedAttachment → Option (Attachments.Exc LibraryDocumentCreateResponse)}
  {libraryId : Text} {library : LibraryWithRevision} {limit : Nat} {limit_pos : 1 ≤ limit}
  {limit_le : limit ≤ 500} {s t : Scan} {action : Action}

/-- A scan after its next page. -/
def Scan.turned (s : Scan) (library : LibraryWithRevision) (limit : Nat) : Scan :=
  let documents := s.client.documentsOf library.id
  { s with
    cursor := Keyset.nextCursor (·.documentId) limit s.cursor documents
    pages := s.pages ++ [Keyset.page (·.documentId) limit s.cursor documents]
    ended := (Keyset.nextCursor (·.documentId) limit s.cursor documents).isNone }

theorem returned_turned : (s.turned library limit).returned =
    s.returned ++ Keyset.page (·.documentId) limit s.cursor (s.client.documentsOf library.id) := by
  rw [Scan.returned, Scan.turned, List.flatten_append, List.flatten_singleton, Scan.returned]

/-- A step turns a page, or changes the documents and nothing else of the scan. -/
theorem step_cases (hlibrary : s.client.libraries.lookup libraryId = some library)
    (h : step fileError libraryId limit limit_pos limit_le s action = some t) :
    (action = .page ∧ s.ended = false ∧ t = s.turned library limit) ∨
      ∃ client : MockLibrariesClient, client.libraries = s.client.libraries ∧
        t = { s with client := client } := by
  cases action with
  | upload libraryId attachments now =>
      cases h
      exact .inr ⟨_, MockLibrariesClient.libraries_upload _ _ _ _, rfl⟩
  | deleteDocument libraryId documentId =>
      cases h
      exact .inr ⟨_, MockLibrariesClient.libraries_deleteDocument _ _, rfl⟩
  | page =>
      rw [step] at h
      cases hended : s.ended with
      | true =>
          rw [hended] at h
          cases h
      | false =>
          rw [hended, MockLibrariesClient.listDocuments_eq hlibrary] at h
          cases h
          exact .inl ⟨rfl, rfl, rfl⟩

theorem step_page (hlibrary : s.client.libraries.lookup libraryId = some library)
    (hended : s.ended = false) :
    step fileError libraryId limit limit_pos limit_le s .page = some (s.turned library limit) := by
  rw [step, hended, MockLibrariesClient.listDocuments_eq hlibrary]
  rfl

/-- What the scan has returned ends at its cursor. -/
structure Underway (libraryId : Text) (library : LibraryWithRevision) (limit : Nat) (s : Scan) :
    Prop where
  library : s.client.libraries.lookup libraryId = some library
  sorted : Keyset.Sorted (·.documentId) s.returned
  pages : ∀ page ∈ s.pages, page.length ≤ limit
  passed : s.ended = false → ∀ document ∈ s.returned,
    ∃ c, s.cursor = some c ∧ document.documentId ≤ c

theorem Underway.turned (h : Underway libraryId library limit s) (hended : s.ended = false) :
    Underway libraryId library limit (s.turned library limit) := by
  have hdocuments := s.client.documentsOf_sorted library.id
  refine ⟨h.library, ?_, ?_, ?_⟩
  · rw [returned_turned]
    refine List.pairwise_append.mpr ⟨h.sorted, hdocuments.page, ?_⟩
    intro earlier hearlier later hlater
    obtain ⟨c, hcursor, hle⟩ := h.passed hended earlier hearlier
    have hbeyond := (Keyset.mem_page_imp hlater).2
    rw [hcursor, Keyset.beyond_some] at hbeyond
    exact lt_of_le_of_lt hle hbeyond
  · intro page hmem
    cases List.mem_append.mp hmem with
    | inl hold => exact h.pages page hold
    | inr hnew =>
        rw [List.mem_singleton.mp hnew]
        exact Keyset.length_page_le
  · intro hnot document hmem
    obtain ⟨c, hcursor⟩ := Option.ne_none_iff_exists'.mp fun hnone =>
      Bool.noConfusion (hnot.symm.trans (Option.isNone_iff_eq_none.mpr hnone))
    have hspec := Keyset.nextCursor_spec hdocuments hcursor
    refine ⟨c, hcursor, ?_⟩
    rw [returned_turned] at hmem
    cases List.mem_append.mp hmem with
    | inl hold =>
        obtain ⟨c', hcursor', hle⟩ := h.passed hended document hold
        have hbeyond := hspec.2.1
        rw [hcursor', Keyset.beyond_some] at hbeyond
        exact le_trans hle (le_of_lt hbeyond)
    | inr hnew => exact hspec.2.2.2.1 document hnew

theorem Underway.step (h : Underway libraryId library limit s)
    (hstep : step fileError libraryId limit limit_pos limit_le s action = some t) :
    Underway libraryId library limit t := by
  cases step_cases h.library hstep with
  | inl hpage =>
      obtain ⟨-, hended, rfl⟩ := hpage
      exact h.turned hended
  | inr hstored =>
      obtain ⟨client, hlibraries, rfl⟩ := hstored
      exact ⟨by rw [← h.library, hlibraries], h.sorted, h.pages, h.passed⟩

/-- The scan has returned a document once it has passed its id. -/
def Seen (documentId : Text) (s : Scan) : Prop :=
  s.ended = true ∨ Keyset.beyond s.cursor documentId = false →
    documentId ∈ s.returned.map (·.documentId)

theorem seen_turned {documentId : Text} (limit_pos : 1 ≤ limit) (hseen : Seen documentId s)
    (hlive : s.client.holds library.id documentId = true) :
    Seen documentId (s.turned library limit) := by
  intro hpassed
  rw [returned_turned, List.map_append]
  cases hbefore : Keyset.beyond s.cursor documentId with
  | false => exact List.mem_append_left _ (hseen (.inr hbefore))
  | true =>
      refine List.mem_append_right _ ?_
      rw [MockLibrariesClient.holds, List.contains_iff_mem] at hlive
      obtain ⟨⟨key, document⟩, hmem, hkey⟩ := List.mem_map.mp hlive
      cases hkey
      have hid : document.documentId = documentId := s.client.keyed _ hmem
      subst hid
      have hdocument := MockLibrariesClient.mem_documentsOf.mpr hmem
      have hsorted := s.client.documentsOf_sorted library.id
      refine List.mem_map_of_mem ?_
      cases hcursor : Keyset.nextCursor (·.documentId) limit s.cursor
          (s.client.documentsOf library.id) with
      | none =>
          rw [Keyset.page_of_nextCursor_none limit_pos hcursor]
          exact Keyset.mem_after.mpr ⟨hdocument, hbefore⟩
      | some c =>
          refine Keyset.mem_page_of_le hsorted hcursor hdocument hbefore ?_
          cases hpassed with
          | inl hended =>
              rw [Scan.turned, hcursor] at hended
              cases hended
          | inr hbehind =>
              rw [Scan.turned, hcursor] at hbehind
              exact le_of_not_gt fun hlt =>
                Bool.noConfusion (hbehind.symm.trans (Keyset.beyond_some.mpr hlt))

theorem seen_step {documentId : Text} (h : Underway libraryId library limit s)
    (hseen : Seen documentId s) (hlive : s.client.holds library.id documentId = true)
    (hstep : step fileError libraryId limit limit_pos limit_le s action = some t) :
    Seen documentId t := by
  cases step_cases h.library hstep with
  | inl hpage =>
      obtain ⟨-, -, rfl⟩ := hpage
      exact seen_turned limit_pos hseen hlive
  | inr hstored =>
      obtain ⟨client, -, rfl⟩ := hstored
      exact hseen

/-! ## Runs of the scan -/

def started (client : MockLibrariesClient) : Scan := { client := client }

variable {client : MockLibrariesClient} {past : List Action}

theorem underway_started (h : client.libraries.lookup libraryId = some library) :
    Underway libraryId library limit (started client) where
  library := h
  sorted := List.Pairwise.nil
  pages := fun _ hmem => absurd hmem List.not_mem_nil
  passed := fun _ _ hmem => absurd hmem List.not_mem_nil

theorem underway_of_run (h : client.libraries.lookup libraryId = some library)
    (hrun : Run (step fileError libraryId limit limit_pos limit_le) (started client) past t) :
    Underway libraryId library limit t :=
  hrun.invariant (I := fun _ s => Underway libraryId library limit s) (underway_started h)
    fun _ _ _ _ hs hstep => hs.step hstep

theorem seen_started (documentId : Text) : Seen documentId (started client) := by
  intro hpassed
  cases hpassed with
  | inl hended => cases hended
  | inr hbehind => cases hbehind

/-- A document that is there at every step of a run is returned once it is passed. -/
theorem seen_of_run (h : client.libraries.lookup libraryId = some library) {documentId : Text}
    (hrun : Run (restrict (fun s _ => s.client.holds library.id documentId)
      (step fileError libraryId limit limit_pos limit_le)) (started client) past t) :
    Seen documentId t := by
  have hboth : Underway libraryId library limit t ∧ Seen documentId t :=
    hrun.invariant (I := fun _ s => Underway libraryId library limit s ∧ Seen documentId s)
      ⟨underway_started h, seen_started documentId⟩ fun _ _ _ _ hs hstep => by
        obtain ⟨hlive, hstep⟩ := restrict_eq_some.mp hstep
        exact ⟨hs.1.step hstep, seen_step hs.1 hs.2 hlive hstep⟩
  exact hboth.2

/-- Left alone, a scan has no more pages than documents ahead, and the last one. -/
theorem scan_ends (h : Underway libraryId library limit s) :
    ∃ n u, n ≤ (Keyset.after (·.documentId) s.cursor (s.client.documentsOf library.id)).length + 1 ∧
      Run (step fileError libraryId limit limit_pos limit_le) s (List.replicate n .page) u ∧
      u.ended = true := by
  induction hahead : (Keyset.after (·.documentId) s.cursor
    (s.client.documentsOf library.id)).length using Nat.strong_induction_on generalizing s with
  | _ ahead ih =>
      cases hended : s.ended with
      | true => exact ⟨0, s, Nat.zero_le _, .nil, hended⟩
      | false =>
          have hpage : Run (step fileError libraryId limit limit_pos limit_le) s [.page]
              (s.turned library limit) := .single (step_page h.library hended)
          cases hcursor : Keyset.nextCursor (·.documentId) limit s.cursor
              (s.client.documentsOf library.id) with
          | none =>
              refine ⟨1, _, Nat.le_add_left _ _, hpage, ?_⟩
              rw [Scan.turned, hcursor]
              rfl
          | some c =>
              have hlt := Keyset.length_after_lt limit_pos
                (s.client.documentsOf_sorted library.id) hcursor
              rw [hahead] at hlt
              have hnext : (s.turned library limit).cursor = some c := hcursor
              obtain ⟨n, u, hn, hrest, hu⟩ := ih _ hlt (h.turned hended) (by rw [hnext]; rfl)
              refine ⟨n + 1, u, by omega, ?_, hu⟩
              exact hpage.append hrest

/-- Whatever is uploaded and deleted between the pages, the scan returns documents in
strictly increasing order of their ids, in pages within the limit; once it has ended,
each document that was there all along was returned exactly once; and it ends where
the documents stay as they are. -/
theorem scan_complete (h : client.libraries.lookup libraryId = some library)
    (hrun : Run (step fileError libraryId limit limit_pos limit_le) (started client) past t) :
    (t.returned.map (·.documentId)).Pairwise (· < ·) ∧
      (∀ page ∈ t.pages, page.length ≤ limit) ∧
      (t.ended = true → ∀ documentId : Text,
        Run (restrict (fun s _ => s.client.holds library.id documentId)
          (step fileError libraryId limit limit_pos limit_le)) (started client) past t →
        (t.returned.map (·.documentId)).count documentId = 1) ∧
      ∃ n u, n ≤ (t.client.documentsOf library.id).length + 1 ∧
        Run (step fileError libraryId limit limit_pos limit_le) t (List.replicate n .page) u ∧
        u.ended = true := by
  have ht := underway_of_run h hrun
  have hsorted : (t.returned.map (·.documentId)).Pairwise (· < ·) :=
    List.pairwise_map.mpr ht.sorted
  refine ⟨hsorted, ht.pages, ?_, ?_⟩
  · intro hended documentId hlive
    have hnodup : (t.returned.map (·.documentId)).Nodup := hsorted.imp fun hlt => ne_of_lt hlt
    exact List.count_eq_one_of_mem hnodup (seen_of_run h hlive (.inl hended))
  · obtain ⟨n, u, hn, hpages, hu⟩ := scan_ends ht
    exact ⟨n, u, le_trans hn (Nat.succ_le_succ (List.length_filter_le _ _)), hpages, hu⟩

end Scans

/-! ## A document that is deleted between two pages -/

def storedDocument (documentId : Text) : PublicIndexedDocument :=
  ⟨documentId, ['l'], ['f'], [], 1, 0⟩

def smallClient : MockLibrariesClient where
  tenantId := ['t']
  libraries := [(['l'], ⟨['l']⟩)]
  documents := [((['l'], ['b']), storedDocument ['b']), ((['l'], ['a']), storedDocument ['a'])]
  distinct := by decide
  keyed := by decide

theorem single_pos : 1 ≤ 1 := Nat.le_refl 1

theorem single_le : 1 ≤ 500 := by decide

/-- Pages of one document. -/
def smallStep : Scan → Action → Option Scan :=
  step (fun _ => none) ['l'] 1 single_pos single_le

def smallScan : List Action := [.page, .deleteDocument ['l'] ['a'], .page]

theorem smallScan_ends :
    (smallScan.foldlM smallStep (started smallClient)).map Scan.ended = some true := by
  decide +kernel

theorem smallScan_live :
    smallScan.foldlM (restrict (fun s _ => s.client.holds ['l'] ['b']) smallStep)
      (started smallClient) = smallScan.foldlM smallStep (started smallClient) := by
  rfl

theorem scan_complete_small :
    ∃ t, smallScan.foldlM smallStep (started smallClient) = some t ∧
      (t.returned.map (·.documentId)).Pairwise (· < ·) ∧
      (t.returned.map (·.documentId)).count ['b'] = 1 := by
  obtain ⟨t, ht, hended⟩ := Option.map_eq_some_iff.mp smallScan_ends
  have hlive : smallScan.foldlM (restrict (fun s _ => s.client.holds ['l'] ['b']) smallStep)
      (started smallClient) = some t := smallScan_live.trans ht
  have hlibrary : smallClient.libraries.lookup ['l'] = some ⟨['l']⟩ := rfl
  have hcomplete := scan_complete hlibrary (Run.of_foldlM ht)
  exact ⟨t, ht, hcomplete.1, hcomplete.2.2.1 hended ['b'] (Run.of_foldlM hlive)⟩

end DualeAI.MockLibraries
