import DualeAI.Foundation.UriReference

/-!
The request paths of the Library operations.

A tenant id is whatever the configuration gives; the ids of Libraries and documents are
UUIDs, which a path holds in their canonical form. Each segment is quoted.
-/
namespace DualeAI.Library
open Foundation

/-- The canonical form of a UUID: hexadecimal digits in groups of 8, 4, 4, 4 and 12. -/
def isUuid (t : Text) : Bool :=
  t.length == 36 && t.zipIdx.all fun (c, n) =>
    if n ∈ [8, 13, 18, 23] then c == '-' else hexDigits.contains c

abbrev Uuid := { t : Text // isUuid t = true }

inductive LibraryMethod where
  | get
  | post
  | patch
  | delete
deriving DecidableEq, Repr

inductive LibraryOperation where
  | createLibrary
  | listLibraries
  | getLibrary (libraryId : Uuid)
  | updateLibrary (libraryId : Uuid)
  | deleteLibrary (libraryId : Uuid)
  | listLibraryDocuments (libraryId : Uuid)
  | getLibraryDocument (libraryId documentId : Uuid)
  | deleteLibraryDocument (libraryId documentId : Uuid)
  | createDocumentUpload
  | createLibraryDocument (libraryId : Uuid)

def stripChar (c : Char) (t : Text) : Text := rstripChar c (t.dropWhile (· == c))

def joinSegments (segments : List Text) : Text := ['/'].intercalate segments

def libraryGatewayPath (tenantId : Text) (segments : List Text) : Text :=
  "/libraries".toList ++ '/' :: joinSegments
    (["v1".toList, "tenants".toList, quote tenantId] ++
      segments.map fun segment => quote (stripChar '/' segment))

/-- The names of a path that are the same for every tenant. -/
def fixedNames : List Text := [[], "libraries".toList, "v1".toList, "tenants".toList]

/-- The names of a path, each before it is quoted. -/
def pathNames (tenantId : Text) (segments : List Text) : List Text :=
  fixedNames ++ tenantId :: segments

namespace LibraryOperation

def method : LibraryOperation → LibraryMethod
  | createLibrary | createDocumentUpload | createLibraryDocument _ => .post
  | listLibraries | getLibrary _ | listLibraryDocuments _ | getLibraryDocument _ _ => .get
  | updateLibrary _ => .patch
  | deleteLibrary _ | deleteLibraryDocument _ _ => .delete

/-- What the path names below the tenant. -/
def segments : LibraryOperation → List Text
  | createLibrary | listLibraries => []
  | getLibrary libraryId | updateLibrary libraryId | deleteLibrary libraryId => [libraryId.val]
  | listLibraryDocuments libraryId | createLibraryDocument libraryId =>
      [libraryId.val, "documents".toList]
  | getLibraryDocument libraryId documentId | deleteLibraryDocument libraryId documentId =>
      [libraryId.val, "documents".toList, documentId.val]
  | createDocumentUpload => ["document-uploads".toList]

/-- Method and path of its request. -/
def target (tenantId : Text) (operation : LibraryOperation) : LibraryMethod × Text :=
  (operation.method, libraryGatewayPath tenantId operation.segments)

/-- Its path reads as the names that it stands for. -/
def Addresses (tenantId : Text) (operation : LibraryOperation) : Prop :=
  readReference (operation.target tenantId).2 =
    ⟨(pathNames tenantId operation.segments).map fun s => .name (encodeUtf8 s), none, none⟩

end LibraryOperation

/-! ## Joining and splitting -/

theorem segments_joinSegments {names : List Text} (h : ∀ name ∈ names, '/' ∉ name)
    (hne : names ≠ []) : segments (joinSegments names) = names.map readSegment := by
  rw [segments, joinSegments, List.splitOn_intercalate '/' h hne]

theorem joinSegments_inj {names names' : List Text} (h : ∀ name ∈ names, '/' ∉ name)
    (h' : ∀ name ∈ names', '/' ∉ name) (hne : names ≠ []) (hne' : names' ≠ [])
    (heq : joinSegments names = joinSegments names') : names = names' := by
  rw [← List.splitOn_intercalate '/' h hne, ← List.splitOn_intercalate '/' h' hne']
  exact congrArg (List.splitOn '/') heq

theorem notMem_joinSegments {c : Char} (hc : c ≠ '/') {names : List Text}
    (h : ∀ name ∈ names, c ∉ name) : c ∉ joinSegments names := by
  induction names with
  | nil => exact List.not_mem_nil
  | cons name names ih =>
      have hrest := ih fun other hother => h other (List.mem_cons_of_mem _ hother)
      have hname := h name List.mem_cons_self
      cases names with
      | nil => rwa [joinSegments, List.intercalate_singleton]
      | cons next names =>
          rw [joinSegments, List.intercalate_cons_cons]
          simp only [List.mem_append, List.mem_singleton, not_or]
          exact ⟨⟨hname, hc⟩, hrest⟩

theorem stripChar_of_notMem {c : Char} {t : Text} (h : c ∉ t) : stripChar c t = t := by
  have hkept : t.dropWhile (· == c) = t := by
    cases t with
    | nil => rfl
    | cons d t =>
        have hd : (d == c) = false := by
          simpa using fun heq : d = c => h (heq ▸ List.mem_cons_self)
        simp [hd]
  rw [stripChar, hkept, rstripChar_of_not_mem h]

/-! ## Names -/

theorem quote_fixedNames : fixedNames.map quote = fixedNames := by decide +kernel

theorem joinSegments_fixedNames (names : List Text) :
    "/libraries".toList ++ '/' :: joinSegments ("v1".toList :: "tenants".toList :: names) =
      joinSegments (fixedNames ++ names) := by
  cases names with
  | nil => decide +kernel
  | cons name names => rfl

/-- Where no segment has a slash, none is stripped. -/
theorem libraryGatewayPath_eq (tenantId : Text) {segments : List Text}
    (h : ∀ segment ∈ segments, '/' ∉ segment) :
    libraryGatewayPath tenantId segments =
      joinSegments ((pathNames tenantId segments).map quote) := by
  have hstrip : segments.map (fun segment => quote (stripChar '/' segment)) =
      segments.map quote :=
    List.map_congr_left fun segment hmem => by rw [stripChar_of_notMem (h segment hmem)]
  have hnames : (pathNames tenantId segments).map quote =
      fixedNames ++ quote tenantId :: segments.map quote := by
    rw [pathNames, List.map_append, quote_fixedNames, List.map_cons]
  rw [hnames, ← joinSegments_fixedNames]
  exact congrArg (fun names => "/libraries".toList ++ '/' :: joinSegments
    ("v1".toList :: "tenants".toList :: quote tenantId :: names)) hstrip

/-- A UUID is no name that a path reads as something else. -/
theorem uuid_plain (id : Uuid) : '/' ∉ id.val ∧ id.val ≠ ['.'] ∧ id.val ≠ ['.', '.'] := by
  obtain ⟨t, ht⟩ := id
  rw [isUuid, Bool.and_eq_true, beq_iff_eq, List.all_eq_true] at ht
  obtain ⟨hlength, hall⟩ := ht
  refine ⟨fun hmem => ?_, fun heq => ?_, fun heq => ?_⟩
  · obtain ⟨n, hn, hget⟩ := List.mem_iff_getElem.mp hmem
    have hslash : (if n ∈ [8, 13, 18, 23] then '/' == '-' else hexDigits.contains '/') = true :=
      hall ('/', n) (List.mem_zipIdx_iff_getElem?.mpr (hget ▸ List.getElem?_eq_getElem hn))
    have hneither : ('/' == '-') = false ∧ hexDigits.contains '/' = false := by decide
    rw [hneither.1, hneither.2, ite_self] at hslash
    cases hslash
  · change t = ['.'] at heq
    rw [heq] at hlength
    cases hlength
  · change t = ['.', '.'] at heq
    rw [heq] at hlength
    cases hlength

theorem segments_plain (operation : LibraryOperation) {segment : Text}
    (h : segment ∈ operation.segments) :
    '/' ∉ segment ∧ segment ≠ ['.'] ∧ segment ≠ ['.', '.'] := by
  have hdocuments : '/' ∉ "documents".toList ∧ "documents".toList ≠ ['.'] ∧
      "documents".toList ≠ ['.', '.'] := by decide
  cases operation with
  | createLibrary | listLibraries => cases h
  | getLibrary id | updateLibrary id | deleteLibrary id =>
      exact List.mem_singleton.mp h ▸ uuid_plain id
  | listLibraryDocuments id | createLibraryDocument id =>
      cases List.mem_cons.mp h with
      | inl hid => exact hid ▸ uuid_plain id
      | inr hrest => exact List.mem_singleton.mp hrest ▸ hdocuments
  | getLibraryDocument id documentId | deleteLibraryDocument id documentId =>
      rcases List.mem_cons.mp h with hid | hrest
      · exact hid ▸ uuid_plain id
      · rcases List.mem_cons.mp hrest with hname | hlast
        · exact hname ▸ hdocuments
        · exact List.mem_singleton.mp hlast ▸ uuid_plain documentId
  | createDocumentUpload =>
      rw [List.mem_singleton.mp h]
      decide

/-! ## Reading a path -/

theorem target_path (tenantId : Text) (operation : LibraryOperation) :
    (operation.target tenantId).2 =
      joinSegments ((pathNames tenantId operation.segments).map quote) :=
  libraryGatewayPath_eq tenantId fun _ hmem => (segments_plain operation hmem).1

theorem notMem_quoted {c : Char} (hc : c ∈ ['/', '?', '#']) {names : List Text} :
    ∀ name ∈ names.map quote, c ∉ name := by
  intro name hmem
  obtain ⟨plain, -, rfl⟩ := List.mem_map.mp hmem
  exact notMem_quote hc plain

theorem pathNames_ne_nil (tenantId : Text) (segments : List Text) :
    (pathNames tenantId segments).map quote ≠ [] := by simp [pathNames]

theorem addresses_iff (tenantId : Text) (operation : LibraryOperation) :
    operation.Addresses tenantId ↔ tenantId ≠ ['.'] ∧ tenantId ≠ ['.', '.'] := by
  rw [LibraryOperation.Addresses, target_path, readReference_eq_iff,
    segments_joinSegments (notMem_quoted (by decide)) (pathNames_ne_nil _ _), List.map_map,
    List.map_inj_left]
  constructor
  · intro h
    exact readSegment_quote_iff.mp (h.1 tenantId (by simp [pathNames]))
  · intro h
    refine ⟨fun name hmem => readSegment_quote_iff.mpr ?_,
      notMem_joinSegments (by decide) (notMem_quoted (by decide)),
      notMem_joinSegments (by decide) (notMem_quoted (by decide))⟩
    rw [pathNames, List.mem_append, List.mem_cons] at hmem
    rcases hmem with hfixed | rfl | hsegment
    · have hplain : ∀ name ∈ fixedNames, name ≠ ['.'] ∧ name ≠ ['.', '.'] := by decide
      exact hplain name hfixed
    · exact h
    · exact (segments_plain operation hsegment).2

theorem pathNames_inj {tenantId tenantId' : Text} {segments segments' : List Text}
    (h : pathNames tenantId segments = pathNames tenantId' segments') :
    tenantId = tenantId' ∧ segments = segments' :=
  List.cons.inj (List.append_cancel_left h)

theorem target_inj {tenantId tenantId' : Text} {operation operation' : LibraryOperation}
    (h : operation.target tenantId = operation'.target tenantId') :
    tenantId = tenantId' ∧ operation = operation' := by
  have hmethod : operation.method = operation'.method := congrArg Prod.fst h
  have hpath := congrArg Prod.snd h
  rw [target_path, target_path] at hpath
  have hquoted := joinSegments_inj (notMem_quoted (by decide)) (notMem_quoted (by decide))
    (pathNames_ne_nil _ _) (pathNames_ne_nil _ _) hpath
  obtain ⟨htenant, hsegments⟩ := pathNames_inj (quote_injective.list_map hquoted)
  refine ⟨htenant, ?_⟩
  cases operation <;> cases operation' <;>
    simp_all [LibraryOperation.method, LibraryOperation.segments, Subtype.ext_iff]

/-- Requests for different tenants or operations differ, and a path reads as what it was
made of, unless the tenant's id is a segment that names nothing. -/
theorem library_addressing :
    (∀ (tenantId : Text) (operation : LibraryOperation),
      operation.Addresses tenantId ↔ tenantId ≠ ['.'] ∧ tenantId ≠ ['.', '.']) ∧
    ∀ (tenantId tenantId' : Text) (operation operation' : LibraryOperation),
      operation.target tenantId = operation'.target tenantId' ↔
        tenantId = tenantId' ∧ operation = operation' := by
  refine ⟨addresses_iff, fun tenantId tenantId' operation operation' => ⟨target_inj, ?_⟩⟩
  rintro ⟨rfl, rfl⟩
  rfl

/-- A tenant id with the delimiters of a path stays one segment. -/
example : (LibraryOperation.listLibraries.target "a/../b?c#é".toList).2 =
    "/libraries/v1/tenants/a%2F..%2Fb%3Fc%23%C3%A9".toList := by decide +kernel

end DualeAI.Library
