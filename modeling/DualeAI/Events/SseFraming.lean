import DualeAI.Events.SseBlocks

/-!
The Bridge's framing of events, and that the parser undoes it.

An event is framed as a crc comment, an id line, an event line, one data line
for each line of its text, and a blank line. Lines the parser does not read may
stand anywhere between these, and blocks without a payload may stand between the
events. Every line ends in LF or CRLF.
-/
namespace DualeAI.Sse
open Foundation

/-! ## Lines on the wire -/

structure WireLine where
  text : Text
  crlf : Bool

namespace WireLine

def bytes (l : WireLine) : Bytes := encodeUtf8 l.text ++ (if l.crlf then [cr] else [])

/-- The line as the parser sees it. -/
def seen (l : WireLine) : Text := rstripChar '\r' l.text

structure Sendable (l : WireLine) : Prop where
  oneLine : '\n' ∉ l.text
  short : l.bytes.length ≤ maxSseEventBytes

instance (l : WireLine) : Decidable l.Sendable :=
  decidable_of_iff ('\n' ∉ l.text ∧ l.bytes.length ≤ maxSseEventBytes)
    ⟨fun h => ⟨h.1, h.2⟩, fun h => ⟨h.oneLine, h.short⟩⟩

def blank (crlf : Bool) : WireLine := ⟨[], crlf⟩

theorem decodeLine_bytes (l : WireLine) : decodeLine l.bytes = some l.seen := by
  have hcr : encodeUtf8 ['\r'] = [cr] := by decide
  obtain ⟨text, crlf⟩ := l
  cases crlf with
  | false => simp [bytes, seen, decodeLine]
  | true =>
      simp only [bytes, seen, decodeLine, ite_true]
      rw [← hcr, ← encodeUtf8_append, decodeUtf8_encodeUtf8, Option.map_some,
        rstripChar_append_self]

theorem lf_not_mem_bytes {l : WireLine} (h : '\n' ∉ l.text) : lf ∉ l.bytes := by
  have henc : lf ∉ encodeUtf8 l.text := fun hm =>
    h ((ascii_mem_encodeUtf8 (a := '\n') (by decide) l.text).mp hm)
  rw [bytes, List.mem_append, not_or]
  refine ⟨henc, ?_⟩
  split <;> decide

end WireLine

variable (D : Decoders)

theorem runLines_bytes {ls : List WireLine} (h : ∀ l ∈ ls, l.Sendable) (s : ParserState) :
    runLines D s (ls.map WireLine.bytes) = (ls.map WireLine.seen).foldlM (processLine D) s := by
  induction ls generalizing s with
  | nil => rfl
  | cons l ls ih =>
      have hl := h l List.mem_cons_self
      have hrest : ∀ k ∈ ls, k.Sendable := fun k hk => h k (List.mem_cons_of_mem l hk)
      have hone : LineBuffer.boundedLine maxSseEventBytes (.sse .lineTooLong) (processByteLine D) s
          l.bytes = processLine D s l.seen := by
        rw [LineBuffer.boundedLine, if_neg (Nat.not_lt.mpr hl.short), processByteLine,
          WireLine.decodeLine_bytes]
      rw [List.map_cons, List.map_cons, runLines, List.foldlM_cons, List.foldlM_cons, hone]
      exact bind_congr (ih hrest)

/-! ## Framing -/

/-- An event as the Bridge has it: id, type, JSON text, and the payload it decodes to. -/
structure WireEvent where
  id : Text
  type : Text
  text : Text
  data : BridgeEventData

def WireEvent.event (e : WireEvent) : BridgeSSEEvent := ⟨e.id, e.data⟩

structure WireEvent.Valid (e : WireEvent) : Prop where
  cursor : isCursor e.id = true
  wireType : e.type ∈ wireEventTypes
  nonblank : strip e.text ≠ []
  noTrailingCr : ∀ l ∈ e.text.splitOn '\n', l.getLast? ≠ some '\r'
  size : (encodeUtf8 e.text).length ≤ maxSseEventBytes
  decodes : ∃ data, D.loads e.text = .ok data ∧ data.carriesType e.type = true ∧
    D.validateData data = .ok e.data

def crcComment (checksum : Text) : Text := ':' :: ' ' :: (crcTag ++ checksum)

def fieldLine (name value : Text) : Text := name ++ ':' :: ' ' :: value

def WireEvent.frame (e : WireEvent) : List Text :=
  crcComment (computeChecksum D e.type e.text) :: fieldLine idField e.id ::
    fieldLine eventField e.type :: (e.text.splitOn '\n').map (fieldLine dataField)

/-- A line the parser skips: a comment that is no crc comment, or a field it does
not know, `retry` among them. -/
inductive IsNoise : Text → Prop where
  | comment (rest : Text) (h : (lstrip rest).take 4 ≠ crcTag) : IsNoise (':' :: rest)
  | field (name value : Text) (hname : name ≠ []) (hcolon : ':' ∉ name)
      (h : name ∉ [idField, eventField, dataField]) : IsNoise (name ++ ':' :: value)
  | bareField (name : Text) (hname : name ≠ []) (hcolon : ':' ∉ name)
      (h : name ∉ [idField, eventField, dataField]) : IsNoise name

/-- The lines `core` in order, with skipped lines anywhere between them. -/
inductive WithNoise : List Text → List Text → Prop where
  | nil : WithNoise [] []
  | core (line : Text) {core lines : List Text} (h : WithNoise core lines) :
      WithNoise (line :: core) (line :: lines)
  | noise {line : Text} {core lines : List Text} (hline : IsNoise (rstripChar '\r' line))
      (h : WithNoise core lines) : WithNoise core (line :: lines)

/-- A block that dispatches nothing and whose crc comments are well formed. -/
structure Payloadless (blk : List Text) : Prop where
  nonblank : [] ∉ blk
  checksums : ∀ c ∈ blk.filterMap checksumOf, WellFormedChecksum c
  blankData : strip (blockData blk) = []

instance (blk : List Text) : Decidable (Payloadless blk) :=
  decidable_of_iff ([] ∉ blk ∧ (∀ c ∈ blk.filterMap checksumOf, WellFormedChecksum c) ∧
      strip (blockData blk) = [])
    ⟨fun h => ⟨h.1, h.2.1, h.2.2⟩, fun h => ⟨h.nonblank, h.checksums, h.blankData⟩⟩

/-- A block on the wire: a framed event among skipped lines, or no payload. -/
inductive Item where
  | event (e : WireEvent) (lines : List WireLine) (crlf : Bool)
  | payloadless (lines : List WireLine) (crlf : Bool)

namespace Item

def lines : Item → List WireLine
  | event _ lines _ | payloadless lines _ => lines

def crlf : Item → Bool
  | event _ _ crlf | payloadless _ crlf => crlf

def wireLines (i : Item) : List WireLine := i.lines ++ [.blank i.crlf]

def event? : Item → Option BridgeSSEEvent
  | event e _ _ => some e.event
  | payloadless _ _ => none

def block (i : Item) : List Text := i.lines.map WireLine.seen

structure Framed (i : Item) : Prop where
  sendable : ∀ l ∈ i.lines, l.Sendable
  shape : match i with
    | event e lines _ => e.Valid D ∧ WithNoise (e.frame D) (lines.map (·.text))
    | payloadless _ _ => Payloadless i.block

end Item

def sendLines (ls : List WireLine) : Bytes := ls.flatMap fun l => l.bytes ++ [lf]

/-- The byte stream of the items, with skipped lines after the last of them. -/
def wire (items : List Item) (trailer : List WireLine) : Bytes :=
  sendLines (items.flatMap Item.wireLines ++ trailer)

/-! ## What the framed lines read as -/

theorem splitField_append {name : Text} (h : ':' ∉ name) (value : Text) :
    splitField (name ++ ':' :: value) = (name, dropOneSpace value) := by
  simp [splitField, partition_append h]

theorem head?_of_name {name : Text} (hname : name ≠ []) (hcolon : ':' ∉ name) (rest : Text) :
    (name ++ rest).head? ≠ some ':' := by
  cases name with
  | nil => exact absurd rfl hname
  | cons c name =>
      rintro h
      cases h
      exact hcolon List.mem_cons_self

theorem frame_names :
    ∀ name ∈ [idField, eventField, dataField], name ≠ [] ∧ ':' ∉ name := by
  decide

theorem valueOf_fieldLine {name : Text} (h : name ∈ [idField, eventField, dataField])
    (field value : Text) :
    valueOf field (fieldLine name value) = if name = field then some value else none := by
  obtain ⟨hname, hcolon⟩ := frame_names name h
  rw [fieldLine, valueOf, if_neg (head?_of_name hname hcolon _), splitField_append hcolon]
  rfl

theorem idOf_fieldLine {name : Text} (h : name ∈ [idField, eventField, dataField])
    (value : Text) : idOf (fieldLine name value) =
      if name = idField ∧ Char.ofNat 0 ∉ value then some value else none := by
  rw [idOf, valueOf_fieldLine h]
  by_cases hid : name = idField
  · by_cases hnull : Char.ofNat 0 ∈ value <;> simp [hid, hnull]
  · simp [hid]

theorem checksumOf_fieldLine {name : Text} (h : name ∈ [idField, eventField, dataField])
    (value : Text) : checksumOf (fieldLine name value) = none := by
  obtain ⟨hname, hcolon⟩ := frame_names name h
  exact checksumOf_field (head?_of_name hname hcolon _)

theorem idOf_comment {line : Text} (h : line.head? = some ':') : idOf line = none := by
  rw [idOf, valueOf_comment h]
  rfl

theorem checksumOf_crcComment (checksum : Text) :
    checksumOf (crcComment checksum) = some checksum := by
  have hstrip : lstrip (' ' :: (crcTag ++ checksum)) = crcTag ++ checksum := by
    simp [lstrip, crcTag, isSpace]
  have htag : crcTag.length = 4 := rfl
  simp only [checksumOf, crcComment, List.head?_cons, List.tail_cons, hstrip, true_and]
  rw [List.take_left' htag, List.drop_left' htag, if_pos rfl]

/-- The readings of a block through which it can affect the parser. -/
structure Unread (line : Text) : Prop where
  nonblank : line ≠ []
  checksum : checksumOf line = none
  value : ∀ field ∈ [idField, eventField, dataField], valueOf field line = none

theorem IsNoise.unread {line : Text} (h : IsNoise line) : Unread line := by
  cases h with
  | comment rest h =>
      exact ⟨List.cons_ne_nil _ _, by simp [checksumOf, h], fun field _ => by simp [valueOf]⟩
  | field name value hname hcolon h =>
      have hhead := head?_of_name hname hcolon (':' :: value)
      refine ⟨by simp, checksumOf_field hhead, ?_⟩
      intro field hf
      have hne : name ≠ field := fun he => h (he ▸ hf)
      rw [valueOf, if_neg hhead, splitField_append hcolon]
      exact if_neg hne
  | bareField name hname hcolon h =>
      have hhead : line.head? ≠ some ':' := by simpa using head?_of_name hname hcolon []
      refine ⟨hname, checksumOf_field hhead, ?_⟩
      intro field hf
      have hne : line ≠ field := fun he => h (he ▸ hf)
      rw [valueOf, if_neg hhead, splitField, if_neg hcolon]
      exact if_neg hne

/-- A reading that skips noise sees only the framed lines. -/
theorem WithNoise.filterMap_seen {α : Type} {f : Text → Option α}
    (hf : ∀ line, Unread line → f line = none) {core lines : List Text}
    (h : WithNoise core lines) (hcore : ∀ line ∈ core, rstripChar '\r' line = line) :
    (lines.map (rstripChar '\r')).filterMap f = core.filterMap f := by
  induction h with
  | nil => rfl
  | core line h ih =>
      have hrest := ih fun k hk => hcore k (List.mem_cons_of_mem line hk)
      rw [List.map_cons, hcore line List.mem_cons_self, List.filterMap_cons, List.filterMap_cons,
        hrest]
  | noise hline h ih =>
      rw [List.map_cons, List.filterMap_cons, hf _ hline.unread, ih hcore]

theorem WithNoise.mem_seen {core lines : List Text} (h : WithNoise core lines)
    (hcore : ∀ line ∈ core, rstripChar '\r' line = line) :
    ∀ line ∈ lines.map (rstripChar '\r'), line ∈ core ∨ Unread line := by
  induction h with
  | nil => simp
  | core line h ih =>
      have hrest := ih fun k hk => hcore k (List.mem_cons_of_mem line hk)
      intro k hk
      rw [List.map_cons, hcore line List.mem_cons_self] at hk
      rcases List.mem_cons.mp hk with rfl | hk
      · exact .inl List.mem_cons_self
      · exact (hrest k hk).imp_left (List.mem_cons_of_mem line)
  | noise hline h ih =>
      intro k hk
      rcases List.mem_cons.mp hk with rfl | hk
      · exact .inr hline.unread
      · exact ih hcore k hk

theorem WithNoise.blockState_seen {core lines : List Text} (h : WithNoise core lines)
    (hcore : ∀ line ∈ core, rstripChar '\r' line = line) :
    blockState (lines.map (rstripChar '\r')) = blockState core := by
  have hvalue (field : Text) (hfield : field ∈ [idField, eventField, dataField]) :=
    h.filterMap_seen (f := valueOf field) (fun line hl => hl.value field hfield) hcore
  have hid := h.filterMap_seen (f := idOf)
    (fun line hl => by rw [idOf, hl.value idField (by simp)]; rfl) hcore
  simp only [blockState, blockId, blockEventType, blockDataLines, blockDataBytes, blockData,
    blockChecksum, hid, hvalue eventField (by simp),
    hvalue dataField (by simp),
    h.filterMap_seen (f := checksumOf) (fun line hl => hl.checksum) hcore]

/-! ## What the parser makes of an event's block -/

theorem fieldLine_rstrip {value : Text} (h : value.getLast? ≠ some '\r') (name : Text) :
    rstripChar '\r' (fieldLine name value) = fieldLine name value := by
  apply rstripChar_of_not_getLast
  rw [fieldLine, ← List.singleton_append, ← List.singleton_append (l := value), ← List.append_assoc,
    ← List.append_assoc, List.getLast?_append]
  cases hlast : value.getLast? with
  | none => simp
  | some c => simpa [hlast] using h

section Frame
variable {D} {e : WireEvent} (h : e.Valid D)
include h

theorem WireEvent.Valid.id_not_mem {c : Char} (hc : c ≠ ':') (hdigit : ¬('0' ≤ c ∧ c ≤ '9')) :
    c ∉ e.id := by
  intro hm
  cases isCursor_chars h.cursor c hm with
  | inl heq => exact hc heq
  | inr hd => exact hdigit hd

theorem WireEvent.Valid.frame_rstrip :
    ∀ line ∈ e.frame D, rstripChar '\r' line = line := by
  have htypes : ∀ t ∈ wireEventTypes, '\r' ∉ t := by decide
  have hlast {t : Text} (ht : '\r' ∉ t) : t.getLast? ≠ some '\r' := fun hl =>
    ht (List.mem_of_getLast? hl)
  intro line hline
  simp only [WireEvent.frame, List.mem_cons, List.mem_map] at hline
  rcases hline with rfl | rfl | rfl | ⟨value, hvalue, rfl⟩
  · apply rstripChar_of_not_mem
    have hhex : '\r' ∉ computeChecksum D e.type e.text := fun hm =>
      absurd (hex08_subset _ _ hm) (by decide)
    simp [crcComment, crcTag, hhex]
  · exact fieldLine_rstrip (hlast (h.id_not_mem (by decide) (by decide))) idField
  · exact fieldLine_rstrip (hlast (htypes e.type h.wireType)) eventField
  · exact fieldLine_rstrip (h.noTrailingCr value hvalue) dataField

/-- A frame reads back as the event it was made of. -/
theorem WireEvent.Valid.blockState_frame :
    blockState (e.frame D) =
      { eventId := e.id, eventType := e.type, dataLines := e.text.splitOn '\n'
        dataBytes := (encodeUtf8 e.text).length
        pendingChecksum := some (computeChecksum D e.type e.text) } := by
  have hnull : Char.ofNat 0 ∉ e.id := h.id_not_mem (by decide) (by decide)
  have hie : idField ≠ eventField := by decide
  have hid : idField ≠ dataField := by decide
  have hed : eventField ≠ dataField := by decide
  have hcomment (field : Text) : valueOf field
      (crcComment (computeChecksum D e.type e.text)) = none := valueOf_comment rfl field
  have hids : (e.frame D).filterMap idOf = [e.id] := by
    have hsum : idOf (crcComment (computeChecksum D e.type e.text)) = none := idOf_comment rfl
    simp [WireEvent.frame, hsum, idOf_fieldLine, hnull, hie.symm, hid.symm]
  have htypes : (e.frame D).filterMap (valueOf eventField) = [e.type] := by
    simp [WireEvent.frame, hcomment, valueOf_fieldLine, hie, hed.symm]
  have hdata : (e.frame D).filterMap (valueOf dataField) = e.text.splitOn '\n' := by
    simp [WireEvent.frame, hcomment, valueOf_fieldLine, hid, hed]
  have hsums : (e.frame D).filterMap checksumOf = [computeChecksum D e.type e.text] := by
    simp [WireEvent.frame, checksumOf_crcComment, checksumOf_fieldLine]
  have hjoin : joinLines (e.text.splitOn '\n') = e.text := List.intercalate_splitOn _
  simp [blockState, blockId, blockEventType, blockDataLines, blockDataBytes, blockData,
    blockChecksum, hids, hdata, htypes, hjoin, hsums]

theorem WireEvent.Valid.acceptable {lines : List Text} (hlines : WithNoise (e.frame D) lines) :
    Acceptable (lines.map (rstripChar '\r')) := by
  have hmem := hlines.mem_seen h.frame_rstrip
  have hstate := (hlines.blockState_seen h.frame_rstrip).trans h.blockState_frame
  refine ⟨?_, ?_, ?_⟩
  · intro hblank
    cases hmem [] hblank with
    | inl hframe => simp [WireEvent.frame, crcComment, fieldLine] at hframe
    | inr hnoise => exact hnoise.nonblank rfl
  · intro c hc
    rw [hlines.filterMap_seen (fun line hl => hl.checksum) h.frame_rstrip] at hc
    have hsum : c = computeChecksum D e.type e.text := by
      simpa [WireEvent.frame, checksumOf_crcComment, checksumOf_fieldLine] using hc
    subst hsum
    exact ⟨hex08_length (Nat.lt_of_le_of_lt Nat.and_le_right (by decide)), hex08_subset _⟩
  · have hbytes := congrArg ParserState.dataBytes hstate
    exact Nat.le_trans (Nat.le_of_eq hbytes) h.size

theorem WireEvent.Valid.dispatchBlock_frame :
    dispatchBlock D (blockState (e.frame D)) = Gen.emit e.event := by
  obtain ⟨data, hloads, htype, hdata⟩ := h.decodes
  have hjoin : joinLines (e.text.splitOn '\n') = e.text := List.intercalate_splitOn _
  rw [h.blockState_frame]
  simp [dispatchBlock, hjoin, h.nonblank, hloads, htype, bridgeSseEvent, h.cursor, hdata,
    WireEvent.event]

end Frame

/-! ## The parser undoes the framing -/

theorem foldlM_block {blk : List Text} (h : Acceptable blk) :
    (blk ++ [[]]).foldlM (processLine D) {} =
      dispatchBlock D (blockState blk) >>= fun _ => pure {} := by
  rw [List.foldlM_append, foldlM_acceptable D h, pure_bind, List.foldlM_cons, processLine_blank]
  simp

theorem Payloadless.acceptable {blk : List Text} (h : Payloadless blk)
    (hsize : blockDataBytes blk ≤ maxSseEventBytes) : Acceptable blk :=
  ⟨h.nonblank, h.checksums, hsize⟩

theorem Payloadless.dispatchBlock {blk : List Text} (h : Payloadless blk) :
    dispatchBlock D (blockState blk) = pure () :=
  if_pos h.blankData

/-- Step: a framed block is parsed to its event, from the initial state back to it. -/
theorem Item.Framed.foldlM_wireLines {i : Item} (h : i.Framed D)
    (hsize : i.event? = none → blockDataBytes i.block ≤ maxSseEventBytes) :
    (i.wireLines.map WireLine.seen).foldlM (processLine D) {} =
      ⟨i.event?.toList, .ok {}⟩ := by
  have hseen : i.wireLines.map WireLine.seen = i.block ++ [[]] := by
    simp [Item.wireLines, Item.block, WireLine.blank, WireLine.seen, rstripChar]
  rw [hseen]
  cases i with
  | event e lines crlf =>
      obtain ⟨hvalid, hnoise⟩ := h.shape
      have hblock : (Item.event e lines crlf).block =
          (lines.map (·.text)).map (rstripChar '\r') := by
        rw [List.map_map]; rfl
      rw [hblock, foldlM_block D (hvalid.acceptable hnoise),
        hnoise.blockState_seen hvalid.frame_rstrip, hvalid.dispatchBlock_frame]
      rfl
  | payloadless lines crlf =>
      rw [foldlM_block D (h.shape.acceptable (hsize rfl)), h.shape.dispatchBlock]
      rfl

/-- Run: framed blocks are parsed to their events, in order. -/
theorem foldlM_items {items : List Item} (h : ∀ i ∈ items, i.Framed D)
    (hsize : ∀ i ∈ items, i.event? = none → blockDataBytes i.block ≤ maxSseEventBytes) :
    ((items.flatMap Item.wireLines).map WireLine.seen).foldlM (processLine D) {} =
      ⟨items.filterMap Item.event?, .ok {}⟩ := by
  induction items with
  | nil => rfl
  | cons i items ih =>
      have hi := (h i List.mem_cons_self).foldlM_wireLines D (hsize i List.mem_cons_self)
      have hrest := ih (fun j hj => h j (List.mem_cons_of_mem i hj))
        (fun j hj => hsize j (List.mem_cons_of_mem i hj))
      rw [List.flatMap_cons, List.map_append, List.foldlM_append, hi, Gen.mk_ok_bind, hrest,
        List.filterMap_cons]
      cases i.event? <;> rfl

theorem acceptable_of_noise {blk : List Text} (h : ∀ line ∈ blk, IsNoise line) :
    Acceptable blk := by
  have hunread : ∀ line ∈ blk, Unread line := fun line hl => (h line hl).unread
  have hdata : blockDataLines blk = [] :=
    List.filterMap_eq_nil_iff.mpr fun line hl => (hunread line hl).value dataField (by simp)
  have hsums : blk.filterMap checksumOf = [] :=
    List.filterMap_eq_nil_iff.mpr fun line hl => (hunread line hl).checksum
  refine ⟨fun hblank => (hunread [] hblank).nonblank rfl, by simp [hsums], ?_⟩
  · simp [blockDataBytes, blockData, hdata, joinLines, List.intercalate]

theorem blank_sendable (crlf : Bool) : (WireLine.blank crlf).Sendable :=
  ⟨List.not_mem_nil, by cases crlf <;> decide⟩

theorem sendable_wireLines {items : List Item} (h : ∀ i ∈ items, ∀ l ∈ i.lines, l.Sendable) :
    ∀ l ∈ items.flatMap Item.wireLines, l.Sendable := by
  intro l hl
  obtain ⟨i, hi, hl⟩ := List.mem_flatMap.mp hl
  cases List.mem_append.mp hl with
  | inl hl => exact h i hi l hl
  | inr hl =>
      rw [List.mem_singleton.mp hl]
      exact blank_sendable i.crlf

theorem parseBytes_sendLines {ls : List WireLine} (h : ∀ l ∈ ls, l.Sendable) (rest : Bytes) :
    parseBytes D (sendLines ls ++ rest) =
      (ls.map WireLine.seen).foldlM (processLine D) {} >>= fun s =>
        LineBuffer.wholeStream lf maxSseEventBytes (.sse .lineTooLong) (processByteLine D) s
          rest := by
  have hlf : ∀ b ∈ ls.map WireLine.bytes, lf ∉ b := by
    intro b hb
    obtain ⟨l, hl, rfl⟩ := List.mem_map.mp hb
    exact WireLine.lf_not_mem_bytes (h l hl).oneLine
  have hsent : sendLines ls = (ls.map WireLine.bytes).flatMap (· ++ [lf]) ++ [] := by
    rw [List.append_nil, List.flatMap_map, sendLines]
  have hlines := LineBuffer.lines_flatMap hlf []
  have hres := LineBuffer.residue_flatMap hlf []
  rw [← hsent] at hlines hres
  rw [LineBuffer.lines_of_not_mem List.not_mem_nil, List.append_nil] at hlines
  rw [LineBuffer.residue_of_not_mem List.not_mem_nil] at hres
  rw [parseBytes, LineBuffer.wholeStream_append, hlines, hres, List.nil_append,
    ← runLines_bytes D h]

theorem parseBytes_items {items : List Item} (hitems : ∀ i ∈ items, i.Framed D)
    (hsize : ∀ i ∈ items, i.event? = none → blockDataBytes i.block ≤ maxSseEventBytes)
    {ls : List WireLine} (hls : ∀ l ∈ ls, l.Sendable) (rest : Bytes) :
    parseBytes D (sendLines (items.flatMap Item.wireLines ++ ls) ++ rest) =
      (⟨items.filterMap Item.event?, .ok {}⟩ : Gen Exc BridgeSSEEvent ParserState) >>= fun s =>
        (ls.map WireLine.seen).foldlM (processLine D) s >>= fun s' =>
          LineBuffer.wholeStream lf maxSseEventBytes (.sse .lineTooLong) (processByteLine D) s'
            rest := by
  have hsend : ∀ l ∈ items.flatMap Item.wireLines ++ ls, l.Sendable := by
    intro l hl
    cases List.mem_append.mp hl with
    | inl hl => exact sendable_wireLines (fun i hi => (hitems i hi).sendable) l hl
    | inr hl => exact hls l hl
  rw [parseBytes_sendLines D hsend, List.map_append, List.foldlM_append,
    foldlM_items D hitems hsize, bind_assoc]

theorem parseBytes_wire {items : List Item} {trailer : List WireLine}
    (hitems : ∀ i ∈ items, i.Framed D)
    (hsize : ∀ i ∈ items, i.event? = none → blockDataBytes i.block ≤ maxSseEventBytes)
    (htrailer : ∀ l ∈ trailer, l.Sendable ∧ IsNoise l.seen) :
    parseBytes D (wire items trailer) =
      ⟨items.filterMap Item.event?, .ok (blockState (trailer.map WireLine.seen))⟩ := by
  have hnoise : ∀ line ∈ trailer.map WireLine.seen, IsNoise line := by
    intro line hline
    obtain ⟨l, hl, rfl⟩ := List.mem_map.mp hline
    exact (htrailer l hl).2
  have hparse := parseBytes_items D hitems hsize (fun l hl => (htrailer l hl).1) []
  rw [List.append_nil, Gen.mk_ok_bind, foldlM_acceptable D (acceptable_of_noise hnoise)] at hparse
  simpa [wire, LineBuffer.wholeStream] using hparse

/-- A stream of framed events is parsed to exactly these events, whatever
skipped lines and payload-less blocks of bounded data stand between them. -/
theorem parseSseStream_wire {items : List Item} {trailer : List WireLine}
    (hitems : ∀ i ∈ items, i.Framed D)
    (hsize : ∀ i ∈ items, i.event? = none → blockDataBytes i.block ≤ maxSseEventBytes)
    (htrailer : ∀ l ∈ trailer, l.Sendable ∧ IsNoise l.seen)
    {chunks : List Bytes} (hchunks : chunks.flatten = wire items trailer) :
    parseSseStream D ⟨chunks, none⟩ = ⟨items.filterMap Item.event?, .ok ()⟩ := by
  rw [parseSseStream_eq, hchunks, parseBytes_wire D hitems hsize htrailer]
  simp only [Gen.mk_ok_bind, Content.finish, Gen.pure_yields, Gen.pure_result, List.append_nil]

/-! The frozen event behind a block without data, with a comment in its midst. -/

def frozenWireEvent : WireEvent :=
  ⟨"1:1".toList, frozenType, frozenText, .contentDelta frozenDelta⟩

theorem frozenWireEvent_valid : frozenWireEvent.Valid frozenDecoders where
  cursor := by decide
  wireType := by decide
  nonblank := by decide +kernel
  noTrailingCr := by decide +kernel
  size := by decide +kernel
  decodes := ⟨frozenJson, by rfl, by decide +kernel, rfl⟩

def heartbeat : WireLine := ⟨": heartbeat".toList, true⟩

def frozenItems : List Item :=
  [.payloadless [heartbeat, ⟨"data:".toList, false⟩] true,
    .event frozenWireEvent (heartbeat :: (frozenWireEvent.frame frozenDecoders).map (⟨·, true⟩))
      true]

theorem heartbeat_isNoise : IsNoise heartbeat.seen := by
  have hseen : heartbeat.seen = ':' :: " heartbeat".toList := by decide +kernel
  rw [hseen]
  exact .comment _ (by decide)

theorem WithNoise.refl (core : List Text) : WithNoise core core := by
  induction core with
  | nil => exact .nil
  | cons line core ih => exact .core line ih

theorem frozenItems_framed : ∀ i ∈ frozenItems, i.Framed frozenDecoders := by
  intro i hi
  simp only [frozenItems, List.mem_cons, List.not_mem_nil, or_false] at hi
  rcases hi with rfl | rfl
  · exact ⟨by decide +kernel, by decide +kernel⟩
  · refine ⟨by decide +kernel, frozenWireEvent_valid, .noise heartbeat_isNoise ?_⟩
    have htexts : ((frozenWireEvent.frame frozenDecoders).map (WireLine.mk · true)).map (·.text) =
        frozenWireEvent.frame frozenDecoders := (List.map_map ..).trans (List.map_id _)
    rw [htexts]
    exact WithNoise.refl _

theorem parseSseStream_wire_frozen :
    parseSseStream frozenDecoders ⟨[wire frozenItems [heartbeat]], none⟩ =
      ⟨[frozenWireEvent.event], .ok ()⟩ :=
  parseSseStream_wire frozenDecoders frozenItems_framed (by decide +kernel)
    (fun l hl => by cases List.mem_singleton.mp hl; exact ⟨by decide +kernel, heartbeat_isNoise⟩)
    List.flatten_singleton

/-! ## Blank data over the size limit

Spaces are counted against the data limit before the block turns out to carry no
payload. -/

def spaceLine (n : Nat) : WireLine := ⟨fieldLine dataField (List.replicate n ' '), false⟩

def blankItem (n : Nat) : Item := .payloadless [spaceLine n, spaceLine n] false

theorem encodeUtf8_spaces (n : Nat) : (encodeUtf8 (List.replicate n ' ')).length = n := by
  have hspace : String.utf8EncodeChar ' ' = [32] := by decide
  induction n with
  | zero => rfl
  | succ n ih =>
      rw [List.replicate_succ, encodeUtf8_cons, hspace, List.length_append, ih,
        List.length_singleton, Nat.add_comm]

theorem strip_of_isSpace {t : Text} (h : ∀ c ∈ t, isSpace c = true) : strip t = [] := by
  rw [strip, lstrip, List.dropWhile_eq_nil_iff.mpr h]
  rfl

theorem spaceLine_seen (n : Nat) : (spaceLine n).seen = (spaceLine n).text := by
  refine fieldLine_rstrip ?_ dataField
  intro hlast
  exact absurd (List.eq_of_mem_replicate (List.mem_of_getLast? hlast)) (by decide)

theorem spaceLine_sendable {n : Nat} (h : n + 6 ≤ maxSseEventBytes) : (spaceLine n).Sendable := by
  have htag : (encodeUtf8 (dataField ++ [':', ' '])).length = 6 := by decide
  refine ⟨?_, ?_⟩
  · simp [spaceLine, fieldLine, dataField]
  · have hsplit : (spaceLine n).text = (dataField ++ [':', ' ']) ++ List.replicate n ' ' := by
      simp [spaceLine, fieldLine]
    rw [WireLine.bytes, hsplit, encodeUtf8_append]
    simp only [spaceLine, List.length_append, htag, encodeUtf8_spaces]
    simp
    omega

theorem blankItem_block (n : Nat) : (blankItem n).block =
    [fieldLine dataField (List.replicate n ' '), fieldLine dataField (List.replicate n ' ')] := by
  simp only [Item.block, blankItem, Item.lines, List.map_cons, List.map_nil, spaceLine_seen]
  rfl

theorem blankItem_data (n : Nat) : blockData (blankItem n).block =
    List.replicate n ' ' ++ '\n' :: List.replicate n ' ' := by
  simp [blankItem_block, blockData, blockDataLines, valueOf_fieldLine, joinLines, List.intercalate]

theorem blankItem_framed {n : Nat} (h : n + 6 ≤ maxSseEventBytes) : (blankItem n).Framed D := by
  have hsend := spaceLine_sendable h
  refine ⟨by simp [blankItem, Item.lines, hsend], ?_, ?_, ?_⟩
  · simp [blankItem_block, fieldLine]
  · simp [blankItem_block, checksumOf_fieldLine]
  · rw [blankItem_data]
    apply strip_of_isSpace
    intro c hc
    simp only [List.mem_append, List.mem_cons, List.mem_replicate] at hc
    rcases hc with ⟨-, rfl⟩ | rfl | ⟨-, rfl⟩ <;> rfl

theorem parseSseStream_blankItem {n : Nat} (h : n + 6 ≤ maxSseEventBytes)
    (hover : maxSseEventBytes < 2 * n + 1) :
    parseSseStream D ⟨[wire [blankItem n] []], none⟩ = Gen.raise (.sse .dataTooLong) := by
  let line := fieldLine dataField (List.replicate n ' ')
  have hline : line ≠ [] := by simp [line, fieldLine]
  have hsum : checksumOf line = none := checksumOf_fieldLine (by simp) _
  have hvalue : (valueOf dataField line).isSome = true := by simp [line, valueOf_fieldLine]
  have hone : blockDataBytes ([] ++ [line]) = n := by
    simp [line, blockDataBytes, blockData, blockDataLines, valueOf_fieldLine, joinLines,
      List.intercalate, encodeUtf8_spaces]
  have htwo : blockDataBytes ([line] ++ [line]) = 2 * n + 1 := by
    have hblock : [line] ++ [line] = (blankItem n).block := (blankItem_block n).symm
    have hlf : String.utf8EncodeChar '\n' = [10] := by decide
    rw [hblock, blockDataBytes, blankItem_data, encodeUtf8_append, encodeUtf8_cons, hlf]
    simp only [List.length_append, List.length_cons, List.length_nil, encodeUtf8_spaces]
    omega
  have hfirst : lineFault [] line = none := by
    simp only [lineFault, hsum, hone]
    exact if_neg (by omega)
  have hsecond : lineFault [line] line = some .dataTooLong := by
    simp only [lineFault, hsum, htwo]
    exact if_pos ⟨hvalue, hover⟩
  have hlines : ([blankItem n].flatMap Item.wireLines).map WireLine.seen = [line, line, []] := by
    simp only [List.flatMap_cons, List.flatMap_nil, List.append_nil, Item.wireLines,
      List.map_append, ← Item.block.eq_1, blankItem_block]
    rfl
  have hrun : [line, line, []].foldlM (processLine D) {} = Gen.raise (.sse .dataTooLong) := by
    rw [← blockState_nil, List.foldlM_cons, processLine_blockState D [] hline, hfirst]
    simp only [List.nil_append, pure_bind]
    rw [List.foldlM_cons, processLine_blockState D [line] hline, hsecond]
    rfl
  have hsend : ∀ l ∈ [blankItem n].flatMap Item.wireLines, l.Sendable :=
    sendable_wireLines (by simpa using (blankItem_framed D h).sendable)
  rw [parseSseStream_eq, List.flatten_singleton, wire, List.append_nil,
    ← List.append_nil (sendLines _), parseBytes_sendLines D hsend, hlines, hrun]
  rfl

/-- Without the bound on blank data the stream of framed blocks can fail. -/
theorem parseSseStream_wire_unbounded_fails :
    ¬ ∀ (D : Decoders) (items : List Item) (trailer : List WireLine), (∀ i ∈ items, i.Framed D) →
      (∀ l ∈ trailer, l.Sendable ∧ IsNoise l.seen) →
      ∀ chunks : List Bytes, chunks.flatten = wire items trailer →
        parseSseStream D ⟨chunks, none⟩ = ⟨items.filterMap Item.event?, .ok ()⟩ := by
  intro hclaim
  have hshort : maxSseEventBytes / 2 + 1 + 6 ≤ maxSseEventBytes := by decide
  have hover : maxSseEventBytes < 2 * (maxSseEventBytes / 2 + 1) + 1 := by decide
  have hitems : ∀ i ∈ [blankItem (maxSseEventBytes / 2 + 1)], i.Framed frozenDecoders := by
    intro i hi
    rw [List.mem_singleton.mp hi]
    exact blankItem_framed frozenDecoders hshort
  have hparse := hclaim frozenDecoders _ [] hitems (by simp) [_] List.flatten_singleton
  rw [parseSseStream_blankItem frozenDecoders hshort hover] at hparse
  cases congrArg Gen.result hparse

end DualeAI.Sse
