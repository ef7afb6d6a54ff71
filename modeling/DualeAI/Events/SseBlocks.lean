import DualeAI.Events.SseParser

/-!
What a block of lines means, apart from how it was cut and parsed.

A block is the list of lines between two blank lines. Its checksum, event field,
data and id are read off that list alone. The parser's state inside a block is
`blockState` of the lines seen since the last blank one, so an event is a
function of its own block and nothing else (`runLines_sound`), and
the cuts between chunks cannot matter (`parseSseStream_eq`).
-/
namespace DualeAI.Sse
open Foundation

/-! ## Readings of a line and of a block -/

def checksumOf (line : Text) : Option Text :=
  if line.head? = some ':' ∧ (lstrip line.tail).take 4 = crcTag then
    some ((lstrip line.tail).drop 4)
  else none

def valueOf (field line : Text) : Option Text :=
  if line.head? = some ':' then none
  else if (splitField line).1 = field then some (splitField line).2
  else none

/-- The value of an id line the parser accepts: one without a null character. -/
def idOf (line : Text) : Option Text := (valueOf idField line).filter (Char.ofNat 0 ∉ ·)

def WellFormedChecksum (checksum : Text) : Prop :=
  checksum.length = crc32HexLength ∧ ∀ c ∈ checksum, c ∈ hexDigits

instance (checksum : Text) : Decidable (WellFormedChecksum checksum) :=
  decidable_of_iff (checksum.length = crc32HexLength ∧ checksum.all (· ∈ hexDigits) = true)
    (by simp [WellFormedChecksum])

def blockChecksum (blk : List Text) : Option Text := (blk.filterMap checksumOf).getLast?

def blockEventType (blk : List Text) : Text :=
  (blk.filterMap (valueOf eventField)).getLast?.getD defaultEventType

def blockDataLines (blk : List Text) : List Text := blk.filterMap (valueOf dataField)

def blockData (blk : List Text) : Text := joinLines (blockDataLines blk)

def blockDataBytes (blk : List Text) : Nat := (encodeUtf8 (blockData blk)).length

def blockId (blk : List Text) : Text := (blk.filterMap idOf).getLast?.getD []

/-- The parser's state after the lines of an unfinished block. -/
def blockState (blk : List Text) : ParserState where
  eventId := blockId blk
  eventType := blockEventType blk
  dataLines := blockDataLines blk
  dataBytes := blockDataBytes blk
  pendingChecksum := blockChecksum blk

@[simp] theorem blockState_nil : blockState [] = {} := rfl

theorem joinLines_concat (ls : List Text) (v : Text) :
    joinLines (ls ++ [v]) = if ls = [] then v else joinLines ls ++ '\n' :: v := by
  induction ls with
  | nil => simp [joinLines, List.intercalate]
  | cons l ls ih =>
      cases ls with
      | nil => simp [joinLines, List.intercalate]
      | cons k ks =>
          simp only [reduceCtorEq, ite_false] at ih ⊢
          have hcons (x y : Text) (zs : List Text) :
              joinLines (x :: y :: zs) = x ++ '\n' :: joinLines (y :: zs) := by
            simp [joinLines, List.intercalate]
          rw [List.cons_append, List.cons_append, hcons, hcons, ← List.cons_append, ih]
          simp

theorem joinLines_concat_bytes (ls : List Text) (v : Text) :
    (encodeUtf8 (joinLines (ls ++ [v]))).length =
      (encodeUtf8 (joinLines ls)).length + (encodeUtf8 v).length + (if ls = [] then 0 else 1) := by
  rw [joinLines_concat]
  split
  · next h => subst h; simp [joinLines, List.intercalate]
  · have hlf : String.utf8EncodeChar '\n' = [10] := by decide
    rw [encodeUtf8_append, encodeUtf8_cons, hlf]
    simp
    omega

/-! One more line, reading by reading. -/

theorem getLast?_filterMap_concat {α β : Type} (f : α → Option β) (xs : List α) (x : α) :
    ((xs ++ [x]).filterMap f).getLast? = (f x).or (xs.filterMap f).getLast? := by
  rw [List.filterMap_append]
  cases h : f x with
  | none => simp [h]
  | some y => simp [h]

theorem blockChecksum_concat (blk : List Text) (line : Text) :
    blockChecksum (blk ++ [line]) = (checksumOf line).or (blockChecksum blk) :=
  getLast?_filterMap_concat checksumOf blk line

theorem blockEventType_concat (blk : List Text) (line : Text) :
    blockEventType (blk ++ [line]) = (valueOf eventField line).getD (blockEventType blk) := by
  rw [blockEventType, getLast?_filterMap_concat, blockEventType]
  cases valueOf eventField line <;> rfl

theorem blockId_concat (blk : List Text) (line : Text) :
    blockId (blk ++ [line]) = (idOf line).getD (blockId blk) := by
  rw [blockId, getLast?_filterMap_concat, blockId]
  cases idOf line <;> rfl

theorem blockDataLines_concat (blk : List Text) (line : Text) :
    blockDataLines (blk ++ [line]) = blockDataLines blk ++ (valueOf dataField line).toList := by
  rw [blockDataLines, List.filterMap_append, blockDataLines]
  cases h : valueOf dataField line <;> simp [h]

theorem blockDataBytes_concat (blk : List Text) (line : Text) :
    blockDataBytes (blk ++ [line]) =
      match valueOf dataField line with
      | none => blockDataBytes blk
      | some v => blockDataBytes blk + (encodeUtf8 v).length +
          (if blockDataLines blk = [] then 0 else 1) := by
  rw [blockDataBytes, blockData, blockDataLines_concat]
  cases valueOf dataField line with
  | none => simp [blockDataBytes, blockData]
  | some v => exact joinLines_concat_bytes _ v

theorem blockDataBytes_mono (blk more : List Text) :
    blockDataBytes blk ≤ blockDataBytes (blk ++ more) := by
  induction more using List.reverseRecOn with
  | nil => simp
  | append_singleton more line ih =>
      rw [← List.append_assoc, blockDataBytes_concat]
      split
      · exact ih
      · exact Nat.le_trans ih (by rw [Nat.add_assoc]; exact Nat.le_add_right _ _)

theorem valueOf_comment {line : Text} (h : line.head? = some ':') (field : Text) :
    valueOf field line = none := by
  simp [valueOf, h]

theorem checksumOf_field {line : Text} (h : line.head? ≠ some ':') : checksumOf line = none := by
  simp [checksumOf, h]

theorem blockState_concat_unread {line : Text} (hcrc : checksumOf line = none)
    (hid : valueOf idField line = none) (hevent : valueOf eventField line = none)
    (hdata : valueOf dataField line = none) (blk : List Text) :
    blockState (blk ++ [line]) = blockState blk := by
  simp [blockState, blockChecksum_concat, blockEventType_concat, blockDataLines_concat,
    blockDataBytes_concat, blockId_concat, idOf, hcrc, hid, hevent, hdata]

/-! ## The parser's state is the block's -/

/-- Why the parser refuses a line after the lines of `blk`, if it does. -/
def lineFault (blk : List Text) (line : Text) : Option SSEParseError :=
  match checksumOf line with
  | some checksum =>
      if WellFormedChecksum checksum then none else some (.invalidChecksum checksum)
  | none =>
      if (valueOf dataField line).isSome ∧ blockDataBytes (blk ++ [line]) > maxSseEventBytes then
        some .dataTooLong
      else none

theorem processComment_blockState (blk : List Text) {line : Text} (h : line.head? = some ':') :
    processComment (blockState blk) line.tail =
      match lineFault blk line with
      | none => .ok (blockState (blk ++ [line]))
      | some e => .error e := by
  have hval := valueOf_comment h
  by_cases hcrc : (lstrip line.tail).take 4 = crcTag
  · have hsum : checksumOf line = some ((lstrip line.tail).drop 4) := by simp [checksumOf, h, hcrc]
    have hstate : { blockState blk with pendingChecksum := some ((lstrip line.tail).drop 4) } =
        blockState (blk ++ [line]) := by
      simp [blockState, blockChecksum_concat, blockEventType_concat, blockDataLines_concat,
        blockDataBytes_concat, blockId_concat, idOf, hsum, hval]
    have hwf : (((lstrip line.tail).drop 4).length ≠ crc32HexLength ∨
        ((lstrip line.tail).drop 4).any (· ∉ hexDigits)) ↔
          ¬ WellFormedChecksum ((lstrip line.tail).drop 4) := by
      simp only [WellFormedChecksum, not_and_or, not_forall, exists_prop, List.any_eq_true,
        decide_eq_true_eq]
    simp only [processComment, hcrc, ite_true, lineFault, hsum, hwf, ite_not]
    split <;> simp [*]
  · have hsum : checksumOf line = none := by simp only [checksumOf, hcrc, and_false, ite_false]
    simp only [processComment, hcrc, ite_false, lineFault, hsum, hval, Option.isSome_none,
      Bool.false_eq_true, false_and]
    rw [blockState_concat_unread hsum (hval _) (hval _) (hval _)]

theorem processField_blockState (blk : List Text) {line : Text} (h : line.head? ≠ some ':') :
    processField (blockState blk) (splitField line).1 (splitField line).2 =
      match lineFault blk line with
      | none => .ok (blockState (blk ++ [line]))
      | some e => .error e := by
  have hsum := checksumOf_field h
  have hval (field : Text) : valueOf field line =
      if (splitField line).1 = field then some (splitField line).2 else none := by
    simp only [valueOf, h, ite_false]
  have hie : idField ≠ eventField := by decide
  have hid' : idField ≠ dataField := by decide
  have hed : eventField ≠ dataField := by decide
  by_cases hid : (splitField line).1 = idField
  · by_cases hnull : Char.ofNat 0 ∈ (splitField line).2 <;>
      simp [processField, lineFault, blockState, blockChecksum_concat, blockEventType_concat,
        blockDataLines_concat, blockDataBytes_concat, blockId_concat, idOf, Option.filter, hsum,
        hval, hid, hie, hid', hnull]
  · by_cases hevent : (splitField line).1 = eventField
    · simp [processField, lineFault, blockState, blockChecksum_concat, blockEventType_concat,
        blockDataLines_concat, blockDataBytes_concat, blockId_concat, idOf, hsum, hval, hevent,
        hie.symm, hed]
    · by_cases hdata : (splitField line).1 = dataField
      · have hbytes : (blockState blk).dataBytes + (encodeUtf8 (splitField line).2).length +
            (if (blockState blk).dataLines = [] then 0 else 1) =
              blockDataBytes (blk ++ [line]) := by
          simp only [blockDataBytes_concat, hval, hdata, ite_true]
          rfl
        simp only [processField, hdata, hid'.symm, hed.symm, ite_false, ite_true, lineFault, hsum,
          hval, Option.isSome_some, true_and, hbytes]
        by_cases hbig : blockDataBytes (blk ++ [line]) > maxSseEventBytes
        · simp only [hbig, ite_true]
        · simp [hbig, blockState, blockChecksum_concat, blockEventType_concat,
            blockDataLines_concat, blockId_concat, idOf, hsum, hval, hdata, hid'.symm, hed.symm]
      · simp only [processField, hid, hevent, hdata, ite_false, lineFault, hsum, hval,
          Option.isSome_none, Bool.false_eq_true, false_and]
        rw [blockState_concat_unread hsum] <;> simp only [hval, hid, hevent, hdata, ite_false]

/-- Inside a block the parser's state is the block's reading, line after line. -/
theorem processTextLine_blockState (blk : List Text) (line : Text) :
    processTextLine (blockState blk) line =
      match lineFault blk line with
      | none => .ok (blockState (blk ++ [line]))
      | some e => .error e := by
  rw [processTextLine]
  split
  · next h => exact processComment_blockState blk h
  · next h => exact processField_blockState blk h

variable (D : Decoders)

theorem processLine_blank (s : ParserState) :
    processLine D s [] = dispatchBlock D s >>= fun _ => pure {} := rfl

theorem processLine_blockState (blk : List Text) {line : Text} (h : line ≠ []) :
    processLine D (blockState blk) line =
      match lineFault blk line with
      | none => pure (blockState (blk ++ [line]))
      | some e => Gen.raise (.sse e) := by
  rw [processLine, if_neg h, processTextLine_blockState]
  cases lineFault blk line <;> rfl

/-- No line of the block is blank, malformed or one too many. -/
structure Acceptable (blk : List Text) : Prop where
  nonblank : [] ∉ blk
  checksums : ∀ c ∈ blk.filterMap checksumOf, WellFormedChecksum c
  size : blockDataBytes blk ≤ maxSseEventBytes

theorem Acceptable.lineFault_none {blk : List Text} (h : Acceptable blk) {front back : List Text}
    {line : Text} (hsplit : blk = front ++ line :: back) : lineFault front line = none := by
  have hmem : line ∈ blk := by simp [hsplit]
  have hsize : blockDataBytes (front ++ [line]) ≤ maxSseEventBytes := by
    refine Nat.le_trans ?_ h.size
    rw [hsplit, List.append_cons front line back]
    exact blockDataBytes_mono (front ++ [line]) back
  rw [lineFault]
  split
  · next c hc => rw [if_pos (h.checksums c (List.mem_filterMap.mpr ⟨line, hmem, hc⟩))]
  · rw [if_neg (fun hbig => absurd hbig.2 (Nat.not_lt.mpr hsize))]

theorem foldlM_acceptable {blk : List Text} (h : Acceptable blk) :
    blk.foldlM (processLine D) {} = pure (blockState blk) := by
  suffices hsuf : ∀ back front, blk = front ++ back →
      back.foldlM (processLine D) (blockState front) = pure (blockState blk) from
    hsuf blk [] rfl
  intro back
  induction back with
  | nil => intro front hfront; simp [hfront]
  | cons line back ih =>
      intro front hfront
      have hline : line ≠ [] := by
        rintro rfl
        exact h.nonblank (by simp [hfront])
      rw [List.foldlM_cons, processLine_blockState D front hline, h.lineFault_none hfront]
      exact ih (front ++ [line]) (by simp [hfront])

/-! ## What a block yields -/

/-- The event is the block's own: its last crc comment is the checksum of its
event field and data, and its type, id and payload are read off its lines. -/
def BlockYields (blk : List Text) (event : BridgeSSEEvent) : Prop :=
  blockChecksum blk = some (computeChecksum D (blockEventType blk) (blockData blk)) ∧
    event.id = blockId blk ∧ isCursor event.id = true ∧
    ∃ data, D.loads (blockData blk) = .ok data ∧
      data.carriesType (blockEventType blk) = true ∧ D.validateData data = .ok event.data

theorem bridgeSseEvent_ok {id : Text} {data : Json} {event : BridgeSSEEvent}
    (h : bridgeSseEvent D id data = .ok event) :
    event.id = id ∧ isCursor id = true ∧ D.validateData data = .ok event.data := by
  rw [bridgeSseEvent] at h
  split at h
  · next hcursor =>
      split at h
      · next d hd => cases h; exact ⟨rfl, hcursor, hd⟩
      · cases h
  · cases h

theorem dispatchBlock_cases (s : ParserState) :
    dispatchBlock D s = pure () ∨
      (∃ event, dispatchBlock D s = Gen.emit event ∧
        s.pendingChecksum = some (computeChecksum D s.eventType (joinLines s.dataLines)) ∧
        event.id = s.eventId ∧ isCursor s.eventId = true ∧
        ∃ data, D.loads (joinLines s.dataLines) = .ok data ∧
          data.carriesType s.eventType = true ∧ D.validateData data = .ok event.data) ∨
      ∃ e, dispatchBlock D s = Gen.raise e := by
  generalize hg : dispatchBlock D s = g
  rw [dispatchBlock] at hg
  simp only at hg
  split at hg
  · exact .inl hg.symm
  refine .inr ?_
  split at hg
  · exact .inr ⟨_, hg.symm⟩
  next expected hexp =>
  split at hg
  · exact .inr ⟨_, hg.symm⟩
  next hactual =>
  split at hg
  · exact .inr ⟨_, hg.symm⟩
  · exact .inr ⟨_, hg.symm⟩
  next data hdata =>
  split at hg
  · next htype =>
      split at hg
      · next event hevent =>
          obtain ⟨hid, hcursor, hvalid⟩ := bridgeSseEvent_ok D hevent
          have hsum := congrArg some (Decidable.not_not.mp hactual).symm
          exact .inl ⟨event, hg.symm, hexp.trans hsum, hid, hcursor, data, hdata, htype, hvalid⟩
      · exact .inr ⟨_, hg.symm⟩
      · exact .inr ⟨_, hg.symm⟩
  · exact .inr ⟨_, hg.symm⟩

/-! ## Blocks of a stream -/

/-- The lines up to the first that is no UTF-8, where the parser stops. -/
def textLines : List Bytes → List Text
  | [] => []
  | b :: bs =>
      match decodeLine b with
      | none => []
      | some line => line :: textLines bs

/-- The blocks of a byte stream: its lines between blank lines. -/
def blocksOf (stream : Bytes) : List (List Text) :=
  LineBuffer.lines [] (textLines (LineBuffer.lines lf stream))

abbrev runLines (s : ParserState) (bs : List Bytes) : Gen Exc BridgeSSEEvent ParserState :=
  bs.foldlM (LineBuffer.boundedLine maxSseEventBytes (.sse .lineTooLong) (processByteLine D)) s

/-- Step: one more line of a block leads to the state of the longer block or raises. -/
theorem processLine_step (cur : List Text) {line : Text} (h : line ≠ []) :
    processLine D (blockState cur) line = pure (blockState (cur ++ [line])) ∨
      ∃ e, processLine D (blockState cur) line = Gen.raise e := by
  rw [processLine_blockState D cur h]
  cases lineFault cur line with
  | none => exact .inl rfl
  | some e => exact .inr ⟨_, rfl⟩

/-- Run: the events come in order from blocks of the stream, each from one. -/
theorem runLines_sound (bs : List Bytes) (cur : List Text) (hcur : [] ∉ cur) :
    ∃ blks, blks.Sublist (LineBuffer.lines [] (cur ++ textLines bs)) ∧
      List.Forall₂ (BlockYields D) blks (runLines D (blockState cur) bs).yields := by
  induction bs generalizing cur with
  | nil => exact ⟨[], List.nil_sublist _, .nil⟩
  | cons b bs ih =>
      rw [runLines, List.foldlM_cons, LineBuffer.boundedLine]
      by_cases hlong : b.length > maxSseEventBytes
      · rw [if_pos hlong]
        exact ⟨[], List.nil_sublist _, .nil⟩
      rw [if_neg hlong, processByteLine, textLines]
      cases hline : decodeLine b with
      | none => exact ⟨[], List.nil_sublist _, .nil⟩
      | some line =>
          simp only
          by_cases hblank : line = []
          · subst hblank
            obtain ⟨blks, hsub, hall⟩ := ih [] (by simp)
            rw [LineBuffer.lines_line hcur, processLine_blank]
            rcases dispatchBlock_cases D (blockState cur) with
              h | ⟨event, h, hsum, hid, hcursor, hdata⟩ | ⟨e, h⟩
            · rw [h, pure_bind, pure_bind]
              exact ⟨blks, hsub.cons cur, hall⟩
            · have hown : BlockYields D cur event := ⟨hsum, hid, hid ▸ hcursor, hdata⟩
              rw [h, bind_assoc]
              exact ⟨cur :: blks, hsub.cons_cons cur, .cons hown hall⟩
            · rw [h]
              exact ⟨[], List.nil_sublist _, .nil⟩
          · cases processLine_step D cur hblank with
            | inl h =>
                rw [h, pure_bind]
                have hcur' : [] ∉ cur ++ [line] := by simp [hcur, Ne.symm hblank]
                simpa using ih (cur ++ [line]) hcur'
            | inr hright =>
                obtain ⟨e, h⟩ := hright
                rw [h]
                exact ⟨[], List.nil_sublist _, .nil⟩

/-! ## The whole stream -/

def parseBytes (stream : Bytes) : Gen Exc BridgeSSEEvent ParserState :=
  LineBuffer.wholeStream lf maxSseEventBytes (.sse .lineTooLong) (processByteLine D) {} stream

def Content.finish (content : Content) : Gen Exc BridgeSSEEvent Unit :=
  match content.failure with
  | none => pure ()
  | some e => Gen.raise e

theorem parseSseStream_eq (content : Content) :
    parseSseStream D content = parseBytes D content.chunks.flatten >>= fun _ => content.finish := by
  have hfeed := @LineBuffer.feed_eq_wholeStream _ _ _ _ _ lf maxSseEventBytes (.sse .lineTooLong)
    (processByteLine D) content.chunks {} [] (by simp) (by simp)
  rw [List.nil_append] at hfeed
  rw [parseBytes, ← hfeed, bind_assoc]
  rfl

theorem Content.finish_yields (content : Content) : content.finish.yields = [] := by
  rw [Content.finish]
  split <;> rfl

theorem parseSseStream_yields (content : Content) :
    (parseSseStream D content).yields = (parseBytes D content.chunks.flatten).yields := by
  rw [parseSseStream_eq]
  cases hr : (parseBytes D content.chunks.flatten).result with
  | error e => rw [Gen.bind_of_error hr]
  | ok s => rw [Gen.bind_of_ok hr]; simp [Content.finish_yields]

theorem parseBytes_yields (stream : Bytes) :
    (parseBytes D stream).yields = (runLines D {} (LineBuffer.lines lf stream)).yields := by
  rw [parseBytes, LineBuffer.wholeStream]
  cases hr : (runLines D {} (LineBuffer.lines lf stream)).result with
  | error e => rw [Gen.bind_of_error hr]
  | ok s => rw [Gen.bind_of_ok hr]; split <;> simp

/-- However a byte stream is cut into chunks, the parser yields the same events
and ends the same way. -/
theorem parseSseStream_chunk_invariant (chunks₁ chunks₂ : List Bytes) (failure : Option Exc)
    (h : chunks₁.flatten = chunks₂.flatten) :
    parseSseStream D ⟨chunks₁, failure⟩ = parseSseStream D ⟨chunks₂, failure⟩ := by
  rw [parseSseStream_eq, parseSseStream_eq]
  simp only [h]
  rfl

theorem parseSseStream_chunk_invariant_frozen :
    parseSseStream frozenDecoders ⟨[frozenWire.take 20, [], frozenWire.drop 20], none⟩ =
      parseSseStream frozenDecoders ⟨[frozenWire], none⟩ :=
  parseSseStream_chunk_invariant frozenDecoders _ _ none (by decide +kernel)

/-! ## Block isolation -/

def cr : UInt8 := 13

def EndsAtBlankLine (a : Bytes) : Prop :=
  ∃ front crs, a = front ++ (crs ++ [lf]) ∧ (front = [] ∨ ∃ f, front = f ++ [lf]) ∧
    ∀ b ∈ crs, b = cr

theorem decodeLine_crs {crs : Bytes} (h : ∀ b ∈ crs, b = cr) : decodeLine crs = some [] := by
  have hcrs : crs = encodeUtf8 (List.replicate crs.length '\r') := by
    have hchar : String.utf8EncodeChar '\r' = [cr] := by decide
    rw [List.eq_replicate_of_mem h, encodeUtf8, List.length_replicate]
    induction crs.length with
    | zero => rfl
    | succ n ih =>
        rw [List.replicate_succ, List.replicate_succ, List.flatMap_cons, hchar, ← ih]
        rfl
  rw [hcrs, decodeLine, decodeUtf8_encodeUtf8, Option.map_some, rstripChar,
    List.rdropWhile_eq_nil_iff.mpr fun c hc => by simp [List.eq_of_mem_replicate hc]]

theorem lines_of_endsAtBlankLine {a : Bytes} (h : EndsAtBlankLine a) :
    ∃ ls crs, LineBuffer.lines lf a = ls ++ [crs] ∧ LineBuffer.residue lf a = [] ∧
      decodeLine crs = some [] := by
  obtain ⟨front, crs, rfl, hfront, hcrs⟩ := h
  have hres : LineBuffer.residue lf front = [] := by
    rcases hfront with rfl | ⟨f, rfl⟩
    · exact LineBuffer.residue_of_not_mem (by simp)
    · exact LineBuffer.residue_concat_sep f
  have hlf : lf ∉ crs := fun hm => absurd (hcrs lf hm) (by decide)
  refine ⟨LineBuffer.lines lf front, crs, ?_, ?_, decodeLine_crs hcrs⟩
  · rw [LineBuffer.lines_append, hres, List.nil_append, LineBuffer.lines_line hlf]
    simp
  · rw [← List.append_assoc, LineBuffer.residue_concat_sep]

/-- A stream that ends with a block ends in the state it started from. -/
theorem parseBytes_endsAtBlankLine {a : Bytes} (h : EndsAtBlankLine a) :
    parseBytes D a = runLines D {} (LineBuffer.lines lf a) ∧
      ∀ s, (parseBytes D a).result = .ok s → s = {} := by
  obtain ⟨ls, crs, hlines, hres, hblank⟩ := lines_of_endsAtBlankLine h
  have heq : parseBytes D a = runLines D {} (LineBuffer.lines lf a) := by
    simp [parseBytes, LineBuffer.wholeStream, hres]
  refine ⟨heq, ?_⟩
  intro s hs
  rw [heq, hlines, runLines, List.foldlM_append] at hs
  obtain ⟨s₁, -, hlast, -⟩ := Gen.bind_result_ok hs
  simp only [List.foldlM_cons, List.foldlM_nil, bind_pure, LineBuffer.boundedLine] at hlast
  split at hlast
  · cases hlast
  · rw [processByteLine, hblank] at hlast
    obtain ⟨-, -, hreset, -⟩ := Gen.bind_result_ok hlast
    exact (Except.ok.inj hreset).symm

theorem parseBytes_append {a : Bytes} (h : EndsAtBlankLine a) {s : ParserState}
    (hok : (parseBytes D a).result = .ok s) (b : Bytes) :
    parseBytes D (a ++ b) =
      ⟨(parseBytes D a).yields ++ (parseBytes D b).yields, (parseBytes D b).result⟩ := by
  obtain ⟨heq, hreset⟩ := parseBytes_endsAtBlankLine D h
  obtain ⟨-, -, -, hres, -⟩ := lines_of_endsAtBlankLine h
  cases hreset s hok
  rw [parseBytes, LineBuffer.wholeStream_append, hres, List.nil_append]
  rw [heq] at hok ⊢
  exact Gen.bind_of_ok hok _

/-- Every event is its own block's, in the order of the blocks, and a finished
block leaves no trace in the parse of what follows it. -/
theorem parseSseStream_block_isolation :
    (∀ content : Content, ∃ blks,
      blks.Sublist (blocksOf content.chunks.flatten) ∧
        List.Forall₂ (BlockYields D) blks (parseSseStream D content).yields) ∧
    ∀ (as bs : List Bytes) (failure : Option Exc), EndsAtBlankLine as.flatten →
      (parseSseStream D ⟨as, none⟩).result = .ok () →
      parseSseStream D ⟨as ++ bs, failure⟩ =
        ⟨(parseSseStream D ⟨as, none⟩).yields ++ (parseSseStream D ⟨bs, failure⟩).yields,
          (parseSseStream D ⟨bs, failure⟩).result⟩ := by
  refine ⟨?_, ?_⟩
  · intro content
    rw [parseSseStream_yields, parseBytes_yields]
    exact runLines_sound D (LineBuffer.lines lf content.chunks.flatten) [] (by simp)
  · intro as bs failure hend hok
    rw [parseSseStream_eq] at hok
    obtain ⟨s, hs, -, -⟩ := Gen.bind_result_ok hok
    simp only [parseSseStream_yields]
    rw [parseSseStream_eq, parseSseStream_eq]
    simp only [List.flatten_append, parseBytes_append D hend hs]
    cases hr : (parseBytes D bs.flatten).result with
    | error e => rw [Gen.bind_of_error hr, Gen.mk_error_bind]
    | ok t =>
        rw [Gen.bind_of_ok hr, Gen.mk_ok_bind]
        simp [Content.finish_yields]
        rfl

theorem frozenWire_endsAtBlankLine : EndsAtBlankLine frozenWire :=
  ⟨frozenWire.dropLast, [], by decide +kernel,
    .inr ⟨frozenWire.dropLast.dropLast, by decide +kernel⟩, by simp⟩

theorem parseSseStream_block_isolation_frozen :
    (parseSseStream frozenDecoders ⟨[frozenWire, frozenWire], none⟩).yields =
      (parseSseStream frozenDecoders ⟨[frozenWire], none⟩).yields ++
        (parseSseStream frozenDecoders ⟨[frozenWire], none⟩).yields :=
  congrArg Gen.yields ((parseSseStream_block_isolation frozenDecoders).2 [frozenWire] [frozenWire]
    none (by simpa using frozenWire_endsAtBlankLine) (by decide +kernel))

end DualeAI.Sse
