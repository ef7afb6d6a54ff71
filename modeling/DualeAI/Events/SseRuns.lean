import DualeAI.Events.SseBlocks
import DualeAI.Foundation.LineRuns
import DualeAI.Foundation.Log

/-!
One line and one block of the SSE parser, and where its run over lines stops.

After the lines taken, the parser is in the state of the current block, the lines since
the last blank one. A line is taken, or it stops the run.
-/
namespace DualeAI.Sse
open Foundation

/-- The lines taken since the last blank one. -/
def currentBlock (taken : List Bytes) : List Text :=
  LineBuffer.residue [] (taken.filterMap decodeLine)

@[simp] theorem currentBlock_nil : currentBlock [] = [] :=
  LineBuffer.residue_of_not_mem List.not_mem_nil

theorem nil_not_mem_currentBlock (taken : List Bytes) : [] ∉ currentBlock taken :=
  LineBuffer.not_mem_residue _

theorem currentBlock_append (taken more : List Bytes) :
    currentBlock (taken ++ more) =
      LineBuffer.residue [] (currentBlock taken ++ more.filterMap decodeLine) := by
  rw [currentBlock, List.filterMap_append, LineBuffer.residue_append, currentBlock]

theorem currentBlock_blank {b : Bytes} (h : decodeLine b = some []) (taken : List Bytes) :
    currentBlock (taken ++ [b]) = [] := by
  rw [currentBlock, List.filterMap_append, List.filterMap_cons_some h, List.filterMap_nil,
    LineBuffer.residue_concat_sep]

/-- Lines none of which is blank stay in the block. -/
theorem currentBlock_extend {more : List Bytes} (h : ∀ b ∈ more, decodeLine b ≠ some [])
    (taken : List Bytes) :
    currentBlock (taken ++ more) = currentBlock taken ++ more.filterMap decodeLine := by
  rw [currentBlock_append]
  apply LineBuffer.residue_of_not_mem
  intro hmem
  cases List.mem_append.mp hmem with
  | inl hmem => exact nil_not_mem_currentBlock taken hmem
  | inr hmem =>
      obtain ⟨b, hb, hblank⟩ := List.mem_filterMap.mp hmem
      exact h b hb hblank

theorem currentBlock_line {b : Bytes} {line : Text} (h : decodeLine b = some line)
    (hline : line ≠ []) (taken : List Bytes) :
    currentBlock (taken ++ [b]) = currentBlock taken ++ [line] := by
  rw [currentBlock_extend, List.filterMap_cons_some h, List.filterMap_nil]
  intro b' hb'
  rw [List.mem_singleton.mp hb', h]
  exact fun heq => hline (Option.some.inj heq)

/-! ## One block -/

/-- A line is too long, or a block's data is too large. -/
def isSizeError : SSEParseError → Bool
  | .lineTooLong | .dataTooLong => true
  | _ => false

section Block
variable (D : Decoders) (blk : List Text)

/-- There is no data, or an event to yield. -/
def BlockPasses : Prop := strip (blockData blk) = [] ∨ ∃ event, BlockYields D blk event

/-- The data carries its checksum, and decoding or validating it raises what is not caught. -/
def BlockRaises (className : String) : Prop :=
  strip (blockData blk) ≠ [] ∧
    blockChecksum blk = some (computeChecksum D (blockEventType blk) (blockData blk)) ∧
    (D.loads (blockData blk) = .error (.raised className) ∨
      ∃ data, D.loads (blockData blk) = .ok data ∧
        data.carriesType (blockEventType blk) = true ∧ isCursor (blockId blk) = true ∧
        D.validateData data = .error (.raised className))

variable {D blk}

theorem bridgeSseEvent_raised {id : Text} {data : Json} {className : String}
    (h : bridgeSseEvent D id data = .error (.raised className)) :
    isCursor id = true ∧ D.validateData data = .error (.raised className) := by
  rw [bridgeSseEvent] at h
  split at h
  · next hcursor =>
      cases hdata : D.validateData data with
      | ok d =>
          rw [hdata] at h
          cases h
      | error e =>
          rw [hdata] at h
          cases h
          exact ⟨hcursor, rfl⟩
  · cases h

variable (D blk)

/-- A block passes, raises what is not caught, or is refused as malformed. -/
inductive BlockOutcome : Except Exc Unit → Prop where
  | passed : BlockPasses D blk → BlockOutcome (.ok ())
  | raised {className} : BlockRaises D blk className → BlockOutcome (.error (.other className))
  | refused {e} : isSizeError e = false → BlockOutcome (.error (.sse e))

theorem dispatchBlock_outcome : BlockOutcome D blk (dispatchBlock D (blockState blk)).result := by
  generalize hg : dispatchBlock D (blockState blk) = g
  rw [dispatchBlock] at hg
  simp only at hg
  split at hg
  · next hempty =>
      rw [← hg]
      exact BlockOutcome.passed (Or.inl hempty)
  next hdata =>
  split at hg
  · rw [← hg]
    exact BlockOutcome.refused rfl
  next expected hexpected =>
  split at hg
  · rw [← hg]
    exact BlockOutcome.refused rfl
  next hactual =>
  have hsum : blockChecksum blk =
      some (computeChecksum D (blockEventType blk) (blockData blk)) :=
    hexpected.trans (congrArg some (Decidable.not_not.mp hactual).symm)
  split at hg
  · rw [← hg]
    exact BlockOutcome.refused rfl
  · next className hloads =>
      rw [← hg]
      exact BlockOutcome.raised ⟨hdata, hsum, Or.inl hloads⟩
  next data hloads =>
  split at hg
  · next htype =>
      split at hg
      · next event hevent =>
          obtain ⟨hid, hcursor, hvalid⟩ := bridgeSseEvent_ok D hevent
          rw [← hg]
          refine BlockOutcome.passed (Or.inr ⟨event, hsum, hid, ?_, data, hloads, htype, hvalid⟩)
          rw [hid]
          exact hcursor
      · rw [← hg]
        exact BlockOutcome.refused rfl
      · next className hraised =>
          obtain ⟨hcursor, hvalid⟩ := bridgeSseEvent_raised hraised
          rw [← hg]
          exact BlockOutcome.raised
            ⟨hdata, hsum, Or.inr ⟨data, hloads, htype, hcursor, hvalid⟩⟩
  · rw [← hg]
    exact BlockOutcome.refused rfl

variable {D blk}

/-- What is left of it for data with its checksum. -/
theorem dispatchBlock_of_checksum (hdata : strip (blockData blk) ≠ [])
    (hsum : blockChecksum blk =
      some (computeChecksum D (blockEventType blk) (blockData blk))) :
    dispatchBlock D (blockState blk) =
      match D.loads (blockData blk) with
      | .error .rejected => Gen.raise (.sse (.invalidJson (blockData blk)))
      | .error (.raised className) => Gen.raise (.other className)
      | .ok data =>
          if data.carriesType (blockEventType blk) then
            match bridgeSseEvent D (blockId blk) data with
            | .ok event => Gen.emit event
            | .error .rejected => Gen.raise (.sse (.invalidEvent (blockData blk)))
            | .error (.raised className) => Gen.raise (.other className)
          else Gen.raise (.sse (.typeMismatch (blockEventType blk) (blockData blk))) := by
  have hlines : joinLines (blockState blk).dataLines = blockData blk := rfl
  have hpending : (blockState blk).pendingChecksum = blockChecksum blk := rfl
  have htype : (blockState blk).eventType = blockEventType blk := rfl
  rw [dispatchBlock, hlines, hpending, htype, hsum]
  simp only [if_neg hdata, ne_eq, not_true_eq_false, if_false]
  rfl

theorem dispatchBlock_of_passes (h : BlockPasses D blk) :
    (dispatchBlock D (blockState blk)).result = .ok () := by
  by_cases hempty : strip (blockData blk) = []
  · rw [dispatchBlock]
    simp only [show joinLines (blockState blk).dataLines = blockData blk from rfl, hempty, if_true]
    rfl
  · obtain ⟨event, hsum, hid, hcursor, data, hloads, htype, hvalid⟩ := h.resolve_left hempty
    rw [hid] at hcursor
    rw [dispatchBlock_of_checksum hempty hsum, hloads]
    simp only [htype, if_true, bridgeSseEvent, hcursor, hvalid]
    rfl

theorem dispatchBlock_of_raises {className : String} (h : BlockRaises D blk className) :
    (dispatchBlock D (blockState blk)).result = .error (.other className) := by
  obtain ⟨hdata, hsum, hcause⟩ := h
  rw [dispatchBlock_of_checksum hdata hsum]
  cases hcause with
  | inl hloads =>
      rw [hloads]
      rfl
  | inr hvalidate =>
      obtain ⟨data, hloads, htype, hcursor, hvalid⟩ := hvalidate
      rw [hloads]
      simp only [htype, if_true, bridgeSseEvent, hcursor, hvalid]
      rfl

end Block

/-! ## One line -/

section Line
variable (D : Decoders)

abbrev takeLine : ParserState → Bytes → Gen Exc BridgeSSEEvent ParserState :=
  LineBuffer.boundedLine maxSseEventBytes (.sse .lineTooLong) (processByteLine D)

variable {D} {cur : List Text} {b : Bytes} {line : Text}

theorem takeLine_text (hlength : b.length ≤ maxSseEventBytes) (h : decodeLine b = some line)
    (s : ParserState) : takeLine D s b = processLine D s line := by
  rw [takeLine, LineBuffer.boundedLine_of_le hlength, processByteLine, h]

theorem takeLine_undecodable (hlength : b.length ≤ maxSseEventBytes) (h : decodeLine b = none)
    (s : ParserState) : takeLine D s b = Gen.raise .unicodeDecodeError := by
  rw [takeLine, LineBuffer.boundedLine_of_le hlength, processByteLine, h]

theorem takeLine_long (h : maxSseEventBytes < b.length) (s : ParserState) :
    takeLine D s b = Gen.raise (.sse .lineTooLong) := if_pos h

theorem blockDataBytes_le_of_lineFault (hcur : blockDataBytes cur ≤ maxSseEventBytes)
    (h : lineFault cur line = none) : blockDataBytes (cur ++ [line]) ≤ maxSseEventBytes := by
  have hunread : valueOf dataField line = none → blockDataBytes (cur ++ [line]) ≤
      maxSseEventBytes := by
    intro hvalue
    rw [blockDataBytes_concat, hvalue]
    exact hcur
  rw [lineFault] at h
  split at h
  · next checksum hsum =>
      apply hunread
      apply valueOf_comment
      by_contra hcomment
      rw [checksumOf_field hcomment] at hsum
      cases hsum
  · cases hvalue : valueOf dataField line with
    | none => exact hunread hvalue
    | some value =>
        rw [hvalue] at h
        split at h
        · cases h
        · next hsize => exact Nat.le_of_not_lt fun hbig => hsize ⟨rfl, hbig⟩

variable (D)

/-- The line is within the limit, and it or the block it ends is in order. -/
def LinePasses (taken : List Bytes) (b : Bytes) : Prop :=
  b.length ≤ maxSseEventBytes ∧ ∃ line, decodeLine b = some line ∧
    (line = [] → BlockPasses D (currentBlock taken)) ∧
    (line ≠ [] → lineFault (currentBlock taken) line = none)

/-- The line raises what the parser does not catch. -/
def LineEscapes (taken : List Bytes) (b : Bytes) : Prop :=
  b.length ≤ maxSseEventBytes ∧
    (decodeLine b = none ∨
      decodeLine b = some [] ∧ ∃ className, BlockRaises D (currentBlock taken) className)

/-- The line is beyond the limit, or it takes its block's data beyond it. -/
def LineOversized (taken : List Bytes) (b : Bytes) : Prop :=
  maxSseEventBytes < b.length ∨ ∃ line, decodeLine b = some line ∧ line ≠ [] ∧
    maxSseEventBytes < blockDataBytes (currentBlock taken ++ [line])

/-- A line is taken, raises what is not caught, or is refused. -/
inductive LineOutcome (taken : List Bytes) (b : Bytes) : Except Exc ParserState → Prop where
  | passed : LinePasses D taken b →
      LineOutcome taken b (.ok (blockState (currentBlock (taken ++ [b]))))
  | escaped {e} : LineEscapes D taken b → (∀ p, e ≠ Exc.sse p) → LineOutcome taken b (.error e)
  | refused {p} : (isSizeError p = true → LineOversized taken b) →
      LineOutcome taken b (.error (.sse p))

variable {D} {taken : List Bytes}

theorem lineFault_size {e : SSEParseError} (h : lineFault cur line = some e)
    (hsize : isSizeError e = true) : maxSseEventBytes < blockDataBytes (cur ++ [line]) := by
  rw [lineFault] at h
  split at h
  · split at h
    · cases h
    · cases h
      cases hsize
  · split at h
    · next hbig => exact hbig.2
    · cases h

theorem takeLine_blank_outcome (hlength : b.length ≤ maxSseEventBytes)
    (hdecode : decodeLine b = some []) :
    LineOutcome D taken b (takeLine D (blockState (currentBlock taken)) b).result := by
  have hnext : blockState (currentBlock (taken ++ [b])) = {} := by
    rw [currentBlock_blank hdecode, blockState_nil]
  rw [takeLine_text hlength hdecode, processLine_blank]
  have hblock := dispatchBlock_outcome D (currentBlock taken)
  cases hresult : (dispatchBlock D (blockState (currentBlock taken))).result with
  | ok done =>
      rw [Gen.bind_of_ok hresult]
      rw [hresult] at hblock
      cases hblock with
      | passed hpass =>
          have hline : LinePasses D taken b :=
            ⟨hlength, [], hdecode, fun _ => hpass, fun hne => absurd rfl hne⟩
          have hpassed := LineOutcome.passed hline
          rw [hnext] at hpassed
          exact hpassed
  | error e =>
      rw [Gen.bind_of_error hresult]
      rw [hresult] at hblock
      cases hblock with
      | raised hraise =>
          exact LineOutcome.escaped ⟨hlength, Or.inr ⟨hdecode, _, hraise⟩⟩ nofun
      | refused hsize =>
          apply LineOutcome.refused
          intro hover
          rw [hsize] at hover
          cases hover

/-- Step: what comes of one line. -/
theorem takeLine_outcome (taken : List Bytes) (b : Bytes) :
    LineOutcome D taken b (takeLine D (blockState (currentBlock taken)) b).result := by
  cases Nat.lt_or_ge maxSseEventBytes b.length with
  | inl hlong =>
      rw [takeLine_long hlong]
      exact LineOutcome.refused fun _ => Or.inl hlong
  | inr hlength =>
      cases hdecode : decodeLine b with
      | none =>
          rw [takeLine_undecodable hlength hdecode]
          exact LineOutcome.escaped ⟨hlength, Or.inl hdecode⟩ nofun
      | some line =>
          by_cases hblank : line = []
          · rw [hblank] at hdecode
            exact takeLine_blank_outcome hlength hdecode
          · rw [takeLine_text hlength hdecode, processLine_blockState D _ hblank]
            cases hfault : lineFault (currentBlock taken) line with
            | none =>
                have hline : LinePasses D taken b :=
                  ⟨hlength, line, hdecode, fun h => absurd h hblank, fun _ => hfault⟩
                have hpassed := LineOutcome.passed hline
                rw [currentBlock_line hdecode hblank] at hpassed
                exact hpassed
            | some p =>
                apply LineOutcome.refused
                intro hsize
                exact Or.inr ⟨line, hdecode, hblank, lineFault_size hfault hsize⟩

theorem takeLine_of_passes (h : LinePasses D taken b) :
    (takeLine D (blockState (currentBlock taken)) b).result =
      .ok (blockState (currentBlock (taken ++ [b]))) := by
  obtain ⟨hlength, line, hdecode, hblock, hfault⟩ := h
  rw [takeLine_text hlength hdecode]
  by_cases hblank : line = []
  · rw [hblank] at hdecode ⊢
    rw [processLine_blank, currentBlock_blank hdecode,
      Gen.bind_of_ok (dispatchBlock_of_passes (hblock hblank))]
    rfl
  · rw [processLine_blockState D _ hblank, hfault hblank, currentBlock_line hdecode hblank]
    rfl

theorem takeLine_of_escapes (h : LineEscapes D taken b) :
    ∃ e, (∀ p, e ≠ Exc.sse p) ∧
      (takeLine D (blockState (currentBlock taken)) b).result = .error e := by
  obtain ⟨hlength, hcause⟩ := h
  cases hcause with
  | inl hdecode =>
      rw [takeLine_undecodable hlength hdecode]
      exact ⟨.unicodeDecodeError, nofun, rfl⟩
  | inr hblock =>
      obtain ⟨hdecode, className, hraise⟩ := hblock
      rw [takeLine_text hlength hdecode, processLine_blank,
        Gen.bind_of_error (dispatchBlock_of_raises hraise)]
      exact ⟨.other className, nofun, rfl⟩

theorem takeLine_ok {s : ParserState}
    (h : (takeLine D (blockState (currentBlock taken)) b).result = .ok s) :
    LinePasses D taken b ∧ s = blockState (currentBlock (taken ++ [b])) := by
  have houtcome := takeLine_outcome (D := D) taken b
  rw [h] at houtcome
  cases houtcome with
  | passed hpass => exact ⟨hpass, rfl⟩

/-! ## Runs over lines -/

variable (D) in
def LinesPass (taken : List Bytes) : Prop := Log.EachAgainstPast (LinePasses D) taken

/-- Run: the lines are taken as far as each of them passes. -/
theorem runLines_ok_iff {s : ParserState} : (runLines D {} taken).result = .ok s ↔
    LinesPass D taken ∧ s = blockState (currentBlock taken) := by
  induction taken using List.reverseRecOn generalizing s with
  | nil =>
      rw [currentBlock_nil]
      constructor
      · intro h
        cases h
        exact ⟨Log.eachAgainstPast_nil _, rfl⟩
      · intro h
        rw [h.2]
        rfl
  | append_singleton taken b ih =>
      rw [LinesPass, Log.eachAgainstPast_concat]
      constructor
      · intro h
        obtain ⟨s₁, hbefore⟩ := Gen.foldlM_prefix_ok h
        obtain ⟨hpass, hstate⟩ := ih.mp hbefore
        rw [runLines, Gen.foldlM_concat_of_ok hbefore, hstate] at h
        obtain ⟨hline, hnext⟩ := takeLine_ok h
        exact ⟨⟨hpass, hline⟩, hnext⟩
      · intro h
        obtain ⟨⟨hpass, hline⟩, hstate⟩ := h
        rw [runLines, Gen.foldlM_concat_of_ok (ih.mpr ⟨hpass, rfl⟩), hstate]
        exact takeLine_of_passes hline

end Line

/-! ## Streams without a failure of their source -/

section Stream
variable {D : Decoders} {chunks : List Bytes}

theorem parseSseStream_error_iff {e : Exc} :
    (parseSseStream D ⟨chunks, none⟩).result = .error e ↔
      (parseBytes D chunks.flatten).result = .error e := by
  rw [parseSseStream_eq]
  cases hresult : (parseBytes D chunks.flatten).result with
  | error e' =>
      rw [Gen.bind_of_error hresult]
      exact ⟨fun h => congrArg Except.error (Except.error.inj h),
        fun h => congrArg Except.error (Except.error.inj h)⟩
  | ok s =>
      rw [Gen.bind_of_ok hresult]
      exact ⟨nofun, nofun⟩

theorem parseSseStream_ok (h : (parseSseStream D ⟨chunks, none⟩).result = .ok ()) :
    ∃ s, (parseBytes D chunks.flatten).result = .ok s := by
  rw [parseSseStream_eq] at h
  obtain ⟨s, hs, -, -⟩ := Gen.bind_result_ok h
  exact ⟨s, hs⟩

end Stream
end DualeAI.Sse
