import DualeAI.Events.SseFraming
import DualeAI.Events.SseRuns

/-!
What the SSE parser holds at most, and what it refuses for its size.

The states of the parser are those of `LineBuffer.Reaches`. In each of them the data
lines and their byte count are the current block's.
-/
namespace DualeAI.Sse
open Foundation

section Parser
variable (D : Decoders)

/-- A state of the parser, with the chunks received and the lines taken off them. -/
abbrev ParserReaches : LineBuffer.Stage → List Bytes → List Bytes → ParserState → Bytes → Prop :=
  LineBuffer.Reaches lf maxSseEventBytes (processByteLine D) {}

variable {D} {stage : LineBuffer.Stage} {chunks taken : List Bytes} {s : ParserState}
  {buffer : Bytes}

theorem blockDataBytes_le_of_linesPass (h : LinesPass D taken) :
    blockDataBytes (currentBlock taken) ≤ maxSseEventBytes := by
  induction taken using List.reverseRecOn with
  | nil =>
      rw [currentBlock_nil]
      decide
  | append_singleton taken b ih =>
      obtain ⟨hpass, -, line, hdecode, -, hfault⟩ := Log.eachAgainstPast_concat.mp h
      by_cases hblank : line = []
      · rw [hblank] at hdecode
        rw [currentBlock_blank hdecode]
        decide
      · rw [currentBlock_line hdecode hblank]
        exact blockDataBytes_le_of_lineFault (ih hpass) (hfault hblank)

theorem ParserReaches.block (h : ParserReaches D stage chunks taken s buffer) :
    s = blockState (currentBlock taken) ∧
      blockDataBytes (currentBlock taken) ≤ maxSseEventBytes := by
  obtain ⟨hpass, hstate⟩ := runLines_ok_iff.mp (LineBuffer.Reaches.run h (.sse .lineTooLong))
  exact ⟨hstate, blockDataBytes_le_of_linesPass hpass⟩

theorem parserReaches_iff_processChunk :
    ParserReaches D .receiving chunks (LineBuffer.lines lf chunks.flatten) s buffer ↔
      (chunks.foldlM (processChunk D) ({}, [])).result = .ok (s, buffer) :=
  LineBuffer.reaches_iff_feed (Exc.sse .lineTooLong)

/-! ## A block within the limit -/

/-- The physical lines of a block and the blank line that ends it, each within the limit,
as is the joined data. -/
structure BlockWithin (bs : List Bytes) (blank : Bytes) : Prop where
  separated : ∀ b ∈ bs ++ [blank], lf ∉ b
  short : ∀ b ∈ bs ++ [blank], b.length ≤ maxSseEventBytes
  nonblank : ∀ b ∈ bs, decodeLine b ≠ some []
  ends : decodeLine blank = some []
  data : blockDataBytes (bs.filterMap decodeLine) ≤ maxSseEventBytes

variable {bs : List Bytes} {blank : Bytes}

theorem currentBlock_of_nonblank {front : List Bytes} (h : ∀ b ∈ front, decodeLine b ≠ some []) :
    currentBlock front = front.filterMap decodeLine := by
  have hextend := currentBlock_extend h []
  rw [List.nil_append, currentBlock_nil, List.nil_append] at hextend
  exact hextend

theorem BlockWithin.data_le (h : BlockWithin bs blank) {front back : List Bytes} {b : Bytes}
    {line : Text} (hsplit : bs = front ++ b :: back) (hdecode : decodeLine b = some line) :
    blockDataBytes (currentBlock front ++ [line]) ≤ maxSseEventBytes := by
  have hfront : ∀ b' ∈ front, decodeLine b' ≠ some [] := by
    intro b' hb'
    apply h.nonblank
    rw [hsplit]
    exact List.mem_append_left _ hb'
  have hall : bs.filterMap decodeLine =
      front.filterMap decodeLine ++ [line] ++ back.filterMap decodeLine := by
    rw [hsplit, List.filterMap_append, List.filterMap_cons_some hdecode, List.append_assoc,
      List.singleton_append]
  have hdata := h.data
  rw [hall] at hdata
  rw [currentBlock_of_nonblank hfront]
  exact Nat.le_trans (blockDataBytes_mono _ _) hdata

theorem BlockWithin.not_oversized (h : BlockWithin bs blank) :
    Log.EachAgainstPast (fun front b => ¬ LineOversized front b) (bs ++ [blank]) := by
  rw [Log.eachAgainstPast_concat]
  constructor
  · intro front b back hsplit hover
    have hmem : b ∈ bs := by
      rw [hsplit]
      exact List.mem_append_right _ List.mem_cons_self
    cases hover with
    | inl hlong => exact absurd hlong (Nat.not_lt.mpr (h.short b (List.mem_append_left _ hmem)))
    | inr hlarge =>
        obtain ⟨line, hdecode, -, hlarge⟩ := hlarge
        exact absurd (h.data_le hsplit hdecode) (Nat.not_le.mpr hlarge)
  · intro hover
    cases hover with
    | inl hlong =>
        have hmem : blank ∈ bs ++ [blank] := List.mem_append_right _ List.mem_cons_self
        exact absurd hlong (Nat.not_lt.mpr (h.short blank hmem))
    | inr hlarge =>
        obtain ⟨line, hdecode, hline, -⟩ := hlarge
        rw [h.ends] at hdecode
        exact hline (Option.some.inj hdecode).symm

def RejectedForSize {α : Type} (g : Gen Exc BridgeSSEEvent α) : Prop :=
  ∃ p, isSizeError p = true ∧ g.result = .error (.sse p)

theorem parseBytes_of_terminated {ls : List Bytes} (h : ∀ b ∈ ls, lf ∉ b) :
    parseBytes D (ls.flatMap (· ++ [lf])) = runLines D {} ls := by
  have hlines := LineBuffer.lines_flatMap h []
  have hresidue := LineBuffer.residue_flatMap h []
  rw [List.append_nil] at hlines hresidue
  rw [LineBuffer.lines_of_not_mem List.not_mem_nil, List.append_nil] at hlines
  rw [LineBuffer.residue_of_not_mem List.not_mem_nil] at hresidue
  rw [parseBytes, LineBuffer.wholeStream, hlines, hresidue]
  exact bind_pure _

theorem BlockWithin.not_rejected (h : BlockWithin bs blank) :
    ¬ RejectedForSize (parseBytes D ((bs ++ [blank]).flatMap (· ++ [lf]))) := by
  intro hreject
  obtain ⟨p, hsize, hresult⟩ := hreject
  rw [parseBytes_of_terminated h.separated] at hresult
  obtain ⟨front, b, back, s, hsplit, hfront, hb⟩ := Gen.foldlM_raises hresult
  obtain ⟨-, hstate⟩ := runLines_ok_iff.mp hfront
  rw [hstate] at hb
  have houtcome := takeLine_outcome (D := D) front b
  rw [hb] at houtcome
  cases houtcome with
  | escaped _ hne => exact hne p rfl
  | refused hover => exact h.not_oversized front b back hsplit (hover hsize)

/-! ## Whole streams -/

/-- All lines of the stream are complete, and no block is open. -/
def AtBlockBoundary (stream : Bytes) : Prop :=
  LineBuffer.residue lf stream = [] ∧ currentBlock (LineBuffer.lines lf stream) = []

theorem atBlockBoundary_of_endsAtBlankLine {stream : Bytes} (h : EndsAtBlankLine stream) :
    AtBlockBoundary stream := by
  obtain ⟨ls, crs, hlines, hresidue, hblank⟩ := lines_of_endsAtBlankLine h
  constructor
  · exact hresidue
  · rw [hlines, currentBlock_blank hblank]

theorem BlockWithin.boundary (h : BlockWithin bs blank) :
    AtBlockBoundary ((bs ++ [blank]).flatMap (· ++ [lf])) := by
  have hlines := LineBuffer.lines_flatMap h.separated []
  have hresidue := LineBuffer.residue_flatMap h.separated []
  rw [List.append_nil] at hlines hresidue
  constructor
  · rw [hresidue, LineBuffer.residue_of_not_mem List.not_mem_nil]
  · rw [hlines, LineBuffer.lines_of_not_mem List.not_mem_nil, List.append_nil,
      currentBlock_blank h.ends]

theorem parseBytes_of_boundary {stream : Bytes} (h : AtBlockBoundary stream) {s : ParserState}
    (hok : (parseBytes D stream).result = .ok s) (rest : Bytes) :
    (parseBytes D (stream ++ rest)).result = (parseBytes D rest).result := by
  rw [parseBytes, LineBuffer.wholeStream_append, h.1, List.nil_append]
  rw [parseBytes, LineBuffer.wholeStream] at hok
  obtain ⟨s₁, hlines, -, -⟩ := Gen.bind_result_ok hok
  rw [Gen.bind_of_ok hlines, (runLines_ok_iff.mp hlines).2, h.2, blockState_nil]
  rfl

theorem rejectedForSize_iff : RejectedForSize (parseSseStream D ⟨chunks, none⟩) ↔
    RejectedForSize (parseBytes D chunks.flatten) := by
  apply exists_congr
  intro p
  rw [parseSseStream_error_iff]

end Parser

/-- The data held is the current block's and within the limit, the buffer between chunks
is within it and holds no complete line, and no block within it is refused for its size,
neither while it arrives nor after it. -/
theorem parseSseStream_memory_bound (D : Decoders) :
    (∀ stage chunks taken s buffer, ParserReaches D stage chunks taken s buffer →
      s.dataLines = blockDataLines (currentBlock taken) ∧
      s.dataBytes = (encodeUtf8 (joinLines s.dataLines)).length ∧
      s.dataBytes ≤ maxSseEventBytes) ∧
    (∀ (chunks : List Bytes) (s : ParserState) (buffer : Bytes),
      (chunks.foldlM (processChunk D) ({}, [])).result = .ok (s, buffer) →
      buffer.length ≤ maxSseEventBytes ∧ lf ∉ buffer) ∧
    ∀ (before : Bytes) (bs : List Bytes) (blank : Bytes), AtBlockBoundary before →
      (parseSseStream D ⟨[before], none⟩).result = .ok () → BlockWithin bs blank →
      ∀ (chunks : List Bytes) (rest : Bytes),
        (chunks.flatten ++ rest = before ++ (bs ++ [blank]).flatMap (· ++ [lf]) →
          ¬ RejectedForSize (parseSseStream D ⟨chunks, none⟩)) ∧
        (chunks.flatten = before ++ (bs ++ [blank]).flatMap (· ++ [lf]) ++ rest →
          RejectedForSize (parseSseStream D ⟨chunks, none⟩) →
          RejectedForSize (parseSseStream D ⟨[rest], none⟩)) := by
  refine ⟨?_, ?_, ?_⟩
  · intro stage chunks taken s buffer h
    obtain ⟨hstate, hsize⟩ := ParserReaches.block h
    rw [hstate]
    exact ⟨rfl, rfl, hsize⟩
  · intro chunks s buffer h
    exact (LineBuffer.Reaches.buffer_bound (parserReaches_iff_processChunk.mpr h)).symm
  · intro before bs blank hbefore hok hblock chunks rest
    obtain ⟨s, hs⟩ := parseSseStream_ok hok
    rw [List.flatten_singleton] at hs
    constructor
    · intro hstream hreject
      obtain ⟨p, hsize, hp⟩ := rejectedForSize_iff.mp hreject
      have hwhole := LineBuffer.wholeStream_append_of_error hp rest
      rw [hstream] at hwhole
      rw [← parseBytes, parseBytes_of_boundary hbefore hs] at hwhole
      exact hblock.not_rejected ⟨p, hsize, hwhole⟩
    · intro hstream hreject
      obtain ⟨p, hsize, hp⟩ := rejectedForSize_iff.mp hreject
      rw [hstream, List.append_assoc, parseBytes_of_boundary hbefore hs] at hp
      cases hresult : (parseBytes D ((bs ++ [blank]).flatMap (· ++ [lf]))).result with
      | error e =>
          have hwhole := LineBuffer.wholeStream_append_of_error hresult rest
          rw [← parseBytes, hp] at hwhole
          cases hwhole
          exact absurd ⟨p, hsize, hresult⟩ hblock.not_rejected
      | ok s' =>
          rw [parseBytes_of_boundary hblock.boundary hresult] at hp
          apply rejectedForSize_iff.mpr
          rw [List.flatten_singleton]
          exact ⟨p, hsize, hp⟩

/-! A block of two data lines whose joined data has exactly the limit's length. -/

def exactBlock : List Bytes := [(spaceLine 4194304).bytes, (spaceLine 4194303).bytes]

theorem decodeLine_spaceLine (n : Nat) :
    decodeLine (spaceLine n).bytes = some (fieldLine dataField (List.replicate n ' ')) := by
  rw [WireLine.decodeLine_bytes, spaceLine_seen]
  rfl

theorem blockDataBytes_spaces (m n : Nat) :
    blockDataBytes ([(spaceLine m).bytes, (spaceLine n).bytes].filterMap decodeLine) =
      m + n + 1 := by
  rw [List.filterMap_cons_some (decodeLine_spaceLine m),
    List.filterMap_cons_some (decodeLine_spaceLine n), List.filterMap_nil]
  simp only [blockDataBytes, blockData, blockDataLines, List.filterMap_cons, List.filterMap_nil,
    valueOf_fieldLine, List.mem_cons, true_or, or_true, if_true]
  have hjoin := joinLines_concat_bytes [List.replicate m ' '] (List.replicate n ' ')
  rw [List.singleton_append] at hjoin
  rw [hjoin, encodeUtf8_spaces, if_neg (List.cons_ne_nil _ _)]
  simp only [joinLines, List.intercalate, List.intersperse, List.flatten_singleton,
    encodeUtf8_spaces]

theorem blockWithin_spaces {m n : Nat} (hm : m + 6 ≤ maxSseEventBytes)
    (hn : n + 6 ≤ maxSseEventBytes) (h : m + n + 1 ≤ maxSseEventBytes) :
    BlockWithin [(spaceLine m).bytes, (spaceLine n).bytes] [] := by
  have hsend : ∀ b ∈ [(spaceLine m).bytes, (spaceLine n).bytes], ∃ k,
      b = (spaceLine k).bytes ∧ (spaceLine k).Sendable := by
    intro b hb
    cases List.mem_cons.mp hb with
    | inl heq => exact ⟨m, heq, spaceLine_sendable hm⟩
    | inr hb => exact ⟨n, List.mem_singleton.mp hb, spaceLine_sendable hn⟩
  refine ⟨?_, ?_, ?_, rfl, ?_⟩
  · intro b hb
    cases List.mem_append.mp hb with
    | inl hb =>
        obtain ⟨k, rfl, hk⟩ := hsend b hb
        exact WireLine.lf_not_mem_bytes hk.oneLine
    | inr hb =>
        rw [List.mem_singleton.mp hb]
        exact List.not_mem_nil
  · intro b hb
    cases List.mem_append.mp hb with
    | inl hb =>
        obtain ⟨k, rfl, hk⟩ := hsend b hb
        exact hk.short
    | inr hb =>
        rw [List.mem_singleton.mp hb]
        exact Nat.zero_le _
  · intro b hb
    obtain ⟨k, rfl, -⟩ := hsend b hb
    rw [decodeLine_spaceLine]
    exact fun heq => List.cons_ne_nil _ _ (Option.some.inj heq)
  · rw [blockDataBytes_spaces]
    exact h

theorem parseSseStream_memory_bound_exact :
    blockDataBytes (exactBlock.filterMap decodeLine) = maxSseEventBytes ∧
      ¬ RejectedForSize (parseSseStream frozenDecoders
        ⟨[frozenWire, (exactBlock ++ [[]]).flatMap (· ++ [lf])], none⟩) := by
  refine ⟨blockDataBytes_spaces 4194304 4194303, ?_⟩
  have hwithin : BlockWithin exactBlock [] :=
    blockWithin_spaces (by decide) (by decide) (by decide)
  refine ((parseSseStream_memory_bound frozenDecoders).2.2 frozenWire exactBlock []
    (atBlockBoundary_of_endsAtBlankLine frozenWire_endsAtBlankLine) (by decide +kernel) hwithin _
    []).1 ?_
  rw [List.flatten_cons, List.flatten_singleton, List.append_nil]

end DualeAI.Sse
