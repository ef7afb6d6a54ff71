import DualeAI.Events.SseRuns

/-!
Which exceptions escape the SSE parser.

It wraps what `json.loads` and the validation reject, and nothing else: the decoding of
a line stands outside every handler.
-/
namespace DualeAI.Sse
open Foundation

section Escapes
variable (D : Decoders) (stream : Bytes)

/-- Some line, all before it having passed, raises what is not caught. -/
def StreamEscapes : Prop :=
  ∃ front b back, LineBuffer.lines lf stream = front ++ b :: back ∧ LinesPass D front ∧
    LineEscapes D front b

variable {D stream}

theorem parseBytes_of_escapes (h : StreamEscapes D stream) :
    ∃ e, (∀ p, e ≠ Exc.sse p) ∧ (parseBytes D stream).result = .error e := by
  obtain ⟨front, b, back, hlines, hpass, hescape⟩ := h
  obtain ⟨e, hne, hresult⟩ := takeLine_of_escapes hescape
  refine ⟨e, hne, ?_⟩
  have hfront := runLines_ok_iff.mpr ⟨hpass, rfl⟩
  have hrun : (runLines D {} (LineBuffer.lines lf stream)).result = .error e := by
    rw [hlines, runLines, Gen.foldlM_append_of_ok hfront, List.foldlM_cons,
      Gen.bind_of_error hresult]
  rw [parseBytes, LineBuffer.wholeStream, Gen.bind_of_error hrun]

theorem escapes_of_parseBytes {e : Exc} (hne : ∀ p, e ≠ Exc.sse p)
    (h : (parseBytes D stream).result = .error e) : StreamEscapes D stream := by
  rw [parseBytes, LineBuffer.wholeStream] at h
  cases hrun : (runLines D {} (LineBuffer.lines lf stream)).result with
  | ok s =>
      rw [Gen.bind_of_ok hrun] at h
      split at h
      · cases h
        exact absurd rfl (hne _)
      · cases h
  | error e' =>
      rw [Gen.bind_of_error hrun] at h
      cases h
      obtain ⟨front, b, back, s, hlines, hfront, hb⟩ := Gen.foldlM_raises hrun
      obtain ⟨hpass, hstate⟩ := runLines_ok_iff.mp hfront
      rw [hstate] at hb
      have houtcome := takeLine_outcome (D := D) front b
      rw [hb] at houtcome
      cases houtcome with
      | escaped hescape _ => exact ⟨front, b, back, hlines, hpass, hescape⟩
      | refused _ => exact absurd rfl (hne _)

end Escapes

/-- The parser ends normally or with a parse error exactly on the streams no line of
which, all before it having passed, is no UTF-8 or ends a block that raises. -/
theorem parseSseStream_raises_iff (D : Decoders) (chunks : List Bytes) :
    (∀ e, (parseSseStream D ⟨chunks, none⟩).result = .error e → ∃ p, e = .sse p) ↔
      ¬ StreamEscapes D chunks.flatten := by
  constructor
  · intro h hescape
    obtain ⟨e, hne, he⟩ := parseBytes_of_escapes hescape
    obtain ⟨p, hp⟩ := h e (parseSseStream_error_iff.mpr he)
    exact hne p hp
  · intro h e he
    by_contra hne
    exact h (escapes_of_parseBytes (not_exists.mp hne) (parseSseStream_error_iff.mp he))

/-- A byte that no UTF-8 text holds. -/
theorem parseSseStream_raises_unicode :
    ¬ ∀ (D : Decoders) (chunks : List Bytes) (e : Exc),
      (parseSseStream D ⟨chunks, none⟩).result = .error e → ∃ p, e = .sse p := by
  intro h
  have hraises : (parseSseStream frozenDecoders ⟨[[0xff, lf]], none⟩).result =
      .error .unicodeDecodeError := by
    decide +kernel
  obtain ⟨p, hp⟩ := h frozenDecoders _ _ hraises
  cases hp

end DualeAI.Sse
