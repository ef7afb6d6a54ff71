import DualeAI.Foundation.Text
import Mathlib.Data.List.TakeWhile

/-!
How the path, the query and the fragment of a URI are read.

A `#` starts the fragment and a `?` before it the query; what is left is split at
each `/`. The segments `.` and `..` name no resource of their own, and any other
segment is percent-decoded to bytes.
-/
namespace Foundation

/-- `t` up to the first `sep`, and what follows it. -/
def cut (sep : Char) (t : Text) : Text × Option Text :=
  if sep ∈ t then ((partition sep t).1, some (partition sep t).2) else (t, none)

theorem cut_of_notMem {sep : Char} {t : Text} (h : sep ∉ t) : cut sep t = (t, none) := if_neg h

theorem notMem_of_cut {sep : Char} {t : Text} (h : (cut sep t).2 = none) : sep ∉ t := by
  intro hmem
  rw [cut, if_pos hmem] at h
  cases h

/-! ## Percent-decoding -/

/-- The byte that a `%` and two hexadecimal digits stand for. -/
def escapedByte : Text → Option UInt8
  | '%' :: a :: b :: _ => do return UInt8.ofNat (16 * (← hexValue a) + (← hexValue b))
  | _ => none

def percentDecode : Text → Bytes
  | [] => []
  | c :: t =>
      match escapedByte (c :: t) with
      | some byte => byte :: percentDecode (t.drop 2)
      | none => String.utf8EncodeChar c ++ percentDecode t
termination_by t => t.length

def hasEscape (t : Text) : Bool := t.tails.any fun u => (escapedByte u).isSome

theorem hasEscape_cons {c : Char} {t : Text} :
    hasEscape (c :: t) = ((escapedByte (c :: t)).isSome || hasEscape t) := rfl

theorem percentDecode_of_not_hasEscape {t : Text} (h : hasEscape t = false) :
    percentDecode t = encodeUtf8 t := by
  induction t with
  | nil => rw [percentDecode, encodeUtf8_nil]
  | cons c t ih =>
      rw [hasEscape_cons, Bool.or_eq_false_iff] at h
      have hnone := Option.isNone_iff_eq_none.mp (Option.isSome_eq_false_iff.mp h.1)
      rw [percentDecode, hnone, encodeUtf8_cons, ih h.2]

theorem escapedByte_some {c : Char} {t : Text} {byte : UInt8}
    (h : escapedByte (c :: t) = some byte) : ∃ a b u, t = a :: b :: u := by
  match t with
  | [] => simp [escapedByte] at h
  | [_] => simp [escapedByte] at h
  | a :: b :: u => exact ⟨a, b, u, rfl⟩

theorem utf8EncodeChar_length_pos (c : Char) : 0 < (String.utf8EncodeChar c).length := by
  rw [String.length_utf8EncodeChar]
  exact Char.utf8Size_pos c

/-- An escape is one byte in place of three. -/
theorem percentDecode_length (t : Text) :
    (percentDecode t).length ≤ (encodeUtf8 t).length ∧
      (hasEscape t = true → (percentDecode t).length < (encodeUtf8 t).length) := by
  fun_induction percentDecode t with
  | case1 => exact ⟨le_refl _, fun h => by cases h⟩
  | case2 c t byte hbyte ih =>
      obtain ⟨a, b, u, rfl⟩ := escapedByte_some hbyte
      have hc := utf8EncodeChar_length_pos c
      have ha := utf8EncodeChar_length_pos a
      simp only [List.drop_succ_cons, List.drop_zero] at ih
      simp only [List.drop_succ_cons, List.drop_zero, encodeUtf8_cons, List.length_append,
        List.length_cons]
      omega
  | case3 c t hnone ih =>
      rw [hasEscape_cons, hnone, Option.isSome_none, Bool.false_or, encodeUtf8_cons,
        List.length_append, List.length_append]
      exact ⟨Nat.add_le_add_left ih.1 _, fun h => Nat.add_lt_add_left (ih.2 h) _⟩

theorem percentDecode_eq_iff {t : Text} : percentDecode t = encodeUtf8 t ↔ hasEscape t = false := by
  constructor
  · intro heq
    rw [← Bool.not_eq_true]
    intro hescape
    have hlt := (percentDecode_length t).2 hescape
    rw [heq] at hlt
    exact lt_irrefl _ hlt
  · exact percentDecode_of_not_hasEscape

/-! ## Percent-encoding -/

/-- The bytes that `urllib.parse.quote` never escapes. -/
def isUnreserved (byte : UInt8) : Bool :=
  let n := byte.toNat
  0x30 ≤ n && n ≤ 0x39 || 0x41 ≤ n && n ≤ 0x5a || 0x61 ≤ n && n ≤ 0x7a || n == 0x2d || n == 0x2e ||
    n == 0x5f || n == 0x7e

def upperHexDigit (n : Nat) : Char := Char.ofNat (if n < 10 then 0x30 + n else 0x37 + n)

def quoteByte (byte : UInt8) : Text :=
  if isUnreserved byte then [Char.ofNat byte.toNat]
  else ['%', upperHexDigit (byte.toNat / 16), upperHexDigit (byte.toNat % 16)]

/-- `quote(t, safe="")`. -/
def quote (t : Text) : Text := (encodeUtf8 t).flatMap quoteByte

theorem upperHexDigit_spec : ∀ n : Fin 16, hexValue (upperHexDigit n) = some n.val ∧
    upperHexDigit n ∉ ['/', '?', '#'] := by decide

theorem unreserved_spec : ∀ n : Fin 256, isUnreserved (UInt8.ofNat n) = true →
    String.utf8EncodeChar (Char.ofNat n) = [UInt8.ofNat n] ∧
      Char.ofNat n ∉ ['%', '/', '?', '#'] := by decide +kernel

theorem escapedByte_of_ne {c : Char} {t : Text} (h : c ≠ '%') : escapedByte (c :: t) = none := by
  rw [escapedByte.eq_def]
  split
  · next heq => exact absurd (List.cons.inj heq).1 h
  · rfl

theorem percentDecode_quoteByte (byte : UInt8) (t : Text) :
    percentDecode (quoteByte byte ++ t) = byte :: percentDecode t := by
  have hlt := byte.toNat_lt
  rw [quoteByte]
  split
  · next hsafe =>
      obtain ⟨hencode, hnot⟩ := unreserved_spec ⟨byte.toNat, hlt⟩ (by simpa using hsafe)
      have hne : Char.ofNat byte.toNat ≠ '%' := fun heq => hnot (heq ▸ List.mem_cons_self)
      rw [List.cons_append, List.nil_append, percentDecode, escapedByte_of_ne hne, hencode]
      simp
  · have hhigh := (upperHexDigit_spec ⟨byte.toNat / 16, by omega⟩).1
    have hlow := (upperHexDigit_spec ⟨byte.toNat % 16, Nat.mod_lt _ (by decide)⟩).1
    have hbyte : escapedByte ('%' :: upperHexDigit (byte.toNat / 16) ::
        upperHexDigit (byte.toNat % 16) :: t) = some byte := by
      rw [escapedByte, hhigh, hlow]
      change some (UInt8.ofNat (16 * (byte.toNat / 16) + byte.toNat % 16)) = some byte
      rw [Nat.div_add_mod, UInt8.ofNat_toNat]
    simp only [List.cons_append, List.nil_append]
    rw [percentDecode, hbyte]
    rfl

theorem percentDecode_quote (t : Text) : percentDecode (quote t) = encodeUtf8 t := by
  rw [quote]
  induction encodeUtf8 t with
  | nil => rw [List.flatMap_nil, percentDecode]
  | cons byte bytes ih => rw [List.flatMap_cons, percentDecode_quoteByte, ih]

theorem quote_injective : Function.Injective quote := fun s t h =>
  encodeUtf8_injective (by rw [← percentDecode_quote, h, percentDecode_quote])

/-- What is quoted has none of the characters that delimit a path. -/
theorem notMem_quote {c : Char} (hc : c ∈ ['/', '?', '#']) (t : Text) : c ∉ quote t := by
  intro hmem
  obtain ⟨byte, -, hbyte⟩ := List.mem_flatMap.mp hmem
  have hlt := byte.toNat_lt
  rw [quoteByte] at hbyte
  split at hbyte
  · next hsafe =>
      have hnot := (unreserved_spec ⟨byte.toNat, hlt⟩ (by simpa using hsafe)).2
      exact hnot (List.mem_singleton.mp hbyte ▸ List.mem_cons_of_mem _ hc)
  · have hhigh := (upperHexDigit_spec ⟨byte.toNat / 16, by omega⟩).2
    have hlow := (upperHexDigit_spec ⟨byte.toNat % 16, Nat.mod_lt _ (by decide)⟩).2
    rcases List.mem_cons.mp hbyte with rfl | hdigits
    · exact absurd hc (by decide)
    · rcases List.mem_cons.mp hdigits with rfl | hlast
      · exact hhigh hc
      · exact hlow (List.mem_singleton.mp hlast ▸ hc)

/-! ## References -/

inductive Segment where
  | name (bytes : Bytes)
  | here
  | up
  deriving DecidableEq

def readSegment (s : Text) : Segment :=
  if s = ['.'] then .here else if s = ['.', '.'] then .up else .name (percentDecode s)

def segments (path : Text) : List Segment := (path.splitOn '/').map readSegment

structure Reference where
  segments : List Segment
  query : Option Text
  fragment : Option Text
  deriving DecidableEq

def readReference (t : Text) : Reference :=
  let rest := (cut '#' t).1
  ⟨segments (cut '?' rest).1, (cut '?' rest).2, (cut '#' t).2⟩

/-- Put into a path as it is, such a text is one segment and names itself. -/
structure IsPlainSegment (s : Text) : Prop where
  no_slash : '/' ∉ s
  no_delimiter : '?' ∉ s ∧ '#' ∉ s
  no_escape : hasEscape s = false
  not_dots : s ≠ ['.'] ∧ s ≠ ['.', '.']

theorem readSegment_eq_iff {s : Text} :
    readSegment s = .name (encodeUtf8 s) ↔
      hasEscape s = false ∧ s ≠ ['.'] ∧ s ≠ ['.', '.'] := by
  rw [readSegment, ← percentDecode_eq_iff]
  split
  · next h => simp [h]
  · next hhere =>
      split
      · next h => simp [h]
      · next hup => simp [hhere, hup]

theorem segments_append (s t : Text) : segments (s ++ '/' :: t) = segments s ++ segments t := by
  simp only [segments, List.splitOn_eq_splitOnP]
  rw [List.splitOnP_append_cons (p := (· == '/')) s t (beq_self_eq_true '/'), List.map_append]

theorem segments_ne_nil (s : Text) : segments s ≠ [] := by
  rw [segments, List.splitOn_eq_splitOnP, Ne, List.map_eq_nil_iff]
  exact List.splitOnP_ne_nil _ s

theorem segments_of_notMem {s : Text} (h : '/' ∉ s) : segments s = [readSegment s] := by
  have hne : ∀ c ∈ s, (c == '/') = false := fun c hc =>
    beq_eq_false_iff_ne.mpr fun heq => h (heq ▸ hc)
  rw [segments, List.splitOn_eq_splitOnP, List.splitOnP_eq_singleton hne]
  rfl

theorem quote_eq_dots_iff {t : Text} :
    (quote t = ['.'] ↔ t = ['.']) ∧ (quote t = ['.', '.'] ↔ t = ['.', '.']) := by
  have hone : quote ['.'] = ['.'] := by decide
  have htwo : quote ['.', '.'] = ['.', '.'] := by decide
  constructor
  · exact ⟨fun h => quote_injective (h.trans hone.symm), fun h => h ▸ hone⟩
  · exact ⟨fun h => quote_injective (h.trans htwo.symm), fun h => h ▸ htwo⟩

/-- A quoted text names itself, unless it is one of the segments that name nothing. -/
theorem readSegment_quote_iff {t : Text} :
    readSegment (quote t) = .name (encodeUtf8 t) ↔ t ≠ ['.'] ∧ t ≠ ['.', '.'] := by
  simp only [readSegment, quote_eq_dots_iff.1, quote_eq_dots_iff.2, percentDecode_quote]
  split
  · next h => simp [h]
  · next hhere =>
      split
      · next h => simp [h]
      · next hup => simp [hhere, hup]

theorem isPlainSegment_iff {s : Text} :
    segments s = [.name (encodeUtf8 s)] ∧ '?' ∉ s ∧ '#' ∉ s ↔ IsPlainSegment s := by
  by_cases hmem : '/' ∈ s
  · refine iff_of_false (fun h => ?_) fun h => h.no_slash hmem
    obtain ⟨t, u, rfl, -⟩ := List.eq_append_cons_of_mem hmem
    have hlength := congrArg List.length h.1
    rw [segments_append, List.length_append, List.length_singleton] at hlength
    have ht := List.length_pos_iff.mpr (segments_ne_nil t)
    have hu := List.length_pos_iff.mpr (segments_ne_nil u)
    omega
  · rw [segments_of_notMem hmem, List.singleton_inj, readSegment_eq_iff]
    exact ⟨fun ⟨⟨hescape, hdots⟩, hdelimiter⟩ => ⟨hmem, hdelimiter, hescape, hdots⟩,
      fun h => ⟨⟨h.no_escape, h.not_dots⟩, h.no_delimiter⟩⟩

/-- A reference without query and fragment. -/
theorem readReference_eq_iff {t : Text} {read : List Segment} :
    readReference t = ⟨read, none, none⟩ ↔ segments t = read ∧ '?' ∉ t ∧ '#' ∉ t := by
  constructor
  · intro h
    have hfragment : '#' ∉ t := notMem_of_cut (congrArg Reference.fragment h)
    simp only [readReference, cut_of_notMem hfragment] at h
    have hquery : '?' ∉ t := notMem_of_cut (congrArg Reference.query h)
    have hsegments := congrArg Reference.segments h
    rw [cut_of_notMem hquery] at hsegments
    exact ⟨hsegments, hquery, hfragment⟩
  · rintro ⟨rfl, hquery, hfragment⟩
    simp only [readReference, cut_of_notMem hfragment, cut_of_notMem hquery]

end Foundation
