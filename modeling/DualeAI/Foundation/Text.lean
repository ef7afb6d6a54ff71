import Mathlib.Data.List.Basic
import Mathlib.Data.List.DropRight
import Mathlib.Data.List.Infix
import Mathlib.Data.List.TakeWhile

/-!
Text and bytes as a Python program sees them.

A `Text` is a string without lone surrogates, which is what decoding UTF-8
produces; `Bytes` is what travels on a connection. The operations are those of
`str` and `bytes`: strict UTF-8, `strip` and its one-sided forms, `partition`
on a single character and the `08x` format of a 32-bit number.
-/
namespace Foundation

abbrev Text := List Char
abbrev Bytes := List UInt8

theorem any_tails {t : Text} {f : Text → Bool} :
    t.tails.any f = true ↔ ∃ u v, t = u ++ v ∧ f v = true := by
  simp only [List.any_eq_true, List.mem_tails]
  constructor
  · rintro ⟨v, ⟨u, rfl⟩, hv⟩
    exact ⟨u, v, rfl, hv⟩
  · rintro ⟨u, v, rfl, hv⟩
    exact ⟨v, ⟨u, rfl⟩, hv⟩

/-! ## UTF-8 -/

def encodeUtf8 (t : Text) : Bytes := t.flatMap String.utf8EncodeChar

/-- Strict decoding: `none` where `bytes.decode("utf-8")` raises. -/
def decodeUtf8 (b : Bytes) : Option Text := b.toByteArray.utf8Decode?.map Array.toList

@[simp] theorem encodeUtf8_nil : encodeUtf8 [] = [] := rfl

theorem encodeUtf8_cons (c : Char) (t : Text) :
    encodeUtf8 (c :: t) = String.utf8EncodeChar c ++ encodeUtf8 t := rfl

@[simp] theorem encodeUtf8_append (s t : Text) :
    encodeUtf8 (s ++ t) = encodeUtf8 s ++ encodeUtf8 t := by
  simp [encodeUtf8]

@[simp] theorem decodeUtf8_encodeUtf8 (t : Text) : decodeUtf8 (encodeUtf8 t) = some t := by
  have h : (encodeUtf8 t).toByteArray = t.utf8Encode := rfl
  simp [decodeUtf8, h, List.utf8Decode?_utf8Encode]

theorem encodeUtf8_injective : Function.Injective encodeUtf8 :=
  fun s t h => Option.some.inj (by rw [← decodeUtf8_encodeUtf8, h, decodeUtf8_encodeUtf8])

theorem utf8EncodeChar_cases (c : Char) :
    (c.toNat ≤ 0x7f ∧ String.utf8EncodeChar c = [UInt8.ofNat c.toNat]) ∨
      (0x7f < c.toNat ∧ ∀ b ∈ String.utf8EncodeChar c, 0x80 ≤ b.toNat) := by
  unfold String.utf8EncodeChar
  by_cases h1 : c.toNat ≤ 0x7f
  · exact .inl ⟨h1, if_pos h1⟩
  · refine .inr ⟨by omega, ?_⟩
    intro b hb
    have hb := (congrArg (b ∈ ·) (if_neg h1)).mp hb
    split at hb
    · simp only [List.mem_cons, List.not_mem_nil, or_false] at hb
      rcases hb with rfl | rfl <;> simp <;> omega
    · split at hb
      · simp only [List.mem_cons, List.not_mem_nil, or_false] at hb
        rcases hb with rfl | rfl | rfl <;> simp <;> omega
      · simp only [List.mem_cons, List.not_mem_nil, or_false] at hb
        rcases hb with rfl | rfl | rfl | rfl <;> simp <;> omega

theorem ascii_mem_utf8EncodeChar {a : Char} (ha : a.toNat ≤ 0x7f) (c : Char) :
    UInt8.ofNat a.toNat ∈ String.utf8EncodeChar c ↔ a = c := by
  have hsmall {d : Char} (hd : d.toNat ≤ 0x7f) : (UInt8.ofNat d.toNat).toNat = d.toNat :=
    UInt8.toNat_ofNat_of_lt' (Nat.lt_of_le_of_lt hd (by decide))
  rcases utf8EncodeChar_cases c with ⟨hc, he⟩ | ⟨hc, hbig⟩
  · rw [he, List.mem_singleton]
    constructor
    · intro h
      have hn := congrArg UInt8.toNat h
      rw [hsmall ha, hsmall hc] at hn
      exact Char.toNat_inj.mp hn
    · rintro rfl; rfl
  · constructor
    · intro h
      have := hbig _ h
      rw [hsmall ha] at this
      omega
    · rintro rfl; omega

/-- An ASCII byte occurs in the encoding exactly where its character does. -/
theorem ascii_mem_encodeUtf8 {a : Char} (ha : a.toNat ≤ 0x7f) (t : Text) :
    UInt8.ofNat a.toNat ∈ encodeUtf8 t ↔ a ∈ t := by
  induction t with
  | nil => simp
  | cons c t ih =>
      rw [encodeUtf8_cons, List.mem_append, ascii_mem_utf8EncodeChar ha, List.mem_cons]
      exact or_congr Iff.rfl ih

/-! ## Whitespace -/

/-- The characters for which `str.isspace` holds. -/
def isSpace (c : Char) : Bool :=
  let n := c.val.toNat
  (0x09 ≤ n && n ≤ 0x0d) || (0x1c ≤ n && n ≤ 0x20) || n == 0x85 || n == 0xa0 || n == 0x1680 ||
    (0x2000 ≤ n && n ≤ 0x200a) || n == 0x2028 || n == 0x2029 || n == 0x202f || n == 0x205f ||
    n == 0x3000

def lstrip (t : Text) : Text := t.dropWhile isSpace

def strip (t : Text) : Text := (lstrip t).rdropWhile isSpace

def rstripChar (c : Char) (t : Text) : Text := t.rdropWhile (· == c)

theorem rstripChar_of_not_getLast {c : Char} {t : Text}
    (h : t.getLast? ≠ some c) : rstripChar c t = t := by
  rw [rstripChar, List.rdropWhile_eq_self_iff]
  intro hne hc
  rw [beq_iff_eq] at hc
  exact h (by rw [List.getLast?_eq_some_getLast hne, hc])

theorem rstripChar_of_not_mem {c : Char} {t : Text} (h : c ∉ t) : rstripChar c t = t :=
  rstripChar_of_not_getLast fun hlast => h (List.mem_of_getLast? hlast)

@[simp] theorem rstripChar_append_self (c : Char) (t : Text) :
    rstripChar c (t ++ [c]) = rstripChar c t := by
  simp [rstripChar]

/-! ## Partition -/

/-- `str.partition` on a one-character separator, for a text that contains it. -/
def partition (sep : Char) (t : Text) : Text × Text :=
  (t.takeWhile (· != sep), (t.dropWhile (· != sep)).tail)

theorem partition_append {sep : Char} {t u : Text} (h : sep ∉ t) :
    partition sep (t ++ sep :: u) = (t, u) := by
  have ht : ∀ c ∈ t, (c != sep) = true := by
    intro c hc
    have : c ≠ sep := fun he => h (he ▸ hc)
    simp [this]
  simp [partition, List.takeWhile_append_of_pos ht, List.dropWhile_append_of_pos ht]

theorem append_partition {sep : Char} {t : Text} (h : sep ∈ t) :
    (partition sep t).1 ++ sep :: (partition sep t).2 = t := by
  obtain ⟨l, r, rfl, hl⟩ := List.eq_append_cons_of_mem h
  rw [partition_append hl]

def dropOneSpace : Text → Text
  | ' ' :: t => t
  | t => t

/-! ## Hexadecimal -/

def hexDigits : Text := "0123456789abcdef".toList

def hexValue (c : Char) : Option Nat :=
  if '0' ≤ c ∧ c ≤ '9' then some (c.toNat - '0'.toNat)
  else if 'a' ≤ c ∧ c ≤ 'f' then some (c.toNat - 'a'.toNat + 10)
  else if 'A' ≤ c ∧ c ≤ 'F' then some (c.toNat - 'A'.toNat + 10)
  else none

def hex08 (n : Nat) : Text :=
  let ds := Nat.toDigits 16 n
  List.replicate (8 - ds.length) '0' ++ ds

theorem toDigits_subset_hexDigits (n : Nat) : ∀ c ∈ Nat.toDigits 16 n, c ∈ hexDigits := by
  have hdigit : ∀ d : Fin 16, Nat.digitChar d ∈ hexDigits := by decide
  induction n using Nat.strongRecOn with
  | _ n ih =>
      intro c hc
      rw [Nat.toDigits_eq_if (by decide)] at hc
      split at hc
      · rw [List.mem_singleton] at hc
        subst hc
        exact hdigit ⟨n, by assumption⟩
      · rw [List.mem_append, List.mem_singleton] at hc
        rcases hc with hc | rfl
        · exact ih (n / 16) (by omega) c hc
        · exact hdigit ⟨n % 16, Nat.mod_lt _ (by decide)⟩

theorem hex08_subset (n : Nat) : ∀ c ∈ hex08 n, c ∈ hexDigits := by
  intro c hc
  rw [hex08, List.mem_append] at hc
  cases hc with
  | inl hc =>
      rw [(List.mem_replicate.mp hc).2]
      decide
  | inr hc => exact toDigits_subset_hexDigits n c hc

theorem hex08_length {n : Nat} (h : n < 0x100000000) : (hex08 n).length = 8 := by
  have hdigits : (Nat.toDigits 16 n).length ≤ 8 :=
    (Nat.length_toDigits_le_iff (by decide) (by decide)).mpr h
  rw [hex08, List.length_append, List.length_replicate]
  omega

end Foundation
