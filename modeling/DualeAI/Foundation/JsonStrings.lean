import DualeAI.Foundation.JsonText

/-!
The strings of a JSON text.

Every code is written as what it is in UTF-16, and read back from that: a string comes
back as it was but for surrogates that stand in it as a pair, which are joined.
-/
namespace Foundation.JsonText
open CodePoint

/-! ## Escapes -/

theorem hexValue_digitChar (d : Nat) (h : d < 16) : hexValue (Nat.digitChar d) = some d := by
  have hall : ∀ d : Fin 16, hexValue (Nat.digitChar d) = some d.val := by decide
  exact hall ⟨d, h⟩

theorem hexUnit_hex04 {n : Nat} (h : n < 0x10000) :
    hexUnit (Nat.digitChar (n / 4096)) (Nat.digitChar (n / 256 % 16))
      (Nat.digitChar (n / 16 % 16)) (Nat.digitChar (n % 16)) = some n := by
  have hsum : 4096 * (n / 4096) + 256 * (n / 256 % 16) + 16 * (n / 16 % 16) + n % 16 = n := by omega
  simp only [hexUnit, hexValue_digitChar (n / 4096) (by omega),
    hexValue_digitChar (n / 256 % 16) (by omega), hexValue_digitChar (n / 16 % 16) (by omega),
    hexValue_digitChar (n % 16) (by omega), Option.bind_eq_bind, Option.bind_some, hsum]
  rfl

theorem scanCodes_unit {n : Nat} (h : n < 0x10000) (t : Text) :
    scanCodes (escapeUnit n ++ t) =
      (scanCodes t).map fun (codes, rest) => (n :: codes, rest) := by
  simp only [escapeUnit, hex04, List.map_cons, List.map_nil, List.cons_append, List.nil_append,
    scanCodes, hexUnit_hex04 h, Option.bind_eq_bind, Option.bind_some]
  cases scanCodes t <;> rfl

theorem scanCodes_plain {c : Char} (hquote : c ≠ '"') (hescape : c ≠ '\\') (h : ' ' ≤ c)
    (t : Text) :
    scanCodes (c :: t) = (scanCodes t).map fun (codes, rest) => (c.toNat :: codes, rest) := by
  have hcontrol : ¬ (c < ' ' ∨ c = '\\') := by
    rintro (hlt | heq)
    · exact absurd h (Char.not_le.mpr hlt)
    · exact hescape heq
  rw [scanCodes]
  · rw [if_neg hcontrol]
    cases scanCodes t <;> rfl
  · exact hquote
  · exact fun _ _ _ _ _ h _ => hescape h
  · exact fun _ _ h _ => hescape h

theorem scanCodes_escaped {letter c : Char} (hletter : letter ≠ 'u') (h : unescape letter = some c)
    (t : Text) :
    scanCodes ('\\' :: letter :: t) =
      (scanCodes t).map fun (codes, rest) => (c.toNat :: codes, rest) := by
  rw [scanCodes]
  · simp only [h, Option.bind_eq_bind, Option.bind_some]
    cases scanCodes t <;> rfl
  · exact fun _ _ _ _ _ h _ => hletter h

/-- A code in UTF-16. -/
def codeUnit (n : Nat) : List Nat :=
  if n < 0x10000 then [n]
  else [0xd800 + (n - 0x10000) / 0x400, 0xdc00 + (n - 0x10000) % 0x400]

theorem scanCodes_escapeChar (c : Char) (t : Text) :
    scanCodes (escapeChar c ++ t) =
      (scanCodes t).map fun (codes, rest) => (codeUnit c.toNat ++ codes, rest) := by
  rw [escapeChar.eq_def]
  split
  case h_8 hquote hescape _ _ _ _ _ =>
    by_cases hplain : ' ' ≤ c ∧ c ≤ '~'
    · have hsmall : c.toNat < 0x10000 := Nat.lt_of_le_of_lt hplain.2 (by decide)
      rw [if_pos hplain, codeUnit, if_pos hsmall]
      exact scanCodes_plain hquote hescape hplain.1 t
    · rw [if_neg hplain]
      by_cases hunit : c.toNat < 0x10000
      · rw [if_pos hunit, scanCodes_unit hunit, codeUnit, if_pos hunit]
        rfl
      · have hvalid : c.toNat < 0xd800 ∨ 0xdfff < c.toNat ∧ c.toNat < 0x110000 := c.valid
        rw [if_neg hunit, codeUnit, if_neg hunit]
        dsimp only
        rw [List.append_assoc, scanCodes_unit (by omega), scanCodes_unit (by omega)]
        cases scanCodes t <;> rfl
  all_goals exact scanCodes_escaped (by decide) rfl t

theorem scanCodes_escapeCode {n : Nat} (h : n < 0x110000) (t : Text) :
    scanCodes (escapeCode n ++ t) =
      (scanCodes t).map fun (codes, rest) => (codeUnit n ++ codes, rest) := by
  rw [escapeCode]
  cases hsurrogate : isSurrogate n with
  | false =>
      rw [if_neg Bool.false_ne_true, scanCodes_escapeChar, toNat_ofNat h hsurrogate]
  | true =>
      have hsmall : n < 0x10000 := by
        simp only [isSurrogate, isHighSurrogate, isLowSurrogate, Bool.or_eq_true,
          Bool.and_eq_true, decide_eq_true_eq] at hsurrogate
        omega
      rw [if_pos rfl, scanCodes_unit hsmall, codeUnit, if_pos hsmall]
      rfl

theorem scanCodes_escape {codes : List Nat} (h : ∀ n ∈ codes, n < 0x110000) (rest : Text) :
    scanCodes (codes.flatMap escapeCode ++ '"' :: rest) =
      some (codes.flatMap codeUnit, rest) := by
  induction codes with
  | nil => rfl
  | cons n codes ih =>
      rw [List.flatMap_cons, List.append_assoc, scanCodes_escapeCode (h n List.mem_cons_self),
        ih fun m hm => h m (List.mem_cons_of_mem n hm)]
      rfl

/-! ## Pairs of surrogates -/

/-- No high surrogate stands right before a low one. -/
def unpaired : List Nat → Bool
  | high :: low :: codes => !isPair high low && unpaired (low :: codes)
  | _ => true

theorem isPair_iff {high low : Nat} : isPair high low = true ↔
    0xd800 ≤ high ∧ high ≤ 0xdbff ∧ 0xdc00 ≤ low ∧ low ≤ 0xdfff := by
  simp only [isPair, isHighSurrogate, isLowSurrogate, Bool.and_eq_true, decide_eq_true_eq]
  exact and_assoc

theorem ofPair_bounds {high low : Nat} (h : isPair high low = true) :
    0x10000 ≤ ofPair high low ∧ ofPair high low < 0x110000 := by
  rw [isPair_iff] at h
  unfold ofPair
  omega

/-- A pair stands below `0x10000`. -/
theorem isPair_eq_false {high low : Nat} (h : 0x10000 ≤ high ∨ 0x10000 ≤ low) :
    isPair high low = false := by
  cases hpair : isPair high low with
  | false => rfl
  | true =>
      have hbounds := isPair_iff.mp hpair
      omega

theorem unpaired_cons {n : Nat} {codes : List Nat} : unpaired (n :: codes) = true ↔
    (∀ m ∈ codes.head?, isPair n m = false) ∧ unpaired codes = true := by
  cases codes with
  | nil => simp [unpaired]
  | cons m codes => simp [unpaired]

theorem joinSurrogates_cons {n : Nat} {codes : List Nat}
    (h : ∀ m ∈ codes.head?, isPair n m = false) :
    joinSurrogates (n :: codes) = n :: joinSurrogates codes := by
  cases codes with
  | nil => rfl
  | cons m codes =>
      have hnot : isPair n m = false := h m rfl
      rw [joinSurrogates, hnot, if_neg Bool.false_ne_true]

theorem joinSurrogates_pair {high low : Nat} (h : isPair high low = true) (codes : List Nat) :
    joinSurrogates (high :: low :: codes) = ofPair high low :: joinSurrogates codes := by
  rw [joinSurrogates, if_pos h]

/-- The first code stays, or was joined to the one after it. -/
theorem head?_joinSurrogates {n m : Nat} {codes : List Nat}
    (h : m ∈ (joinSurrogates (n :: codes)).head?) : m = n ∨ 0x10000 ≤ m := by
  cases codes with
  | nil =>
      cases h
      exact .inl rfl
  | cons low codes =>
      rw [joinSurrogates] at h
      split at h
      · next hpair =>
          rw [List.head?_cons, Option.mem_some_iff] at h
          exact .inr (h ▸ (ofPair_bounds hpair).1)
      · cases h
        exact .inl rfl

theorem unpaired_joinSurrogates (codes : List Nat) : unpaired (joinSurrogates codes) = true := by
  fun_induction joinSurrogates codes with
  | case1 high low codes hpair ih =>
      exact unpaired_cons.mpr ⟨fun m _ => isPair_eq_false (.inl (ofPair_bounds hpair).1), ih⟩
  | case2 high low codes hpair ih =>
      refine unpaired_cons.mpr ⟨fun m hm => ?_, ih⟩
      cases head?_joinSurrogates hm with
      | inl hlow => exact hlow ▸ Bool.not_eq_true _ ▸ hpair
      | inr hlarge => exact isPair_eq_false (.inr hlarge)
  | case3 codes hshort =>
      match codes with
      | [] | [_] => rfl
      | high :: low :: codes => exact absurd rfl (hshort high low codes)

theorem joinSurrogates_eq_self_iff {codes : List Nat} :
    joinSurrogates codes = codes ↔ unpaired codes = true := by
  constructor
  · exact fun h => h ▸ unpaired_joinSurrogates codes
  · intro h
    induction codes with
    | nil => rfl
    | cons n codes ih =>
        obtain ⟨hhead, hrest⟩ := unpaired_cons.mp h
        rw [joinSurrogates_cons hhead, ih hrest]

theorem mem_joinSurrogates {n : Nat} {codes : List Nat} (h : n ∈ joinSurrogates codes) :
    n ∈ codes ∨ 0x10000 ≤ n ∧ n < 0x110000 := by
  fun_induction joinSurrogates codes with
  | case1 high low codes hpair ih =>
      cases List.mem_cons.mp h with
      | inl heq => exact .inr (heq ▸ ofPair_bounds hpair)
      | inr hmem => exact (ih hmem).imp_left fun hmem => by simp [hmem]
  | case2 high low codes hpair ih =>
      cases List.mem_cons.mp h with
      | inl heq => exact .inl (heq ▸ List.mem_cons_self)
      | inr hmem => exact (ih hmem).imp_left (List.mem_cons_of_mem high)
  | case3 codes hshort => exact .inl h

theorem codeUnit_of_small {n : Nat} (h : n < 0x10000) : codeUnit n = [n] := if_pos h

/-- The units of a code that has two are a pair, and stand for it. -/
theorem codeUnit_of_large {n : Nat} (h : 0x10000 ≤ n) (hlt : n < 0x110000) :
    ∃ high low, codeUnit n = [high, low] ∧ isPair high low = true ∧ ofPair high low = n ∧
      isLowSurrogate high = false := by
  refine ⟨_, _, if_neg (Nat.not_lt.mpr h), isPair_iff.mpr (by omega), ?_, ?_⟩
  · unfold ofPair
    omega
  · simp only [isLowSurrogate, Bool.and_eq_false_iff, decide_eq_false_iff_not]
    omega

/-- What stands before the units of a string is joined to them as it is to the string. -/
theorem isPair_head_codeUnits {n m : Nat} {codes : List Nat} (hlt : m < 0x110000)
    (h : isPair n m = false) : ∀ k ∈ ((m :: codes).flatMap codeUnit).head?, isPair n k = false := by
  intro k hk
  rw [List.flatMap_cons] at hk
  by_cases hsmall : m < 0x10000
  · rw [codeUnit_of_small hsmall, List.singleton_append, List.head?_cons,
      Option.mem_some_iff] at hk
    exact hk ▸ h
  · obtain ⟨high, low, hunits, -, -, hhigh⟩ := codeUnit_of_large (Nat.not_lt.mp hsmall) hlt
    rw [hunits, List.cons_append, List.head?_cons, Option.mem_some_iff] at hk
    rw [isPair, ← hk, hhigh, Bool.and_false]

theorem joinSurrogates_codeUnit {n : Nat} {units : List Nat} (hlt : n < 0x110000)
    (h : ∀ m ∈ units.head?, isPair n m = false) :
    joinSurrogates (codeUnit n ++ units) = n :: joinSurrogates units := by
  by_cases hsmall : n < 0x10000
  · rw [codeUnit_of_small hsmall, List.singleton_append, joinSurrogates_cons h]
  · obtain ⟨high, low, hunits, hpair, heq, -⟩ := codeUnit_of_large (Nat.not_lt.mp hsmall) hlt
    rw [hunits, List.cons_append, List.singleton_append, joinSurrogates_pair hpair, heq]

/-- In UTF-16 no more is joined than the pairs there are. -/
theorem joinSurrogates_codeUnits {codes : List Nat} (hlt : ∀ n ∈ codes, n < 0x110000) :
    joinSurrogates (codes.flatMap codeUnit) = joinSurrogates codes := by
  fun_induction joinSurrogates codes with
  | case1 high low codes hpair ih =>
      have hbounds := isPair_iff.mp hpair
      rw [List.flatMap_cons, List.flatMap_cons, codeUnit_of_small (by omega),
        codeUnit_of_small (by omega), List.singleton_append, List.singleton_append,
        joinSurrogates_pair hpair, ih fun n hn => hlt n (by simp [hn])]
  | case2 high low codes hpair ih =>
      have hlow : low < 0x110000 := hlt low (by simp)
      rw [List.flatMap_cons, joinSurrogates_codeUnit (hlt high List.mem_cons_self)
        (isPair_head_codeUnits hlow (Bool.not_eq_true _ ▸ hpair)),
        ih fun n hn => hlt n (List.mem_cons_of_mem high hn)]
  | case3 codes hshort =>
      match codes, hlt with
      | [], _ => rfl
      | [n], hlt =>
          rw [List.flatMap_singleton, ← List.append_nil (codeUnit n),
            joinSurrogates_codeUnit (hlt n List.mem_cons_self) (by simp)]
          rfl
      | high :: low :: codes, _ => exact absurd rfl (hshort high low codes)

/-! ## Strings -/

section Strings
variable {C : Type} [CodePoint C]

/-- A string with its pairs of surrogates joined. -/
def rejoin (s : List C) : List C := (joinSurrogates (s.map code)).filterMap ofCode

theorem code_lt_of_mem {s : List C} {n : Nat} (h : n ∈ s.map code) : n < 0x110000 := by
  obtain ⟨c, -, rfl⟩ := List.mem_map.mp h
  exact code_lt c

theorem isSome_ofCode_of_mem {s : List C} {n : Nat} (h : n ∈ joinSurrogates (s.map code)) :
    (ofCode n : Option C).isSome = true := by
  cases mem_joinSurrogates h with
  | inl hmem =>
      obtain ⟨c, -, rfl⟩ := List.mem_map.mp hmem
      rw [ofCode_code, Option.isSome_some]
  | inr hbounds =>
      refine isSome_ofCode hbounds.2 ?_
      simp only [isSurrogate, isHighSurrogate, isLowSurrogate, Bool.or_eq_false_iff,
        Bool.and_eq_false_iff, decide_eq_false_iff_not]
      omega

theorem mapM_ofCode {codes : List Nat} (h : ∀ n ∈ codes, (ofCode n : Option C).isSome = true) :
    codes.mapM (ofCode (C := C)) = some (codes.filterMap ofCode) := by
  induction codes with
  | nil => rfl
  | cons n codes ih =>
      obtain ⟨c, hc⟩ := Option.isSome_iff_exists.mp (h n List.mem_cons_self)
      rw [List.mapM_cons, ih fun m hm => h m (List.mem_cons_of_mem n hm),
        List.filterMap_cons_some hc, hc]
      rfl

theorem map_code_of_mapM {codes : List Nat} {s : List C} (h : codes.mapM ofCode = some s) :
    s.map code = codes := by
  induction codes generalizing s with
  | nil =>
      cases h
      rfl
  | cons n codes ih =>
      rw [List.mapM_cons] at h
      obtain ⟨c, hc, h⟩ := Option.bind_eq_some_iff.mp h
      obtain ⟨s', hs', h⟩ := Option.bind_eq_some_iff.mp h
      cases h
      rw [List.map_cons, code_of_ofCode hc, ih hs']

theorem mapM_joinSurrogates (s : List C) :
    (joinSurrogates (s.map code)).mapM ofCode = some (rejoin s) :=
  mapM_ofCode fun _ hn => isSome_ofCode_of_mem hn

theorem map_code_rejoin (s : List C) : (rejoin s).map code = joinSurrogates (s.map code) :=
  map_code_of_mapM (mapM_joinSurrogates s)

theorem code_injective : Function.Injective (code (C := C)) := fun c d h =>
  Option.some.inj ((ofCode_code c).symm.trans (h ▸ ofCode_code d))

theorem rejoin_eq_self_iff {s : List C} : rejoin s = s ↔ unpaired (s.map code) = true := by
  rw [← joinSurrogates_eq_self_iff, ← map_code_rejoin, List.map_inj_right fun _ _ h =>
    code_injective h]

theorem unpaired_rejoin (s : List C) : unpaired ((rejoin s).map code) = true := by
  rw [map_code_rejoin]
  exact unpaired_joinSurrogates _

/-- A string is read back with its pairs joined. -/
theorem scanString_escape (s : List C) (rest : Text) :
    scanString ((s.map code).flatMap escapeCode ++ '"' :: rest) = some (rejoin s, rest) := by
  rw [scanString, scanCodes_escape fun _ hn => code_lt_of_mem hn, Option.bind_eq_bind,
    Option.bind_some]
  dsimp only
  rw [joinSurrogates_codeUnits fun _ hn => code_lt_of_mem hn, mapM_joinSurrogates]
  rfl

theorem unpaired_of_scanString {t rest : Text} {s : List C} (h : scanString t = some (s, rest)) :
    unpaired (s.map code) = true := by
  obtain ⟨⟨codes, rest'⟩, -, h⟩ := Option.bind_eq_some_iff.mp h
  obtain ⟨s', hs', h⟩ := Option.bind_eq_some_iff.mp h
  cases h
  rw [map_code_of_mapM hs']
  exact unpaired_joinSurrogates codes

end Strings

theorem unpaired_chars (s : Text) : unpaired (s.map code) = true := by
  induction s with
  | nil => rfl
  | cons c s ih =>
      refine unpaired_cons.mpr ⟨fun n _ => ?_, ih⟩
      have hchar : isHighSurrogate c.toNat = false :=
        (Bool.or_eq_false_iff.mp (isSurrogate_toNat c)).1
      rw [isPair, show code c = c.toNat from rfl, hchar, Bool.false_and]

/-! ## Values -/

section Values
variable {F C : Type} [CodePoint C]

mutual

/-- No string in the value, be it a name, holds a pair of surrogates. -/
def pairless : Value F C → Bool
  | .str s => unpaired (s.map code)
  | .arr items => arePairless items
  | .obj members => havePairless members
  | _ => true

def arePairless : List (Value F C) → Bool
  | [] => true
  | v :: items => pairless v && arePairless items

def havePairless : List (List C × Value F C) → Bool
  | [] => true
  | (name, v) :: members => unpaired (name.map code) && pairless v && havePairless members

end

theorem arePairless_iff {items : List (Value F C)} :
    arePairless items = true ↔ ∀ v ∈ items, pairless v = true := by
  induction items with
  | nil => simp [arePairless]
  | cons v items ih => rw [arePairless, Bool.and_eq_true, ih, List.forall_mem_cons]

theorem havePairless_iff {members : List (List C × Value F C)} : havePairless members = true ↔
    ∀ member ∈ members, unpaired (member.1.map code) = true ∧ pairless member.2 = true := by
  induction members with
  | nil => simp [havePairless]
  | cons member members ih =>
      obtain ⟨name, v⟩ := member
      rw [havePairless, Bool.and_eq_true, Bool.and_eq_true, ih, List.forall_mem_cons]

variable [DecidableEq C]

mutual

/-- The value with the pairs in its strings joined, as it is read back: names that have
become equal are one. -/
def joined : Value F C → Value F C
  | .str s => .str (rejoin s)
  | .arr items => .arr (joinedItems items)
  | .obj members => .obj (Dict.ofList (joinedMembers members))
  | v => v

def joinedItems : List (Value F C) → List (Value F C)
  | [] => []
  | v :: items => joined v :: joinedItems items

def joinedMembers : List (List C × Value F C) → List (List C × Value F C)
  | [] => []
  | (name, v) :: members => (rejoin name, joined v) :: joinedMembers members

end

theorem havePairless_ofList {members : List (List C × Value F C)}
    (h : havePairless members = true) : havePairless (Dict.ofList members) = true :=
  havePairless_iff.mpr fun member hmem => havePairless_iff.mp h member (Dict.mem_ofList hmem)

mutual

theorem pairless_joined : ∀ v : Value F C, pairless (joined v) = true
  | .str s => unpaired_rejoin s
  | .arr items => arePairless_joinedItems items
  | .obj members => havePairless_ofList (havePairless_joinedMembers members)
  | .null | .bool _ | .int _ | .float _ => rfl

theorem arePairless_joinedItems : ∀ items : List (Value F C), arePairless (joinedItems items) = true
  | [] => rfl
  | v :: items => by
      rw [joinedItems, arePairless, pairless_joined v, arePairless_joinedItems items]
      rfl

theorem havePairless_joinedMembers :
    ∀ members : List (List C × Value F C), havePairless (joinedMembers members) = true
  | [] => rfl
  | (name, v) :: members => by
      rw [joinedMembers, havePairless, unpaired_rejoin, pairless_joined v,
        havePairless_joinedMembers members]
      rfl

end

end Values

end Foundation.JsonText
