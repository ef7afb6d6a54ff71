import DualeAI.Foundation.JsonStrings
import Mathlib.Data.List.TakeDrop

/-!
Reading back what `json.dumps` wrote.

A lemma about one scanner says what it takes off the text its writer made, with
anything behind it that cannot go on. The values are by induction on their nesting.
-/
namespace Foundation.JsonText
open CodePoint

/-- `p` does not hold of the first character, if there is one. -/
def HeadNot (p : Char → Bool) (t : Text) : Prop := ∀ c ∈ t.head?, p c = false

@[simp] theorem headNot_nil {p : Char → Bool} : HeadNot p [] := by
  intro c hc
  cases hc

@[simp] theorem headNot_cons {p : Char → Bool} {c : Char} {t : Text} :
    HeadNot p (c :: t) ↔ p c = false := by
  simp [HeadNot]

theorem HeadNot.mono {p q : Char → Bool} {t : Text} (h : HeadNot p t)
    (hpq : ∀ c, p c = false → q c = false) : HeadNot q t :=
  fun c hc => hpq c (h c hc)

/-! ## Numbers -/

/-- The characters that may go on a number. -/
def isNumberPart (c : Char) : Bool := c.isDigit || c == '.' || c == 'e' || c == 'E'

theorem isDigit_of_not_isNumberPart {c : Char} (h : isNumberPart c = false) :
    c.isDigit = false := by
  simp only [isNumberPart, Bool.or_eq_false_iff] at h
  exact h.1.1.1

theorem span_digits {digits rest : Text} (h : ∀ c ∈ digits, c.isDigit = true)
    (hrest : HeadNot Char.isDigit rest) :
    (digits ++ rest).span Char.isDigit = (digits, rest) := by
  rw [List.span_eq_takeWhile_dropWhile, List.takeWhile_append_of_pos h,
    List.dropWhile_append_of_pos h]
  cases rest with
  | nil => simp
  | cons c rest => simp [headNot_cons.mp hrest]

theorem IsDigits.isEmpty {t : Text} (h : IsDigits t) : t.isEmpty = false := by
  simp [h.1]

theorem IsInteger.head {t : Text} (h : IsInteger t) :
    ∃ c u, t = c :: u ∧ c.isDigit = true := by
  cases h with
  | inl hzero => exact ⟨'0', [], hzero, rfl⟩
  | inr hdigits =>
      obtain ⟨c, u, rfl⟩ := List.exists_cons_of_ne_nil hdigits.1.1
      exact ⟨c, u, rfl, hdigits.1.2 c List.mem_cons_self⟩

theorem scanSign_append {sign rest : Text} (h : IsSign sign) (hrest : HeadNot (· == '-') rest) :
    scanSign (sign ++ rest) = (sign, rest) := by
  cases h with
  | inr hminus => rw [hminus]; rfl
  | inl hnone =>
      rw [hnone, List.nil_append, scanSign]
      rintro t rfl
      exact absurd (headNot_cons.mp hrest) (by decide)

theorem scanInteger_append {integer rest : Text} (h : IsInteger integer)
    (hrest : HeadNot Char.isDigit rest) : scanInteger (integer ++ rest) = some (integer, rest) := by
  cases h with
  | inl hzero => rw [hzero]; rfl
  | inr hdigits =>
      rw [scanInteger]
      · simp only [span_digits hdigits.1.2 hrest, hdigits.1.isEmpty, Bool.false_eq_true, if_false]
      · intro t ht
        obtain ⟨c, u, rfl⟩ := List.exists_cons_of_ne_nil hdigits.1.1
        cases ht
        exact hdigits.2 rfl

theorem scanFraction_append {fraction rest : Text} (h : IsFraction fraction)
    (hrest : HeadNot (fun c => c.isDigit || c == '.') rest) :
    scanFraction (fraction ++ rest) = (fraction, rest) := by
  cases h with
  | inl hnone =>
      subst hnone
      rw [List.nil_append, scanFraction]
      rintro t rfl
      exact absurd (headNot_cons.mp hrest) (by decide)
  | inr hsome =>
      obtain ⟨digits, hdigits, rfl⟩ := hsome
      have hspan := span_digits hdigits.2 (hrest.mono fun c hc => (Bool.or_eq_false_iff.mp hc).1)
      simp only [List.cons_append, scanFraction, hspan, hdigits.isEmpty, Bool.false_eq_true,
        if_false]

theorem scanExponent_append {exponent rest : Text} (h : IsExponent exponent)
    (hrest : HeadNot isNumberPart rest) :
    scanExponent (exponent ++ rest) = (exponent, rest) := by
  cases h with
  | inl hnone =>
      subst hnone
      cases rest with
      | nil => rfl
      | cons c rest =>
          have hc := headNot_cons.mp hrest
          have hletter : ¬ (c = 'e' ∨ c = 'E') := by
            rintro (rfl | rfl) <;> exact absurd hc (by decide)
          simp [scanExponent, hletter]
  | inr hsome =>
      obtain ⟨sign, digits, hsign, hdigits, rfl⟩ := hsome
      have hspan := span_digits hdigits.2 (hrest.mono fun _ => isDigit_of_not_isNumberPart)
      have hscan : scanExponentSign (sign ++ (digits ++ rest)) = (sign, digits ++ rest) := by
        cases hsign with
        | inl hplus => rw [hplus]; rfl
        | inr hminus => rw [hminus]; rfl
      simp only [List.cons_append, List.append_assoc, scanExponent, true_or, if_true, hscan, hspan,
        hdigits.isEmpty, Bool.false_eq_true, if_false]

theorem IsExponent.headNot {exponent rest : Text} (h : IsExponent exponent)
    (hrest : HeadNot isNumberPart rest) :
    HeadNot (fun c => c.isDigit || c == '.') (exponent ++ rest) := by
  cases h with
  | inl hnone =>
      subst hnone
      refine hrest.mono fun c hc => ?_
      simp only [isNumberPart, Bool.or_eq_false_iff] at hc ⊢
      exact hc.1.1
  | inr hsome =>
      obtain ⟨sign, digits, -, -, rfl⟩ := hsome
      rw [List.cons_append, headNot_cons]
      decide

theorem IsFraction.headNot {fraction rest : Text} (h : IsFraction fraction)
    (hrest : HeadNot Char.isDigit rest) : HeadNot Char.isDigit (fraction ++ rest) := by
  cases h with
  | inl hnone =>
      subst hnone
      exact hrest
  | inr hsome =>
      obtain ⟨digits, -, rfl⟩ := hsome
      rw [List.cons_append, headNot_cons]
      decide

theorem matchNumber_append {sign integer fraction exponent rest : Text} (hsign : IsSign sign)
    (hinteger : IsInteger integer) (hfraction : IsFraction fraction)
    (hexponent : IsExponent exponent) (hrest : HeadNot isNumberPart rest) :
    matchNumber (sign ++ integer ++ fraction ++ exponent ++ rest) =
      some (sign ++ integer, fraction, exponent, rest) := by
  have hexponentHead := hexponent.headNot hrest
  have hfractionHead := hfraction.headNot (hexponentHead.mono fun c hc =>
    (Bool.or_eq_false_iff.mp hc).1)
  have hminus : HeadNot (· == '-') (integer ++ (fraction ++ (exponent ++ rest))) := by
    obtain ⟨c, u, rfl, hdigit⟩ := hinteger.head
    rw [List.cons_append, headNot_cons, beq_eq_false_iff_ne]
    rintro rfl
    exact absurd hdigit (by decide)
  simp only [List.append_assoc, matchNumber, scanSign_append hsign hminus,
    scanInteger_append hinteger hfractionHead, scanFraction_append hfraction hexponentHead,
    scanExponent_append hexponent hrest, Option.bind_eq_bind, Option.bind_some]
  rfl

theorem head?_toDigits {n : Nat} (h : 0 < n) : (Nat.toDigits 10 n).head? ≠ some '0' := by
  induction n using Nat.strongRecOn with
  | ind n ih =>
      by_cases hsmall : n < 10
      · rw [Nat.toDigits_of_lt_base hsmall, List.head?_cons, Ne, Option.some.injEq,
          Nat.digitChar_eq_zero]
        omega
      · rw [Nat.toDigits_of_base_le (by decide) (by omega),
          List.head?_append_of_ne_nil _ Nat.toDigits_ne_nil]
        exact ih (n / 10) (by omega) (by omega)

theorem isInteger_toDigits (n : Nat) : IsInteger (Nat.toDigits 10 n) := by
  cases Nat.eq_zero_or_pos n with
  | inl hzero => exact .inl (hzero ▸ Nat.toDigits_zero 10)
  | inr hpos =>
      exact .inr ⟨⟨Nat.toDigits_ne_nil, fun c hc =>
        Nat.isDigit_of_mem_toDigits (by decide) (by decide) hc⟩, head?_toDigits hpos⟩

theorem parseInt_toDigits (n : Nat) : parseInt (Nat.toDigits 10 n) = n := by
  obtain ⟨c, u, heq, hdigit⟩ := (isInteger_toDigits n).head
  rw [parseInt, Nat.ofDigitChars_ten_toDigits]
  intro t ht
  cases heq.symm.trans ht
  exact absurd hdigit (by decide)

theorem reprInt_eq (n : Int) :
    ∃ sign, IsSign sign ∧ reprInt n = sign ++ Nat.toDigits 10 n.natAbs ∧
      parseInt (sign ++ Nat.toDigits 10 n.natAbs) = n := by
  by_cases h : n < 0
  · refine ⟨['-'], .inr rfl, if_pos h, ?_⟩
    rw [List.singleton_append, parseInt, Nat.ofDigitChars_ten_toDigits]
    omega
  · refine ⟨[], .inl rfl, if_neg h, ?_⟩
    rw [List.nil_append, parseInt_toDigits]
    omega

section Scanners
variable {F C : Type} {format : FloatFormat F}

variable (format) in
theorem scanNumber_int (n : Int) {rest : Text} (hrest : HeadNot isNumberPart rest) :
    scanNumber (C := C) format (reprInt n ++ rest) = some (.int n, rest) := by
  obtain ⟨sign, hsign, hrepr, hparse⟩ := reprInt_eq n
  have hmatch := matchNumber_append hsign (isInteger_toDigits n.natAbs) (.inl rfl) (.inl rfl) hrest
  rw [List.append_nil, List.append_nil, ← hrepr] at hmatch
  rw [← hrepr] at hparse
  simp only [scanNumber, hmatch, List.isEmpty_nil, Bool.and_self, if_true, hparse]

theorem scanNumber_float {x : F} (h : (format.value x).isSome = true) {rest : Text}
    (hrest : HeadNot isNumberPart rest) :
    scanNumber (C := C) format (format.repr x ++ rest) = some (.float x, rest) := by
  obtain ⟨sign, integer, fraction, exponent, hrepr, hsign, hinteger, hfraction, hexponent, hsome⟩ :=
    format.literal x h
  have hfloat : (fraction.isEmpty && exponent.isEmpty) = false := by
    cases hsome with
    | inl hfraction => simp [hfraction]
    | inr hexponent => simp [hexponent]
  have hparse := format.parse_repr x h
  rw [hrepr] at hparse ⊢
  simp only [scanNumber, matchNumber_append hsign hinteger hfraction hexponent hrest, hfloat,
    Bool.false_eq_true, if_false, hparse]

end Scanners

/-! ## Values -/

section Values
variable {F C : Type} (format : FloatFormat F)

/-- The values that `dumps` writes as JSON: no member comes twice, no float is a
constant. -/
inductive WellFormed : Value F C → Prop where
  | null : WellFormed .null
  | bool (b : Bool) : WellFormed (.bool b)
  | int (n : Int) : WellFormed (.int n)
  | float (x : F) (h : (format.value x).isSome = true) : WellFormed (.float x)
  | str (s : List C) : WellFormed (.str s)
  | arr (items : List (Value F C)) (h : ∀ v ∈ items, WellFormed v) : WellFormed (.arr items)
  | obj (members : List (List C × Value F C)) (hnames : (members.map Prod.fst).Nodup)
      (h : ∀ member ∈ members, WellFormed member.2) : WellFormed (.obj members)

variable {format} {sep : Separators} [CodePoint C]

/-- The characters a value may start with, apart from the start of a number. -/
def startsValue (c : Char) : Bool := ! isWhitespace c && c != ']'

def startsNumber (c : Char) : Bool := c.isDigit || c == '-'

theorem startsValue_of_startsNumber {c : Char} (h : startsNumber c = true) :
    startsValue c = true := by
  cases hspace : isWhitespace c with
  | true =>
      simp only [isWhitespace, Bool.or_eq_true, beq_iff_eq] at hspace
      rcases hspace with ((rfl | rfl) | rfl) | rfl <;> exact absurd h (by decide)
  | false =>
      simp only [startsValue, hspace, Bool.not_false, Bool.true_and, bne_iff_ne]
      rintro rfl
      exact absurd h (by decide)

theorem startsNumber_append {sign integer : Text} (rest : Text) (hsign : IsSign sign)
    (hinteger : IsInteger integer) :
    ∃ c u, sign ++ integer ++ rest = c :: u ∧ startsNumber c = true := by
  cases hsign with
  | inr hminus => exact ⟨'-', integer ++ rest, by rw [hminus]; rfl, rfl⟩
  | inl hnone =>
      obtain ⟨c, u, rfl, hdigit⟩ := hinteger.head
      exact ⟨c, u ++ rest, by rw [hnone]; rfl, by simp [startsNumber, hdigit]⟩

theorem startsNumber_reprInt (n : Int) : ∃ c u, reprInt n = c :: u ∧ startsNumber c = true := by
  obtain ⟨sign, hsign, hrepr, -⟩ := reprInt_eq n
  obtain ⟨c, u, heq, hc⟩ := startsNumber_append [] hsign (isInteger_toDigits n.natAbs)
  exact ⟨c, u, by rw [hrepr, ← heq, List.append_nil], hc⟩

theorem startsNumber_repr {x : F} (h : (format.value x).isSome = true) :
    ∃ c u, format.repr x = c :: u ∧ startsNumber c = true := by
  obtain ⟨sign, integer, fraction, exponent, hrepr, hsign, hinteger, -⟩ := format.literal x h
  rw [hrepr, List.append_assoc]
  exact startsNumber_append _ hsign hinteger

theorem startsValue_dumps {v : Value F C} (h : WellFormed format v) :
    ∃ c u, dumpsWith format sep v = c :: u ∧ startsValue c = true := by
  cases h with
  | null => exact ⟨_, _, rfl, by decide⟩
  | bool b => cases b <;> exact ⟨_, _, rfl, by decide⟩
  | str _ | arr _ _ | obj _ _ _ => exact ⟨_, _, rfl, by decide⟩
  | int n =>
      obtain ⟨c, u, heq, hc⟩ := startsNumber_reprInt n
      exact ⟨c, u, heq, startsValue_of_startsNumber hc⟩
  | float x hx =>
      obtain ⟨c, u, heq, hc⟩ := startsNumber_repr hx
      exact ⟨c, u, heq, startsValue_of_startsNumber hc⟩

theorem startsValue_dumpsItems {items : List (Value F C)} (hne : items ≠ [])
    (h : ∀ v ∈ items, WellFormed format v) :
    ∃ c u, dumpsItemsWith format sep items = c :: u ∧ startsValue c = true := by
  cases items with
  | nil => exact absurd rfl hne
  | cons v items =>
      obtain ⟨c, u, heq, hc⟩ := startsValue_dumps (h v List.mem_cons_self)
      cases items with
      | nil => exact ⟨c, u, heq, hc⟩
      | cons w items => exact ⟨c, _, by rw [dumpsItemsWith, heq]; rfl; simp, hc⟩

theorem skip_of_startsValue {c : Char} (h : startsValue c = true) (t : Text) :
    skip (c :: t) = c :: t := by
  simp only [startsValue, Bool.and_eq_true, Bool.not_eq_true'] at h
  rw [skip, List.dropWhile_cons_of_neg (by simp [h.1])]

theorem skip_blank {blank : Text} (h : blank.all isWhitespace = true) (t : Text) :
    skip (blank ++ t) = skip t :=
  List.dropWhile_append_of_pos (List.all_eq_true.mp h)

theorem Separators.skip_afterComma (sep : Separators) (t : Text) :
    skip (sep.afterComma ++ t) = skip t := by
  have h := sep.blank
  rw [List.all_append, Bool.and_eq_true] at h
  exact skip_blank h.1 t

theorem Separators.skip_afterColon (sep : Separators) (t : Text) :
    skip (sep.afterColon ++ t) = skip t := by
  have h := sep.blank
  rw [List.all_append, Bool.and_eq_true] at h
  exact skip_blank h.2 t

theorem skip_comma (t : Text) : skip (',' :: t) = ',' :: t := rfl

theorem skip_colon (t : Text) : skip (':' :: t) = ':' :: t := rfl

variable (sep) in
theorem skip_dumpsItems {items : List (Value F C)} (hne : items ≠ [])
    (h : ∀ v ∈ items, WellFormed format v) (t : Text) :
    skip (dumpsItemsWith format sep items ++ t) = dumpsItemsWith format sep items ++ t := by
  obtain ⟨c, u, heq, hc⟩ := startsValue_dumpsItems hne h
  rw [heq, List.cons_append, skip_of_startsValue hc]

variable (sep) in
theorem skip_dumps {v : Value F C} (h : WellFormed format v) (t : Text) :
    skip (dumpsWith format sep v ++ t) = dumpsWith format sep v ++ t := by
  obtain ⟨c, u, heq, hc⟩ := startsValue_dumps h
  rw [heq, List.cons_append, skip_of_startsValue hc]

variable [DecidableEq C]

theorem scanOnce_number {fuel : Nat} {c : Char} {t : Text} (h : startsNumber c = true) :
    scanOnce (C := C) format (fuel + 1) (c :: t) = scanNumber format (c :: t) := by
  rw [scanOnce]
  all_goals
    rintro u heq
    cases heq
    exact absurd h (by decide)

/-- What scanning the text of `v` has to give, whatever follows. -/
def ReadsBack (format : FloatFormat F) (sep : Separators) (v : Value F C) : Prop :=
  ∀ fuel rest, 2 * (dumpsWith format sep v).length ≤ fuel → HeadNot isNumberPart rest →
    scanOnce format fuel (dumpsWith format sep v ++ rest) = some (joined v, rest)

theorem scanItems_dumpsItems {items : List (Value F C)} (hne : items ≠ [])
    (hitems : ∀ v ∈ items, WellFormed format v) (hread : ∀ v ∈ items, ReadsBack format sep v)
    (fuel : Nat) (rest : Text) (hfuel : 2 * (dumpsItemsWith format sep items).length + 1 ≤ fuel) :
    scanItems format fuel (dumpsItemsWith format sep items ++ ']' :: rest) =
      some (joinedItems items, rest) := by
  induction items generalizing fuel with
  | nil => exact absurd rfl hne
  | cons v items ih =>
      obtain ⟨fuel, rfl⟩ := Nat.exists_eq_add_one.mpr (Nat.lt_of_lt_of_le (Nat.succ_pos _) hfuel)
      have hreadv := hread v List.mem_cons_self
      cases items with
      | nil =>
          have hfirst := hreadv fuel (']' :: rest) (Nat.le_of_succ_le_succ hfuel)
            (headNot_cons.mpr (by decide))
          simp only [dumpsItemsWith, scanItems, hfirst, Option.bind_eq_bind, Option.bind_some]
          rfl
      | cons w items =>
          have hlength : (dumpsItemsWith format sep (v :: w :: items)).length =
              (dumpsWith format sep v).length + 1 + sep.afterComma.length +
                (dumpsItemsWith format sep (w :: items)).length := by
            simp [dumpsItemsWith]
            omega
          have hfirst := hreadv fuel
            (',' :: (sep.afterComma ++ (dumpsItemsWith format sep (w :: items) ++ ']' :: rest)))
            (by omega) (headNot_cons.mpr (by decide))
          have hmore := ih (List.cons_ne_nil w items)
            (fun u hu => hitems u (List.mem_cons_of_mem v hu))
            (fun u hu => hread u (List.mem_cons_of_mem v hu)) fuel (by omega)
          have hskip := skip_dumpsItems sep (List.cons_ne_nil w items)
            (fun u hu => hitems u (List.mem_cons_of_mem v hu)) (']' :: rest)
          have htext : dumpsItemsWith format sep (v :: w :: items) ++ ']' :: rest =
              dumpsWith format sep v ++ ',' :: (sep.afterComma ++
                (dumpsItemsWith format sep (w :: items) ++ ']' :: rest)) := by
            simp [dumpsItemsWith]
          rw [htext, scanItems, hfirst, Option.bind_eq_bind, Option.bind_some]
          simp only [skip_comma, sep.skip_afterComma, hskip, hmore, Option.bind_eq_bind,
            Option.bind_some]
          rfl

omit [DecidableEq C] in
theorem dumpsStr_append (s : List C) (t : Text) :
    dumpsStr s ++ t = '"' :: ((s.map code).flatMap escapeCode ++ '"' :: t) := by
  simp [dumpsStr]

omit [DecidableEq C] in
variable (format) in
theorem dumpsMembers_cons (member : List C × Value F C) (members : List (List C × Value F C)) :
    ∃ u, dumpsMembersWith format sep (member :: members) = '"' :: u := by
  cases members with
  | nil => exact ⟨_, rfl⟩
  | cons other members => exact ⟨_, rfl⟩

omit [DecidableEq C] in
theorem skip_dumpsMembers (member : List C × Value F C) (members : List (List C × Value F C))
    (t : Text) :
    skip (dumpsMembersWith format sep (member :: members) ++ t) =
      dumpsMembersWith format sep (member :: members) ++ t := by
  obtain ⟨u, heq⟩ := dumpsMembers_cons format member members
  rw [heq]
  rfl

theorem scanMembers_dumpsMembers {members : List (List C × Value F C)} (hne : members ≠ [])
    (hmembers : ∀ member ∈ members, WellFormed format member.2)
    (hread : ∀ member ∈ members, ReadsBack format sep member.2)
    (fuel : Nat) (rest : Text)
    (hfuel : 2 * (dumpsMembersWith format sep members).length + 1 ≤ fuel) :
    scanMembers format fuel (dumpsMembersWith format sep members ++ '}' :: rest) =
      some (joinedMembers members, rest) := by
  induction members generalizing fuel with
  | nil => exact absurd rfl hne
  | cons member members ih =>
      obtain ⟨name, v⟩ := member
      obtain ⟨fuel, rfl⟩ := Nat.exists_eq_add_one.mpr (Nat.lt_of_lt_of_le (Nat.succ_pos _) hfuel)
      have hv := hmembers _ List.mem_cons_self
      have hreadv := hread _ List.mem_cons_self
      cases members with
      | nil =>
          have hlength : (dumpsMembersWith format sep [(name, v)]).length =
              (dumpsStr name).length + 1 + sep.afterColon.length +
                (dumpsWith format sep v).length := by
            simp [dumpsMembersWith]
            omega
          have hvalue := hreadv fuel ('}' :: rest) (by dsimp only; omega)
            (headNot_cons.mpr (by decide))
          have htext : dumpsMembersWith format sep [(name, v)] ++ '}' :: rest =
              dumpsStr name ++
                ':' :: (sep.afterColon ++ (dumpsWith format sep v ++ '}' :: rest)) := by
            simp [dumpsMembersWith]
          rw [htext, dumpsStr_append, scanMembers, scanString_escape, Option.bind_eq_bind,
            Option.bind_some]
          simp only [skip_colon, sep.skip_afterColon, skip_dumps sep hv, hvalue,
            Option.bind_eq_bind, Option.bind_some]
          rfl
      | cons other members =>
          have hlength : (dumpsMembersWith format sep ((name, v) :: other :: members)).length =
              (dumpsStr name).length + 1 + sep.afterColon.length + (dumpsWith format sep v).length +
                1 + sep.afterComma.length +
                  (dumpsMembersWith format sep (other :: members)).length := by
            simp [dumpsMembersWith]
            omega
          have hvalue := hreadv fuel
            (',' :: (sep.afterComma ++
              (dumpsMembersWith format sep (other :: members) ++ '}' :: rest)))
            (by dsimp only; omega) (headNot_cons.mpr (by decide))
          have hmore := ih (List.cons_ne_nil other members)
            (fun m hm => hmembers m (List.mem_cons_of_mem _ hm))
            (fun m hm => hread m (List.mem_cons_of_mem _ hm)) fuel (by omega)
          have htext : dumpsMembersWith format sep ((name, v) :: other :: members) ++ '}' :: rest =
              dumpsStr name ++ ':' :: (sep.afterColon ++ (dumpsWith format sep v ++
                ',' :: (sep.afterComma ++
                  (dumpsMembersWith format sep (other :: members) ++ '}' :: rest)))) := by
            simp [dumpsMembersWith]
          rw [htext, dumpsStr_append, scanMembers, scanString_escape, Option.bind_eq_bind,
            Option.bind_some]
          simp only [skip_colon, sep.skip_afterColon, skip_comma, sep.skip_afterComma,
            skip_dumps sep hv, hvalue, skip_dumpsMembers, hmore, Option.bind_eq_bind,
            Option.bind_some]
          rfl

theorem readsBack_of_succ {v : Value F C} (h : WellFormed format v)
    (hsucc : ∀ fuel rest, 2 * (dumpsWith format sep v).length ≤ fuel + 1 →
      HeadNot isNumberPart rest →
      scanOnce format (fuel + 1) (dumpsWith format sep v ++ rest) = some (joined v, rest)) :
    ReadsBack format sep v := by
  intro fuel rest hfuel hrest
  obtain ⟨c, u, heq, -⟩ := startsValue_dumps h
  have hlength : (dumpsWith format sep v).length = u.length + 1 := by rw [heq, List.length_cons]
  obtain ⟨fuel, rfl⟩ := Nat.exists_eq_add_one.mpr (by omega : 0 < fuel)
  exact hsucc fuel rest hfuel hrest

variable (sep) in
theorem WellFormed.readsBack {v : Value F C} (h : WellFormed format v) :
    ReadsBack format sep v := by
  induction h with
  | null => exact readsBack_of_succ .null fun _ _ _ _ => rfl
  | bool b =>
      refine readsBack_of_succ (.bool b) fun _ _ _ _ => ?_
      cases b <;> rfl
  | int n =>
      refine readsBack_of_succ (.int n) fun fuel rest _ hrest => ?_
      obtain ⟨c, u, heq, hc⟩ := startsNumber_reprInt n
      have hscan := scanNumber_int (C := C) format n hrest
      rw [heq] at hscan
      rw [dumpsWith, heq, List.cons_append, scanOnce_number hc]
      exact hscan
  | float x hx =>
      refine readsBack_of_succ (.float x hx) fun fuel rest _ hrest => ?_
      obtain ⟨c, u, heq, hc⟩ := startsNumber_repr hx
      have hscan := scanNumber_float (C := C) hx hrest
      rw [heq] at hscan
      rw [dumpsWith, heq, List.cons_append, scanOnce_number hc]
      exact hscan
  | str s =>
      refine readsBack_of_succ (.str s) fun fuel rest _ _ => ?_
      rw [dumpsWith, dumpsStr_append, scanOnce, scanString_escape]
      rfl
  | arr items h ih =>
      refine readsBack_of_succ (.arr items h) fun fuel rest hfuel _ => ?_
      cases items with
      | nil => rfl
      | cons v items =>
          have hne := List.cons_ne_nil v items
          have hlength : (dumpsWith format sep (.arr (v :: items))).length =
              (dumpsItemsWith format sep (v :: items)).length + 2 := by
            simp [dumpsWith]
          have htext : dumpsWith format sep (.arr (v :: items)) ++ rest =
              '[' :: (dumpsItemsWith format sep (v :: items) ++ ']' :: rest) := by
            simp [dumpsWith]
          have hscan := scanItems_dumpsItems hne h ih fuel rest (by omega)
          obtain ⟨c, u, heq, hc⟩ := startsValue_dumpsItems hne h
          rw [htext, scanOnce, skip_dumpsItems sep hne h]
          rw [heq, List.cons_append] at hscan ⊢
          split
          · next hend =>
              cases hend
              exact absurd hc (by decide)
          · rw [hscan]
            rfl
  | obj members hnames h ih =>
      refine readsBack_of_succ (.obj members hnames h) fun fuel rest hfuel _ => ?_
      cases members with
      | nil => rfl
      | cons member members =>
          have hlength : (dumpsWith format sep (.obj (member :: members))).length =
              (dumpsMembersWith format sep (member :: members)).length + 2 := by
            simp [dumpsWith]
          have htext : dumpsWith format sep (.obj (member :: members)) ++ rest =
              '{' :: (dumpsMembersWith format sep (member :: members) ++ '}' :: rest) := by
            simp [dumpsWith]
          have hscan := scanMembers_dumpsMembers (List.cons_ne_nil member members) h ih fuel rest
            (by omega)
          obtain ⟨u, heq⟩ := dumpsMembers_cons format member members
          rw [htext, scanOnce, skip_dumpsMembers]
          rw [heq, List.cons_append] at hscan ⊢
          split
          · next hend => cases hend
          · rw [hscan]
            rfl

/-- `json.loads` gives back what was written with any separators, its pairs of surrogates
joined. -/
theorem loads_dumpsWith_joined (sep : Separators) {v : Value F C} (h : WellFormed format v) :
    loads format (dumpsWith format sep v) = some (joined v) := by
  have hskip := skip_dumps sep h []
  have hread := h.readsBack sep (2 * (dumpsWith format sep v).length) [] (Nat.le_refl _)
    headNot_nil
  rw [List.append_nil] at hskip hread
  rw [loads, hskip, hread]
  rfl

theorem loads_dumps_joined {v : Value F C} (h : WellFormed format v) :
    loads format (dumps format v) = some (joined v) := loads_dumpsWith_joined spaced h

theorem joined_eq_null_iff {v : Value F C} : joined v = .null ↔ v = .null := by
  cases v with
  | null => exact iff_of_true rfl rfl
  | bool _ | int _ | float _ | str _ | arr _ | obj _ =>
      exact iff_of_false (fun h => by cases h) fun h => by cases h

/-! ## What is read back as it was -/

theorem joinedItems_eq_self {items : List (Value F C)}
    (h : ∀ v ∈ items, joined v = v) : joinedItems items = items := by
  induction items with
  | nil => rfl
  | cons v items ih =>
      rw [joinedItems, h v List.mem_cons_self, ih fun w hw => h w (List.mem_cons_of_mem v hw)]

theorem joinedMembers_eq_self {members : List (List C × Value F C)}
    (h : ∀ member ∈ members, rejoin member.1 = member.1 ∧ joined member.2 = member.2) :
    joinedMembers members = members := by
  induction members with
  | nil => rfl
  | cons member members ih =>
      obtain ⟨name, v⟩ := member
      obtain ⟨hname, hv⟩ := h (name, v) List.mem_cons_self
      rw [joinedMembers, hname, hv, ih fun other hother =>
        h other (List.mem_cons_of_mem (name, v) hother)]

theorem joined_of_pairless {v : Value F C} (h : WellFormed format v) (hv : pairless v = true) :
    joined v = v := by
  induction h with
  | null | bool _ | int _ | float _ _ => rfl
  | str s => rw [joined, rejoin_eq_self_iff.mpr hv]
  | arr items h ih =>
      have hitems := arePairless_iff.mp hv
      rw [joined, joinedItems_eq_self fun v hmem => ih v hmem (hitems v hmem)]
  | obj members hnames h ih =>
      have hmembers := havePairless_iff.mp hv
      rw [joined, joinedMembers_eq_self fun member hmem =>
        ⟨rejoin_eq_self_iff.mpr (hmembers member hmem).1,
          ih member hmem (hmembers member hmem).2⟩, Dict.ofList_of_nodup hnames]

/-- A value is read back as it was just where no string of it holds a pair. -/
theorem joined_eq_self_iff {v : Value F C} (h : WellFormed format v) :
    joined v = v ↔ pairless v = true :=
  ⟨fun heq => heq ▸ pairless_joined v, joined_of_pairless h⟩

/-! ## What is read -/

omit [DecidableEq C] in
theorem pairless_of_scanNumber {t rest : Text} {v : Value F C}
    (h : scanNumber format t = some (v, rest)) : pairless v = true := by
  rw [scanNumber] at h
  split at h
  · obtain ⟨name, -, heq⟩ := Option.bind_eq_some_iff.mp h
    cases heq
    rfl
  · split at h
    · cases h
      rfl
    · cases h
      rfl

/-- Step: a value that is read has no pairs, if its items and its members have none. -/
theorem pairless_of_scanOnce {fuel : Nat}
    (hitems : ∀ {t rest} {items : List (Value F C)}, scanItems format fuel t = some (items, rest) →
      arePairless items = true)
    (hmembers : ∀ {t rest} {members : List (List C × Value F C)},
      scanMembers format fuel t = some (members, rest) → havePairless members = true)
    {t rest : Text} {v : Value F C} (h : scanOnce format (fuel + 1) t = some (v, rest)) :
    pairless v = true := by
  rw [scanOnce.eq_def] at h
  dsimp only at h
  split at h
  · obtain ⟨⟨s, after⟩, hs, heq⟩ := Option.bind_eq_some_iff.mp h
    cases heq
    exact unpaired_of_scanString hs
  · split at h
    · cases h
      rfl
    · obtain ⟨⟨members, after⟩, hscan, heq⟩ := Option.bind_eq_some_iff.mp h
      cases heq
      exact havePairless_ofList (hmembers hscan)
  · split at h
    · cases h
      rfl
    · obtain ⟨⟨items, after⟩, hscan, heq⟩ := Option.bind_eq_some_iff.mp h
      cases heq
      exact hitems hscan
  · cases h
    rfl
  · cases h
    rfl
  · cases h
    rfl
  · exact pairless_of_scanNumber h

theorem arePairless_of_scanItems {fuel : Nat}
    (hvalue : ∀ {t rest} {v : Value F C}, scanOnce format fuel t = some (v, rest) →
      pairless v = true)
    (hitems : ∀ {t rest} {items : List (Value F C)}, scanItems format fuel t = some (items, rest) →
      arePairless items = true)
    {t rest : Text} {items : List (Value F C)}
    (h : scanItems format (fuel + 1) t = some (items, rest)) : arePairless items = true := by
  obtain ⟨⟨v, after⟩, hv, h⟩ := Option.bind_eq_some_iff.mp h
  dsimp only at h
  split at h
  · cases h
    exact arePairless_iff.mpr fun w hw => List.mem_singleton.mp hw ▸ hvalue hv
  · obtain ⟨⟨more, end'⟩, hscan, heq⟩ := Option.bind_eq_some_iff.mp h
    cases heq
    rw [arePairless, hvalue hv, hitems hscan]
    rfl
  · cases h

theorem havePairless_of_scanMembers {fuel : Nat}
    (hvalue : ∀ {t rest} {v : Value F C}, scanOnce format fuel t = some (v, rest) →
      pairless v = true)
    (hmembers : ∀ {t rest} {members : List (List C × Value F C)},
      scanMembers format fuel t = some (members, rest) → havePairless members = true)
    {t rest : Text} {members : List (List C × Value F C)}
    (h : scanMembers format (fuel + 1) t = some (members, rest)) :
    havePairless members = true := by
  rw [scanMembers.eq_def] at h
  split at h
  · next fuel' u heq =>
      cases heq
      obtain ⟨⟨name, after⟩, hname, h⟩ := Option.bind_eq_some_iff.mp h
      dsimp only at h
      split at h
      · obtain ⟨⟨v, after'⟩, hv, h⟩ := Option.bind_eq_some_iff.mp h
        have hfirst := unpaired_of_scanString hname
        dsimp only at h
        split at h
        · cases h
          rw [havePairless, hfirst, hvalue hv]
          rfl
        · obtain ⟨⟨more, end'⟩, hscan, heq⟩ := Option.bind_eq_some_iff.mp h
          cases heq
          rw [havePairless, hfirst, hvalue hv, hmembers hscan]
          rfl
        · cases h
      · cases h
  · cases h

/-- Run: nothing that is read holds a pair. -/
theorem pairless_of_scan (fuel : Nat) :
    (∀ {t rest} {v : Value F C}, scanOnce format fuel t = some (v, rest) → pairless v = true) ∧
    (∀ {t rest} {items : List (Value F C)}, scanItems format fuel t = some (items, rest) →
      arePairless items = true) ∧
    ∀ {t rest} {members : List (List C × Value F C)},
      scanMembers format fuel t = some (members, rest) → havePairless members = true := by
  induction fuel with
  | zero =>
      refine ⟨fun h => ?_, fun h => ?_, fun h => ?_⟩
      · cases h
      · cases h
      · cases h
  | succ fuel ih =>
      obtain ⟨hvalue, hitems, hmembers⟩ := ih
      exact ⟨pairless_of_scanOnce hitems hmembers, arePairless_of_scanItems hvalue hitems,
        havePairless_of_scanMembers hvalue hmembers⟩

theorem pairless_of_loads {t : Text} {v : Value F C} (h : loads format t = some v) :
    pairless v = true := by
  obtain ⟨⟨w, rest⟩, hw, h⟩ := Option.bind_eq_some_iff.mp h
  dsimp only at h
  split at h
  · cases h
    exact (pairless_of_scan _).1 hw
  · cases h

end Values

/-! ## Values of valid Unicode -/

section Unicode
variable {F : Type} {format : FloatFormat F}

theorem pairless_of_chars {v : Value F} (h : WellFormed format v) : pairless v = true := by
  induction h with
  | null | bool _ | int _ | float _ _ => rfl
  | str s => exact unpaired_chars s
  | arr items h ih => exact arePairless_iff.mpr ih
  | obj members hnames h ih =>
      exact havePairless_iff.mpr fun member hmem => ⟨unpaired_chars member.1, ih member hmem⟩

/-- `json.loads` gives back what was written with any separators. -/
theorem loads_dumpsWith (sep : Separators) {v : Value F} (h : WellFormed format v) :
    loads format (dumpsWith format sep v) = some v := by
  rw [loads_dumpsWith_joined sep h, joined_of_pairless h (pairless_of_chars h)]

end Unicode

end Foundation.JsonText
