import DualeAI.Foundation.Dict
import DualeAI.Foundation.Text

/-!
JSON texts, as `json.dumps` writes and `json.loads` reads them by default.

The writer escapes all but printable ASCII and separates with `", "` and `": "` by
default; the reader skips whitespace and takes the last of several members of one name.
The strings of a value are lists over a type of code points, with or without surrogates.
How floats are written and read is a parameter.
-/
namespace Foundation.JsonText

/-! ## Code points -/

def isHighSurrogate (n : Nat) : Bool := 0xd800 ≤ n && n ≤ 0xdbff

def isLowSurrogate (n : Nat) : Bool := 0xdc00 ≤ n && n ≤ 0xdfff

def isSurrogate (n : Nat) : Bool := isHighSurrogate n || isLowSurrogate n

def isPair (high low : Nat) : Bool := isHighSurrogate high && isLowSurrogate low

/-- The characters that a string may hold, by their code points: all of Unicode, and maybe
surrogates. -/
class CodePoint (C : Type) where
  code : C → Nat
  ofCode : Nat → Option C
  ofCode_code : ∀ c, ofCode (code c) = some c
  code_of_ofCode : ∀ {n c}, ofCode n = some c → code c = n
  code_lt : ∀ c, code c < 0x110000
  isSome_ofCode : ∀ {n}, n < 0x110000 → isSurrogate n = false → (ofCode n).isSome = true

theorem isSurrogate_toNat (c : Char) : isSurrogate c.toNat = false := by
  have hvalid : c.toNat < 0xd800 ∨ 0xdfff < c.toNat ∧ c.toNat < 0x110000 := c.valid
  simp only [isSurrogate, isHighSurrogate, isLowSurrogate, Bool.or_eq_false_iff,
    Bool.and_eq_false_iff, decide_eq_false_iff_not]
  omega

theorem toNat_ofNat {n : Nat} (hlt : n < 0x110000) (h : isSurrogate n = false) :
    (Char.ofNat n).toNat = n := by
  have hvalid : n.isValidChar := by
    simp only [isSurrogate, isHighSurrogate, isLowSurrogate, Bool.or_eq_false_iff,
      Bool.and_eq_false_iff, decide_eq_false_iff_not] at h
    simp only [Nat.isValidChar]
    omega
  rw [Char.ofNat, dif_pos hvalid]
  rfl

/-- Strings of valid Unicode. -/
instance : CodePoint Char where
  code := Char.toNat
  ofCode n := if (Char.ofNat n).toNat = n then some (Char.ofNat n) else none
  ofCode_code c := by rw [Char.ofNat_toNat, if_pos rfl]
  code_of_ofCode h := by
    split at h
    · next heq =>
        cases h
        exact heq
    · cases h
  code_lt c := by
    have hvalid : c.toNat < 0xd800 ∨ 0xdfff < c.toNat ∧ c.toNat < 0x110000 := c.valid
    omega
  isSome_ofCode hlt h := by rw [if_pos (toNat_ofNat hlt h), Option.isSome_some]

/-- The strings of Python. -/
instance : CodePoint (Fin 0x110000) where
  code := Fin.val
  ofCode n := if h : n < 0x110000 then some ⟨n, h⟩ else none
  ofCode_code c := dif_pos c.isLt
  code_of_ofCode h := by
    split at h
    · cases h
      rfl
    · cases h
  code_lt := Fin.isLt
  isSome_ofCode hlt _ := by rw [dif_pos hlt, Option.isSome_some]

open CodePoint

/-! ## Values -/

inductive Value (F : Type) (C : Type := Char) where
  | null
  | bool (b : Bool)
  | int (n : Int)
  | float (x : F)
  | str (s : List C)
  | arr (items : List (Value F C))
  | obj (members : List (List C × Value F C))

/-! ## Numbers -/

def IsDigits (t : Text) : Prop := t ≠ [] ∧ ∀ c ∈ t, c.isDigit = true

def IsInteger (t : Text) : Prop := t = ['0'] ∨ IsDigits t ∧ t.head? ≠ some '0'

def IsFraction (t : Text) : Prop := t = [] ∨ ∃ digits, IsDigits digits ∧ t = '.' :: digits

def IsExponent (t : Text) : Prop :=
  t = [] ∨ ∃ sign digits, (sign = ['+'] ∨ sign = ['-']) ∧ IsDigits digits ∧
    t = 'e' :: (sign ++ digits)

def IsSign (t : Text) : Prop := t = [] ∨ t = ['-']

/-- What `repr` of a finite float looks like. -/
def IsFloatLiteral (t : Text) : Prop :=
  ∃ sign integer fraction exponent, t = sign ++ integer ++ fraction ++ exponent ∧
    IsSign sign ∧ IsInteger integer ∧ IsFraction fraction ∧ IsExponent exponent ∧
    (fraction ≠ [] ∨ exponent ≠ [])

/-- The floats: how one is written, how its text and the names of the constants are
read, and the number a finite one is. -/
structure FloatFormat (F : Type) where
  repr : F → Text
  parse : Text → F
  constant : Text → F
  value : F → Option Rat
  literal : ∀ x, (value x).isSome = true → IsFloatLiteral (repr x)
  parse_repr : ∀ x, (value x).isSome = true → parse (repr x) = x

def reprInt (n : Int) : Text :=
  if n < 0 then '-' :: Nat.toDigits 10 n.natAbs else Nat.toDigits 10 n.natAbs

def parseInt : Text → Int
  | '-' :: t => -(Nat.ofDigitChars 10 t 0 : Int)
  | t => Nat.ofDigitChars 10 t 0

/-- `-?` -/
def scanSign : Text → Text × Text
  | '-' :: t => (['-'], t)
  | t => ([], t)

/-- `0|[1-9][0-9]*` -/
def scanInteger : Text → Option (Text × Text)
  | '0' :: t => some (['0'], t)
  | t =>
      let (digits, rest) := t.span Char.isDigit
      if digits.isEmpty then none else some (digits, rest)

/-- `(\.[0-9]+)?` -/
def scanFraction : Text → Text × Text
  | '.' :: t =>
      let (digits, rest) := t.span Char.isDigit
      if digits.isEmpty then ([], '.' :: t) else ('.' :: digits, rest)
  | t => ([], t)

/-- `[-+]?` -/
def scanExponentSign : Text → Text × Text
  | '+' :: t => (['+'], t)
  | t => scanSign t

/-- `([eE][-+]?[0-9]+)?` -/
def scanExponent : Text → Text × Text
  | [] => ([], [])
  | c :: t =>
      if c = 'e' ∨ c = 'E' then
        let (sign, rest) := scanExponentSign t
        let (digits, rest) := rest.span Char.isDigit
        if digits.isEmpty then ([], c :: t) else (c :: (sign ++ digits), rest)
      else ([], c :: t)

/-! ## Strings -/

/-- The format `04x` of a number under `0x10000`. -/
def hex04 (n : Nat) : Text :=
  [n / 4096, n / 256 % 16, n / 16 % 16, n % 16].map Nat.digitChar

def escapeUnit (n : Nat) : Text := '\\' :: 'u' :: hex04 n

def escapeChar (c : Char) : Text :=
  match c with
  | '"' => ['\\', '"']
  | '\\' => ['\\', '\\']
  | '\n' => ['\\', 'n']
  | '\r' => ['\\', 'r']
  | '\t' => ['\\', 't']
  | '\x0c' => ['\\', 'f']
  | '\x08' => ['\\', 'b']
  | c =>
      if ' ' ≤ c ∧ c ≤ '~' then [c]
      else if c.toNat < 0x10000 then escapeUnit c.toNat
      else
        let n := c.toNat - 0x10000
        escapeUnit (0xd800 + n / 0x400) ++ escapeUnit (0xdc00 + n % 0x400)

/-- A surrogate is escaped by itself. -/
def escapeCode (n : Nat) : Text :=
  if isSurrogate n then escapeUnit n else escapeChar (Char.ofNat n)

/-- What a letter after a backslash stands for. -/
def unescape : Char → Option Char
  | '"' => some '"'
  | '\\' => some '\\'
  | '/' => some '/'
  | 'b' => some '\x08'
  | 'f' => some '\x0c'
  | 'n' => some '\n'
  | 'r' => some '\r'
  | 't' => some '\t'
  | _ => none

def hexUnit (a b c d : Char) : Option Nat := do
  return 4096 * (← hexValue a) + 256 * (← hexValue b) + 16 * (← hexValue c) + (← hexValue d)

/-- The codes in a string after its opening quote, and what follows its closing one. -/
def scanCodes : Text → Option (List Nat × Text)
  | [] => none
  | '"' :: t => some ([], t)
  | '\\' :: 'u' :: a :: b :: c :: d :: t => do
      let unit ← hexUnit a b c d
      let (codes, rest) ← scanCodes t
      return (unit :: codes, rest)
  | '\\' :: c :: t => do
      let c ← unescape c
      let (codes, rest) ← scanCodes t
      return (c.toNat :: codes, rest)
  | c :: t =>
      if c < ' ' ∨ c = '\\' then none
      else do
        let (codes, rest) ← scanCodes t
        return (c.toNat :: codes, rest)

/-- What a pair of surrogates encodes. -/
def ofPair (high low : Nat) : Nat := 0x10000 + (high - 0xd800) * 0x400 + (low - 0xdc00)

/-- A high surrogate and a low one after it are read as the character they encode. -/
def joinSurrogates : List Nat → List Nat
  | high :: low :: codes =>
      if isPair high low then ofPair high low :: joinSurrogates codes
      else high :: joinSurrogates (low :: codes)
  | codes => codes

section Strings
variable {C : Type} [CodePoint C]

def dumpsStr (s : List C) : Text := '"' :: ((s.map code).flatMap escapeCode ++ ['"'])

def scanString (t : Text) : Option (List C × Text) := do
  let (codes, rest) ← scanCodes t
  let s ← (joinSurrogates codes).mapM ofCode
  return (s, rest)

end Strings

/-! ## Texts -/

section Format
variable {F C : Type} (format : FloatFormat F)

/-- `NUMBER_RE`: integer, fraction, exponent and what follows. -/
def matchNumber (t : Text) : Option (Text × Text × Text × Text) := do
  let (sign, t) := scanSign t
  let (integer, t) ← scanInteger t
  let (fraction, t) := scanFraction t
  let (exponent, rest) := scanExponent t
  return (sign ++ integer, fraction, exponent, rest)

def scanConstant (t : Text) : Option (Value F C × Text) := do
  let name ← (["NaN", "Infinity", "-Infinity"].map String.toList).find? fun name =>
    name.isPrefixOf t
  return (.float (format.constant name), t.drop name.length)

def scanNumber (t : Text) : Option (Value F C × Text) :=
  match matchNumber t with
  | none => scanConstant format t
  | some (integer, fraction, exponent, rest) =>
      if fraction.isEmpty && exponent.isEmpty then some (.int (parseInt integer), rest)
      else some (.float (format.parse (integer ++ fraction ++ exponent)), rest)

def isWhitespace (c : Char) : Bool := c == ' ' || c == '\t' || c == '\n' || c == '\r'

def skip (t : Text) : Text := t.dropWhile isWhitespace

/-- What `separators=` puts after a comma and after a colon. -/
structure Separators where
  afterComma : Text
  afterColon : Text
  blank : (afterComma ++ afterColon).all isWhitespace = true

/-- The separators of `json.dumps` by default. -/
def spaced : Separators := ⟨[' '], [' '], rfl⟩

variable [CodePoint C]

mutual

def dumpsWith (sep : Separators) : Value F C → Text
  | .null => "null".toList
  | .bool true => "true".toList
  | .bool false => "false".toList
  | .int n => reprInt n
  | .float x => format.repr x
  | .str s => dumpsStr s
  | .arr items => '[' :: (dumpsItemsWith sep items ++ [']'])
  | .obj members => '{' :: (dumpsMembersWith sep members ++ ['}'])

def dumpsItemsWith (sep : Separators) : List (Value F C) → Text
  | [] => []
  | [v] => dumpsWith sep v
  | v :: items => dumpsWith sep v ++ ',' :: (sep.afterComma ++ dumpsItemsWith sep items)

def dumpsMembersWith (sep : Separators) : List (List C × Value F C) → Text
  | [] => []
  | [(name, v)] => dumpsStr name ++ ':' :: (sep.afterColon ++ dumpsWith sep v)
  | (name, v) :: members =>
      dumpsStr name ++ ':' :: (sep.afterColon ++ (dumpsWith sep v ++
        ',' :: (sep.afterComma ++ dumpsMembersWith sep members)))

end

def dumps (v : Value F C) : Text := dumpsWith format spaced v

variable [DecidableEq C]

mutual

/-- The value at the start of a text, and what follows it. -/
def scanOnce : (fuel : Nat) → Text → Option (Value F C × Text)
  | 0, _ => none
  | fuel + 1, t =>
      match t with
      | '"' :: t => do
          let (s, rest) ← scanString t
          return (.str s, rest)
      | '{' :: t =>
          match skip t with
          | '}' :: rest => some (.obj [], rest)
          | t => do
              let (members, rest) ← scanMembers fuel t
              return (.obj (Dict.ofList members), rest)
      | '[' :: t =>
          match skip t with
          | ']' :: rest => some (.arr [], rest)
          | t => do
              let (items, rest) ← scanItems fuel t
              return (.arr items, rest)
      | 'n' :: 'u' :: 'l' :: 'l' :: rest => some (.null, rest)
      | 't' :: 'r' :: 'u' :: 'e' :: rest => some (.bool true, rest)
      | 'f' :: 'a' :: 'l' :: 's' :: 'e' :: rest => some (.bool false, rest)
      | t => scanNumber format t

/-- The items of an array up to its end. -/
def scanItems : (fuel : Nat) → Text → Option (List (Value F C) × Text)
  | 0, _ => none
  | fuel + 1, t => do
      let (v, rest) ← scanOnce fuel t
      match skip rest with
      | ']' :: rest => return ([v], rest)
      | ',' :: rest => do
          let (items, rest) ← scanItems fuel (skip rest)
          return (v :: items, rest)
      | _ => none

/-- The members of an object up to its end. -/
def scanMembers : (fuel : Nat) → Text → Option (List (List C × Value F C) × Text)
  | fuel + 1, '"' :: t => do
      let (name, rest) ← scanString t
      match skip rest with
      | ':' :: rest => do
          let (v, rest) ← scanOnce fuel (skip rest)
          match skip rest with
          | '}' :: rest => return ([(name, v)], rest)
          | ',' :: rest => do
              let (members, rest) ← scanMembers fuel (skip rest)
              return ((name, v) :: members, rest)
          | _ => none
      | _ => none
  | _, _ => none

end

/-- No value nests deeper than this fuel: two characters for each level. -/
def loads (t : Text) : Option (Value F C) := do
  let (v, rest) ← scanOnce format (2 * t.length) (skip t)
  if (skip rest).isEmpty then some v else none

end Format

end Foundation.JsonText
