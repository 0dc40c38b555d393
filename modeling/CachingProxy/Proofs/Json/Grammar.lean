import CachingProxy.Json.Token
import Mathlib.Tactic.Simps.Basic

/-!
# The grammar of JSON texts

How values are written, octet by octet and without a reader.  A blank belongs to what stands behind
it.  Wherever a text is meant the octets denote one, so a surrogate has its partner; a literal may
have any escape.
-/

set_option autoImplicit false

namespace CachingProxy.Json

def Blank (bytes : Bytes) : Prop := ∀ b ∈ bytes, isBlankByte b = true

theorem blank_nil : Blank [] := by
  intro b member
  cases member

/-- What stands before an item: a comma, but not before the first. -/
def Separates : Bool → Bytes → Prop
  | true, bytes => Blank bytes
  | false, bytes => ∃ before after, Blank before ∧ Blank after ∧ bytes = before ++ 44 :: after

def Colon (bytes : Bytes) : Prop :=
  ∃ before after, Blank before ∧ Blank after ∧ bytes = before ++ 58 :: after

/-! ## Texts -/

def escapes : List (UInt8 × UInt8) :=
  [(34, 34), (92, 92), (47, 47), (98, 8), (102, 12), (110, 10), (114, 13), (116, 9)]

inductive CodeUnit : Nat → Bytes → Prop where
  | digits {p q r s : UInt8} {a b c d : Nat} (first : hexByte? p = some a)
      (second : hexByte? q = some b) (third : hexByte? r = some c) (fourth : hexByte? s = some d) :
      CodeUnit (((a * 16 + b) * 16 + c) * 16 + d) [p, q, r, s]

def Unescaped (c : Char) : Prop := 32 ≤ c.toNat ∧ c ≠ '"' ∧ c ≠ '\\'

/-- The forms of a character between quotes. -/
inductive WritesChar : Char → Bytes → Prop where
  | plain {c : Char} (unescaped : Unescaped c) : WritesChar c (String.utf8EncodeChar c)
  | short {escape : UInt8 × UInt8} (known : escape ∈ escapes) :
      WritesChar (Char.ofNat escape.2.toNat) [92, escape.1]
  | unit {n : Nat} {digits : Bytes} (written : CodeUnit n digits)
      (scalar : isHighSurrogate n = false ∧ isLowSurrogate n = false) :
      WritesChar (Char.ofNat n) (92 :: 117 :: digits)
  | pair {high low : Nat} {first second : Bytes} (leads : CodeUnit high first)
      (trails : CodeUnit low second) (isHigh : isHighSurrogate high = true)
      (isLow : isLowSurrogate low = true) :
      WritesChar (Char.ofNat ((high - 0xD800) * 1024 + (low - 0xDC00) + 0x10000))
        (92 :: 117 :: first ++ 92 :: 117 :: second)

inductive WritesChars : List Char → Bytes → Prop where
  | nil : WritesChars [] []
  | cons {c : Char} {cs : List Char} {piece rest : Bytes} (head : WritesChar c piece)
      (tail : WritesChars cs rest) : WritesChars (c :: cs) (piece ++ rest)

def WritesText (text : String) (bytes : Bytes) : Prop :=
  ∃ body, WritesChars text.toList body ∧ bytes = 34 :: (body ++ [34])

/-- A part of a literal, which need not denote a character. -/
inductive Piece : Bytes → Prop where
  | plain {c : Char} (unescaped : Unescaped c) : Piece (String.utf8EncodeChar c)
  | short {escape : UInt8 × UInt8} (known : escape ∈ escapes) : Piece [92, escape.1]
  | unit {n : Nat} {digits : Bytes} (written : CodeUnit n digits) : Piece (92 :: 117 :: digits)

inductive Pieces : Bytes → Prop where
  | nil : Pieces []
  | cons {piece rest : Bytes} (head : Piece piece) (tail : Pieces rest) : Pieces (piece ++ rest)

def Literal (bytes : Bytes) : Prop := ∃ body, Pieces body ∧ bytes = 34 :: (body ++ [34])

/-! ## Numerals -/

def Digits (bytes : Bytes) : Prop :=
  bytes ≠ [] ∧ ∀ b ∈ bytes, Numeral.isDigitByte b = true

/-- Digits without a zero at the front, or a zero. -/
def Whole (bytes : Bytes) : Prop := Digits bytes ∧ (bytes.head? = some 48 → bytes = [48])

def FractionPart (bytes : Bytes) : Prop :=
  bytes = [] ∨ ∃ digits, Digits digits ∧ bytes = 46 :: digits

def ExponentPart (bytes : Bytes) : Prop :=
  bytes = [] ∨ ∃ letter sign digits, (letter = 101 ∨ letter = 69) ∧
    (sign = [] ∨ sign = [43] ∨ sign = [45]) ∧ Digits digits ∧ bytes = letter :: (sign ++ digits)

def IsNumeral (bytes : Bytes) : Prop :=
  ∃ sign whole fraction exponent, (sign = [] ∨ sign = [45]) ∧ Whole whole ∧
    FractionPart fraction ∧ ExponentPart exponent ∧
    bytes = sign ++ (whole ++ (fraction ++ exponent))

def WritesNat (n : Nat) (bytes : Bytes) : Prop := bytes = Bytes.ofText (toString n)

def WritesBool (value : Bool) (bytes : Bytes) : Prop :=
  bytes = Bytes.ofText (if value then "true" else "false")

/-! ## Values of any kind -/

mutual

/-- A value of any kind and any depth. -/
inductive WellFormed : Bytes → Prop where
  | word {text : String} (known : text ∈ ["null", "true", "false"]) :
      WellFormed (Bytes.ofText text)
  | literal {bytes : Bytes} (quoted : Literal bytes) : WellFormed bytes
  | numeral {bytes : Bytes} (number : IsNumeral bytes) : WellFormed bytes
  | list {tail : Bytes} (items : Items true tail) : WellFormed (91 :: tail)
  | object {tail : Bytes} (members : Members true tail) : WellFormed (123 :: tail)

inductive Items : Bool → Bytes → Prop where
  | bracket {first : Bool} {blank : Bytes} (blanks : Blank blank) : Items first (blank ++ [93])
  | item {first : Bool} {before value tail : Bytes} (separates : Separates first before)
      (formed : WellFormed value) (more : Items false tail) :
      Items first (before ++ (value ++ tail))

inductive Members : Bool → Bytes → Prop where
  | brace {first : Bool} {blank : Bytes} (blanks : Blank blank) : Members first (blank ++ [125])
  | member {first : Bool} {before key colon value tail : Bytes}
      (separates : Separates first before) (quoted : Literal key) (between : Colon colon)
      (formed : WellFormed value) (more : Members false tail) :
      Members first (before ++ (key ++ (colon ++ (value ++ tail))))

end

/-! ## Lists and records of known kinds -/

inductive WritesItems {α : Type} (written : α → Bytes → Prop) : Bool → List α → Bytes → Prop where
  | bracket {first : Bool} {blank : Bytes} (blanks : Blank blank) :
      WritesItems written first [] (blank ++ [93])
  | item {first : Bool} {before bytes tail : Bytes} {value : α} {values : List α}
      (separates : Separates first before) (form : written value bytes)
      (more : WritesItems written false values tail) :
      WritesItems written first (value :: values) (before ++ (bytes ++ tail))

def WritesList {α : Type} (written : α → Bytes → Prop) (values : List α) (bytes : Bytes) : Prop :=
  ∃ tail, WritesItems written true values tail ∧ bytes = 91 :: tail

/-- A field of a record: its name, the forms of its value, and whether it may be left out. -/
structure FieldForm where
  name : String
  written : Bytes → Prop
  omittable : Prop

@[simps]
def FieldForm.defaulted {α : Type} (name : String) (written : α → Bytes → Prop)
    (default value : α) : FieldForm := ⟨name, written value, default = value⟩

@[simps]
def FieldForm.required {α : Type} (name : String) (written : α → Bytes → Prop) (value : α) :
    FieldForm := ⟨name, written value, False⟩

/-- The key of an unknown member denotes a text. -/
def Denotes (key : Bytes) : Prop := ∃ text, WritesText text key

/-- The members that are left of a record, in any order and among unknown ones whose keys are
`foreign`.  The names are those of the fields that are given. -/
inductive WritesFields (foreign : Bytes → Prop) (fields : List FieldForm) :
    Bool → List String → Bytes → Prop where
  | brace {first : Bool} {blank : Bytes} (blanks : Blank blank) :
      WritesFields foreign fields first [] (blank ++ [125])
  | known {first : Bool} {before key colon value tail : Bytes} {given : List String}
      {field : FieldForm} (separates : Separates first before) (listed : field ∈ fields)
      (unused : field.name ∉ given) (named : WritesText field.name key) (between : Colon colon)
      (form : field.written value) (more : WritesFields foreign fields false given tail) :
      WritesFields foreign fields first (field.name :: given)
        (before ++ (key ++ (colon ++ (value ++ tail))))
  | unknown {first : Bool} {before key colon value tail : Bytes} {given : List String}
      (separates : Separates first before) (strange : foreign key)
      (apart : ∀ field ∈ fields, ¬ WritesText field.name key) (between : Colon colon)
      (formed : WellFormed value) (more : WritesFields foreign fields false given tail) :
      WritesFields foreign fields first given (before ++ (key ++ (colon ++ (value ++ tail))))

/-- An object with the fields of a record, but for some that may be left out. -/
def WritesRecord (foreign : Bytes → Prop) (fields : List FieldForm) (bytes : Bytes) : Prop :=
  ∃ given tail, WritesFields foreign fields true given tail ∧
    (∀ field ∈ fields, field.name ∉ given → field.omittable) ∧ bytes = 123 :: tail

end CachingProxy.Json
