import CachingProxy.Text.Utf8
import Mathlib.Data.List.Basic

/-!
# Reading back encoded characters

The octets of a character are read as that character, whatever follows, so the lenient reading of an
encoded text gives the text.  An octet below 128 is a character by itself, so cutting such octets
off the front of a text leaves a text.
-/

set_option autoImplicit false

namespace CachingProxy.Utf8

theorem scan_cons {b : UInt8} {lead : Lead} (leads : lead? b = some lead) {bytes rest : Bytes}
    {code : Nat}
    (read : readTails lead.low lead.high lead.tails lead.bits bytes = (some code, rest)) :
    scan (b :: bytes) = some (Char.ofNat code) :: scan rest := by
  rw [scan, leads]
  simp only [read, Option.map_some]

theorem readTails_cons {low high : UInt8} {n : Nat}
    (within : low.toNat ≤ n % 64 + 128 ∧ n % 64 + 128 ≤ high.toNat) (count code : Nat)
    (rest : Bytes) :
    readTails low high (count + 1) code (UInt8.ofNat (n % 64 + 128) :: rest) =
      readTails 0x80 0xBF count (code * 64 + n % 64) rest := by
  have octet : (UInt8.ofNat (n % 64 + 128)).toNat = n % 64 + 128 := by
    rw [UInt8.toNat_ofNat', Nat.mod_eq_of_lt]
    omega
  rw [readTails, if_pos]
  · congr 1
    rw [octet]
    omega
  · rw [UInt8.le_iff_toNat_le, UInt8.le_iff_toNat_le, octet]
    exact within

theorem within_default (n : Nat) :
    (0x80 : UInt8).toNat ≤ n % 64 + 128 ∧ n % 64 + 128 ≤ (0xBF : UInt8).toNat :=
  ⟨show 128 ≤ _ by omega, show _ ≤ 191 by omega⟩

section

variable {n : Nat}

theorem lead?_one (small : n ≤ 0x7F) :
    lead? (UInt8.ofNat n) = some { bits := n, tails := 0 } := by
  have octet : (UInt8.ofNat n).toNat = n := by
    rw [UInt8.toNat_ofNat', Nat.mod_eq_of_lt]
    omega
  rw [lead?, octet]
  exact if_pos (by omega)

theorem lead?_two (large : 0x7F < n) (small : n ≤ 0x7FF) :
    lead? (UInt8.ofNat (n / 64 % 0x20 + 0xC0)) = some { bits := n / 64, tails := 1 } := by
  have octet : (UInt8.ofNat (n / 64 % 0x20 + 0xC0)).toNat = n / 64 + 0xC0 := by
    rw [UInt8.toNat_ofNat', Nat.mod_eq_of_lt] <;> omega
  rw [lead?, octet, if_neg (by omega), if_neg (by omega), if_pos (by omega), Nat.add_sub_cancel]

theorem lead?_three (large : 0x7FF < n) (small : n ≤ 0xFFFF) (scalar : n < 0xD800 ∨ 0xDFFF < n) :
    ∃ low high : UInt8, lead? (UInt8.ofNat (n / 4096 % 0x10 + 0xE0)) =
        some { bits := n / 4096, tails := 2, low, high } ∧
      low.toNat ≤ n / 64 % 64 + 128 ∧ n / 64 % 64 + 128 ≤ high.toNat := by
  have octet : (UInt8.ofNat (n / 4096 % 0x10 + 0xE0)).toNat = n / 4096 + 0xE0 := by
    rw [UInt8.toNat_ofNat', Nat.mod_eq_of_lt] <;> omega
  rw [lead?, octet, if_neg (by omega), if_neg (by omega), if_neg (by omega)]
  by_cases first : n / 4096 = 0
  · rw [if_pos (by omega), first]
    exact ⟨0xA0, 0xBF, rfl, show 160 ≤ _ by omega, show _ ≤ 191 by omega⟩
  rw [if_neg (by omega)]
  by_cases surrogates : n / 4096 = 13
  · rw [if_pos (by omega), surrogates]
    exact ⟨0x80, 0x9F, rfl, show 128 ≤ _ by omega, show _ ≤ 159 by omega⟩
  rw [if_neg (by omega), if_pos (by omega), Nat.add_sub_cancel]
  exact ⟨0x80, 0xBF, rfl, within_default _⟩

theorem lead?_four (large : 0xFFFF < n) (small : n ≤ 0x10FFFF) :
    ∃ low high : UInt8, lead? (UInt8.ofNat (n / 262144 % 0x08 + 0xF0)) =
        some { bits := n / 262144, tails := 3, low, high } ∧
      low.toNat ≤ n / 4096 % 64 + 128 ∧ n / 4096 % 64 + 128 ≤ high.toNat := by
  have octet : (UInt8.ofNat (n / 262144 % 0x08 + 0xF0)).toNat = n / 262144 + 0xF0 := by
    rw [UInt8.toNat_ofNat', Nat.mod_eq_of_lt] <;> omega
  rw [lead?, octet, if_neg (by omega), if_neg (by omega), if_neg (by omega), if_neg (by omega),
    if_neg (by omega), if_neg (by omega)]
  by_cases first : n / 262144 = 0
  · rw [if_pos (by omega), first]
    exact ⟨0x90, 0xBF, rfl, show 144 ≤ _ by omega, show _ ≤ 191 by omega⟩
  rw [if_neg (by omega)]
  by_cases last : n / 262144 = 4
  · rw [if_neg (by omega), if_pos (by omega), last]
    exact ⟨0x80, 0x8F, rfl, show 128 ≤ _ by omega, show _ ≤ 143 by omega⟩
  rw [if_pos (by omega), Nat.add_sub_cancel]
  exact ⟨0x80, 0xBF, rfl, within_default _⟩

end

/-- The octets of a character are read as that character. -/
theorem scan_encoded (c : Char) (rest : Bytes) :
    scan (String.utf8EncodeChar c ++ rest) = some c :: scan rest := by
  obtain ⟨scalar, bound⟩ : (c.toNat < 0xD800 ∨ 0xDFFF < c.toNat) ∧ c.toNat ≤ 0x10FFFF := by
    have valid : c.toNat < 0xD800 ∨ 0xDFFF < c.toNat ∧ c.toNat < 0x110000 := c.valid
    omega
  have final {code : Nat} (same : code = c.toNat) : Char.ofNat code = c := by
    rw [same, Char.ofNat_toNat]
  rw [String.utf8EncodeChar.eq_def]
  simp only [← Char.toNat_val] at scalar bound final ⊢
  generalize c.val.toNat = n at scalar bound final ⊢
  split
  · rename_i small
    rw [List.singleton_append, scan_cons (lead?_one small) rfl, final rfl]
  split
  · rename_i large small
    have tails := readTails_cons (within_default n) 0 (n / 64) rest
    exact (scan_cons (lead?_two (by omega) small) tails).trans (by rw [final (by omega)])
  split
  · rename_i large small
    obtain ⟨low, high, leads, within⟩ := lead?_three (by omega) small scalar
    have tails := (readTails_cons within 1 (n / 4096) _).trans
      (readTails_cons (within_default n) 0 _ rest)
    exact (scan_cons leads tails).trans (by rw [final (by omega)])
  · rename_i large
    obtain ⟨low, high, leads, within⟩ := lead?_four (by omega) bound
    have tails := (readTails_cons within 2 (n / 262144) _).trans
      ((readTails_cons (within_default (n / 64)) 1 _ _).trans
        (readTails_cons (within_default n) 0 _ rest))
    exact (scan_cons leads tails).trans (by rw [final (by omega)])

theorem scan_flatMap (cs : List Char) : scan (cs.flatMap String.utf8EncodeChar) = cs.map some := by
  induction cs with
  | nil => rw [List.flatMap_nil, scan, List.map_nil]
  | cons c rest ih => rw [List.flatMap_cons, scan_encoded, ih, List.map_cons]

theorem lenient_flatMap (cs : List Char) :
    lenient (cs.flatMap String.utf8EncodeChar) = String.ofList cs := by
  rw [lenient, scan_flatMap, List.map_map]
  exact congrArg String.ofList (List.map_id cs)

theorem lenient_ofText (text : String) : lenient (Bytes.ofText text) = text :=
  (lenient_flatMap text.toList).trans String.ofList_toList

/-! ## Octets of texts -/

/-- The octets of some text. -/
def IsText (bytes : Bytes) : Prop := ∃ text : String, bytes = Bytes.ofText text

theorem ofText_lenient {bytes : Bytes} (text : IsText bytes) :
    Bytes.ofText (lenient bytes) = bytes := by
  obtain ⟨text, rfl⟩ := text
  rw [lenient_ofText]

theorem encoded_cases (c : Char) :
    (c.toNat < 128 ∧ String.utf8EncodeChar c = [UInt8.ofNat c.toNat]) ∨
      (128 ≤ c.toNat ∧ ∃ b tail, String.utf8EncodeChar c = b :: tail ∧ 128 ≤ b.toNat) := by
  rw [String.utf8EncodeChar.eq_def]
  simp only [← Char.toNat_val]
  generalize c.val.toNat = n
  have lead {m : Nat} {tail : Bytes} (large : 128 ≤ m) (small : m < 256) :
      ∃ b more, UInt8.ofNat m :: tail = b :: more ∧ 128 ≤ b.toNat := by
    refine ⟨_, _, rfl, ?_⟩
    rw [UInt8.toNat_ofNat', Nat.mod_eq_of_lt small]
    exact large
  split
  · exact .inl ⟨by omega, rfl⟩
  split
  · exact .inr ⟨by omega, lead (by omega) (by omega)⟩
  split
  · exact .inr ⟨by omega, lead (by omega) (by omega)⟩
  · exact .inr ⟨by omega, lead (by omega) (by omega)⟩

theorem isText_flatMap (cs : List Char) : IsText (cs.flatMap String.utf8EncodeChar) := by
  refine ⟨String.ofList cs, ?_⟩
  rw [Bytes.ofText, String.toList_ofList]

/-- How a text begins: with an octet that is a character by itself, or with a larger character. -/
theorem IsText.cases {b : UInt8} {rest : Bytes} (text : IsText (b :: rest)) :
    (b.toNat < 128 ∧ IsText rest) ∨
      (128 ≤ b.toNat ∧ ∃ c tail, 128 ≤ c.toNat ∧ IsText tail ∧
        b :: rest = String.utf8EncodeChar c ++ tail) := by
  obtain ⟨text, same⟩ := text
  rw [Bytes.ofText] at same
  cases cs : text.toList with
  | nil =>
      rw [cs] at same
      cases same
  | cons c more =>
      rw [cs, List.flatMap_cons] at same
      rcases encoded_cases c with ⟨small, single⟩ | ⟨large, first, tail, several, high⟩
      · rw [single] at same
        obtain ⟨rfl, rfl⟩ := List.cons.inj same
        refine .inl ⟨?_, isText_flatMap more⟩
        rw [UInt8.toNat_ofNat', Nat.mod_eq_of_lt (by omega)]
        exact small
      · refine .inr ⟨?_, c, _, large, isText_flatMap more, same⟩
        rw [several] at same
        rwa [(List.cons.inj same).1]

theorem IsText.tail {b : UInt8} {rest : Bytes} (text : IsText (b :: rest)) (small : b.toNat < 128) :
    IsText rest := by
  rcases text.cases with ⟨-, rest⟩ | ⟨large, -⟩
  · exact rest
  · exact absurd small (Nat.not_lt.mpr large)

def Ascii (bytes : Bytes) : Prop := ∀ b ∈ bytes, b.toNat < 128

instance (bytes : Bytes) : Decidable (Ascii bytes) :=
  List.decidableBAll _ bytes

theorem IsText.of_append {front rest : Bytes} (text : IsText (front ++ rest))
    (ascii : Ascii front) : IsText rest := by
  induction front with
  | nil => exact text
  | cons b front ih =>
      exact ih (text.tail (ascii b List.mem_cons_self)) fun other member =>
        ascii other (List.mem_cons_of_mem b member)

theorem encoded_ofNat {b : UInt8} (small : b.toNat < 128) :
    String.utf8EncodeChar (Char.ofNat b.toNat) = [b] := by
  have valid : b.toNat.isValidChar := .inl (by omega)
  have code : (Char.ofNat b.toNat).toNat = b.toNat := by
    rw [Char.ofNat, dif_pos valid]
    rfl
  rcases encoded_cases (Char.ofNat b.toNat) with ⟨-, single⟩ | ⟨large, -⟩
  · rw [single, code, UInt8.ofNat_toNat]
  · omega

theorem isText_of_ascii {bytes : Bytes} (ascii : Ascii bytes) : IsText bytes := by
  have same : (bytes.map fun b => Char.ofNat b.toNat).flatMap String.utf8EncodeChar = bytes := by
    induction bytes with
    | nil => rfl
    | cons b bytes ih =>
        rw [List.map_cons, List.flatMap_cons, encoded_ofNat (ascii b List.mem_cons_self),
          ih fun other member => ascii other (List.mem_cons_of_mem b member)]
        rfl
  exact same ▸ isText_flatMap _

end CachingProxy.Utf8
