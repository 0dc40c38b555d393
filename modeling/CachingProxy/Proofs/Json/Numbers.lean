import CachingProxy.Json.Record
import CachingProxy.Proofs.Domain.Hosts
import CachingProxy.Proofs.Json.Numerals
import CachingProxy.Proofs.Text.Digits

/-!
# Reading natural numbers

A number of at most 64 bits is read from its decimal digits.  It lies far below the largest finite
double, so it is never refused as out of range.
-/

set_option autoImplicit false

namespace CachingProxy.Json

/-! ## The digits of a number -/

theorem isPlain_of_isDigit {c : Char} (digit : Text.isDigit c = true) : Text.isPlain c = true := by
  rw [Text.isDigit_iff] at digit
  rw [Text.isPlain_iff]
  omega

theorem ofText_toString (n : Nat) :
    Bytes.ofText (toString n) = (Nat.toDigits 10 n).map fun c => UInt8.ofNat c.toNat := by
  have chars : (toString n).toList = Nat.toDigits 10 n := Nat.toList_repr
  rw [Bytes.ofText_of_plain, chars]
  intro c member
  exact isPlain_of_isDigit (Text.isDigit_of_mem_toDigits (chars ▸ member))

theorem toNat_octet_of_isDigit {c : Char} (digit : Text.isDigit c = true) :
    (UInt8.ofNat c.toNat).toNat = c.toNat :=
  Text.toNat_octet (isPlain_of_isDigit digit)

theorem whole_of_writesNat {n : Nat} {bytes : Bytes} (written : WritesNat n bytes) :
    Whole bytes := by
  rw [WritesNat, ofText_toString] at written
  subst written
  refine ⟨⟨by simp, fun b member => ?_⟩, fun zero => ?_⟩
  · obtain ⟨c, within, rfl⟩ := List.mem_map.mp member
    have digit := Text.isDigit_of_mem_toDigits within
    rw [Numeral.isDigitByte_iff, toNat_octet_of_isDigit digit]
    exact (Text.isDigit_iff c).mp digit
  · obtain ⟨c, first, same⟩ := Option.map_eq_some_iff.mp (List.head?_map ▸ zero)
    have digit := Text.isDigit_of_mem_toDigits (List.mem_of_head? first)
    have is : c = '0' := by
      rw [← Char.toNat_inj, ← toNat_octet_of_isDigit digit, same]
      rfl
    have none : n = 0 := Text.toDigits_of_head (by decide) (is ▸ first)
    rw [none]
    rfl

theorem value_values_of_writesNat {n : Nat} {bytes : Bytes} (written : WritesNat n bytes) :
    Numeral.value (Numeral.values bytes) = n := by
  have digits : Numeral.values bytes =
      (Nat.toDigits 10 n).map fun c => c.toNat - '0'.toNat := by
    rw [WritesNat, ofText_toString] at written
    rw [written, Numeral.values, List.map_map]
    refine List.map_congr_left fun c member => ?_
    exact congrArg (fun m => m - 48)
      (toNat_octet_of_isDigit (Text.isDigit_of_mem_toDigits member))
  rw [Numeral.value, digits, List.foldl_map]
  exact Text.decimal_toDigits n

/-! ## The range of doubles -/

namespace Numeral

theorem le_foldl (digits : List Nat) (start : Nat) :
    start ≤ digits.foldl (fun n d => n * 10 + d) start := by
  induction digits generalizing start with
  | nil => exact Nat.le_refl start
  | cons d rest ih =>
      rw [List.foldl_cons]
      have := ih (start * 10 + d)
      omega

/-- Digits that fit a word are read to the last. -/
theorem wholePart_eq {digits : List Nat} {start : Nat}
    (fits : digits.foldl (fun n d => n * 10 + d) start ≤ maxWord) :
    wholePart start digits = (digits.foldl (fun n d => n * 10 + d) start, 0) := by
  induction digits generalizing start with
  | nil => rfl
  | cons d rest ih =>
      rw [List.foldl_cons] at fits ⊢
      have next : start * 10 + d ≤ maxWord := (le_foldl rest _).trans fits
      rw [wholePart, extend?]
      simp only [if_pos next]
      exact ih fits

/-- Rounding adds less than a unit of the last of 53 places. -/
theorem roundToDouble_le {n : Nat} (fits : n ≤ maxWord) : roundToDouble n ≤ n + 4096 := by
  have small : n.log2 < 64 := by
    by_cases none : n = 0
    · rw [none]
      decide
    · rw [Nat.log2_lt none]
      exact Nat.lt_of_le_of_lt fits (by decide)
  have unit : Nat.pow 2 (n.log2 + 1 - 53) ≤ 4096 :=
    Nat.pow_le_pow_right (by decide) (show n.log2 + 1 - 53 ≤ 12 by omega)
  have whole := Nat.div_add_mod n (Nat.pow 2 (n.log2 + 1 - 53))
  rw [roundToDouble]
  generalize Nat.pow 2 (n.log2 + 1 - 53) = size at unit whole
  split
  · rw [Nat.add_mul, Nat.one_mul, Nat.mul_comm]
    omega
  · rw [Nat.mul_comm]
    omega

theorem overflows_of_word {n : Nat} (fits : n ≤ maxWord) : overflows n (.ofNat 0) = false := by
  have one : roundToDouble (Nat.pow 10 0) = 1 := by decide
  have below : roundToDouble n < overflowBound := by
    have room : maxWord + 4096 < overflowBound := by decide +kernel
    have rounded := roundToDouble_le fits
    omega
  rw [overflows, one, Nat.mul_one]
  simp only [decide_eq_false (Nat.not_lt_zero maxPower), Bool.false_or,
    decide_eq_false (Nat.not_le.mpr below), Bool.and_false]

theorem not_isOutOfRange {digits : List Nat} (negative : Bool) (fits : value digits ≤ maxWord) :
    isOutOfRange { negative, whole := digits } = false := by
  have read : wholePart 0 digits = (value digits, 0) := wholePart_eq fits
  rw [isOutOfRange]
  simp only [read, Option.getD_none, fractionPart]
  exact overflows_of_word fits

end Numeral

theorem readNat_of_writesNat {n bound : Nat} {bytes blank rest : Bytes} (word : bound ≤ UInt64.size)
    (small : n < bound) (written : WritesNat n bytes) (blanks : Blank blank) (ends : Ends rest) :
    readNat bound (blank ++ (bytes ++ rest)) = .ok (n, rest) := by
  have whole := whole_of_writesNat written
  have value := value_values_of_writesNat written
  have fits : Numeral.value (Numeral.values bytes) ≤ Numeral.maxWord := by
    rw [value]
    have : UInt64.size = Numeral.maxWord + 1 := rfl
    omega
  have read : readNumeral false (bytes ++ rest) =
      .ok ({ negative := false, whole := Numeral.values bytes }, rest) := by
    rw [readNumeral, Numeral.readUnsigned_of_whole .truncated false whole
      fun b found => (ends b found).1, Numeral.readFraction_of_ends .truncated _ ends]
    simp only [bind, Except.bind, Numeral.not_isOutOfRange false fits]
    rfl
  have natural :
      Numeral.natural? { negative := false, whole := Numeral.values bytes } = some n := by
    rw [value] at fits
    rw [Numeral.natural?]
    simp only [value]
    exact if_pos fits
  cases bytes with
  | nil => exact absurd rfl whole.1.1
  | cons b more =>
      have digit := whole.1.2 b List.mem_cons_self
      rw [readNat, List.cons_append, skipBlanks_blank_cons blanks (Numeral.solid_of_digit digit)]
      rw [List.cons_append] at read
      simp only [if_neg (Numeral.ne_of_digit digit (show Numeral.isDigitByte 45 = false by decide)),
        if_pos digit, read, bind, Except.bind, natural, if_pos small]

end CachingProxy.Json
