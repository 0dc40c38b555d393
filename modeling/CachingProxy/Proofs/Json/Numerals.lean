import CachingProxy.Proofs.Json.Tokens

/-!
# Reading numerals

A numeral is read up to the first octet that cannot belong to it, as the digits it is written with.
Whatever is read as a numeral has the form of one.
-/

set_option autoImplicit false

namespace CachingProxy.Json

namespace Numeral

/-! ## Forms -/

def values (digits : Bytes) : List Nat := digits.map fun b => b.toNat - 48

inductive WritesFraction : Option (List Nat) → Bytes → Prop where
  | absent : WritesFraction none []
  | digits {digits : Bytes} (written : Digits digits) :
      WritesFraction (some (values digits)) (46 :: digits)

inductive WritesSign : Bool → Bytes → Prop where
  | absent : WritesSign false []
  | plus : WritesSign false [43]
  | minus : WritesSign true [45]

inductive WritesExponent : Option Exponent → Bytes → Prop where
  | absent : WritesExponent none []
  | digits {letter : UInt8} {negative : Bool} {sign digits : Bytes}
      (known : letter = 101 ∨ letter = 69) (signed : WritesSign negative sign)
      (written : Digits digits) :
      WritesExponent (some ⟨negative, values digits⟩) (letter :: (sign ++ digits))

/-- A numeral without its sign. -/
inductive WritesUnsigned (negative : Bool) : Numeral → Bytes → Prop where
  | parts {whole broken raised : Bytes} {fraction : Option (List Nat)}
      {exponent : Option Exponent} (written : Whole whole) (part : WritesFraction fraction broken)
      (part' : WritesExponent exponent raised) :
      WritesUnsigned negative ⟨negative, values whole, fraction, exponent⟩
        (whole ++ (broken ++ raised))

/-- The forms of a numeral: its digits are those it is written with. -/
inductive WritesNumeral : Numeral → Bytes → Prop where
  | plain {number : Numeral} {bytes : Bytes} (written : WritesUnsigned false number bytes) :
      WritesNumeral number bytes
  | negative {number : Numeral} {bytes : Bytes} (written : WritesUnsigned true number bytes) :
      WritesNumeral number (45 :: bytes)

theorem exists_writesFraction {bytes : Bytes} (part : FractionPart bytes) :
    ∃ fraction, WritesFraction fraction bytes := by
  rcases part with rfl | ⟨digits, written, rfl⟩
  · exact ⟨_, .absent⟩
  · exact ⟨_, .digits written⟩

theorem exists_writesExponent {bytes : Bytes} (part : ExponentPart bytes) :
    ∃ exponent, WritesExponent exponent bytes := by
  rcases part with rfl | ⟨letter, sign, digits, known, signs, written, rfl⟩
  · exact ⟨_, .absent⟩
  · rcases signs with rfl | rfl | rfl
    · exact ⟨_, .digits known .absent written⟩
    · exact ⟨_, .digits known .plus written⟩
    · exact ⟨_, .digits known .minus written⟩

theorem exists_writesNumeral {bytes : Bytes} (numeral : IsNumeral bytes) :
    ∃ number, WritesNumeral number bytes := by
  obtain ⟨sign, whole, broken, raised, signs, written, part, part', rfl⟩ := numeral
  obtain ⟨fraction, part⟩ := exists_writesFraction part
  obtain ⟨exponent, part'⟩ := exists_writesExponent part'
  rcases signs with rfl | rfl
  · rw [List.nil_append]
    exact ⟨_, .plain (.parts written part part')⟩
  · rw [List.singleton_append]
    exact ⟨_, .negative (.parts written part part')⟩

/-! ## Digits -/

theorem isDigitByte_iff (b : UInt8) : isDigitByte b = true ↔ 48 ≤ b.toNat ∧ b.toNat ≤ 57 := by
  rw [isDigitByte, Bool.and_eq_true, decide_eq_true_eq, decide_eq_true_eq, UInt8.le_iff_toNat_le,
    UInt8.le_iff_toNat_le]
  rfl

theorem ne_of_digit {b c : UInt8} (digit : isDigitByte b = true)
    (other : isDigitByte c = false) : b ≠ c := by
  rintro rfl
  rw [digit] at other
  cases other

theorem solid_of_digit {b : UInt8} (digit : isDigitByte b = true) : isBlankByte b = false := by
  simp [isBlankByte, ne_of_digit digit (show isDigitByte 32 = false by decide),
    ne_of_digit digit (show isDigitByte 10 = false by decide),
    ne_of_digit digit (show isDigitByte 9 = false by decide),
    ne_of_digit digit (show isDigitByte 13 = false by decide)]

theorem digits_append {found rest : Bytes} (all : ∀ b ∈ found, isDigitByte b = true)
    (ends : ∀ b ∈ rest.head?, isDigitByte b = false) :
    digits (found ++ rest) = (values found, rest) := by
  obtain ⟨run, left⟩ := Text.run_append all ends
  rw [digits, run, left, values]

theorem someDigits_append (atEnd : JsonError) {found rest : Bytes} (written : Digits found)
    (ends : ∀ b ∈ rest.head?, isDigitByte b = false) :
    someDigits atEnd (found ++ rest) = .ok (values found, rest) := by
  rw [someDigits, digits_append written.2 ends]
  cases found with
  | nil => exact absurd rfl written.1
  | cons => rfl

theorem isDigitByte_of_head {found : Bytes} (written : Digits found) {b : UInt8}
    {rest tail : Bytes} (same : found ++ rest = b :: tail) : isDigitByte b = true := by
  cases found with
  | nil => exact absurd rfl written.1
  | cons d found =>
      rw [List.cons_append, List.cons.injEq] at same
      exact same.1 ▸ written.2 d List.mem_cons_self

theorem digits_of_someDigits {atEnd : JsonError} {bytes rest : Bytes} {found : List Nat}
    (read : someDigits atEnd bytes = .ok (found, rest)) :
    ∃ front, Digits front ∧ found = values front ∧ bytes = front ++ rest := by
  have parts := List.takeWhile_append_dropWhile (p := isDigitByte) (l := bytes)
  have all := List.all_eq_true.mp (List.all_takeWhile (p := isDigitByte) (l := bytes))
  rw [someDigits, digits] at read
  cases run : bytes.takeWhile isDigitByte with
  | nil =>
      rw [run] at read
      cases left : bytes.dropWhile isDigitByte with
      | nil =>
          rw [left] at read
          cases read
      | cons b more =>
          rw [left] at read
          cases read
  | cons b front =>
      rw [run] at read
      obtain ⟨rfl, rfl⟩ := Prod.mk.inj (Except.ok.inj read)
      rw [run] at parts all
      exact ⟨b :: front, ⟨List.cons_ne_nil b front, all⟩, rfl, parts.symm⟩

theorem ascii_of_digits {digits : Bytes} (all : ∀ b ∈ digits, isDigitByte b = true) :
    Utf8.Ascii digits := by
  intro b member
  have bounds := (isDigitByte_iff b).mp (all b member)
  omega

/-! ## Exponents -/

theorem readExponent_of_ends (atEnd : JsonError) (number : Numeral) {rest : Bytes}
    (ends : Ends rest) : readExponent atEnd number rest = .ok (number, rest) := by
  cases rest with
  | nil => rfl
  | cons b rest =>
      obtain ⟨-, -, small, capital⟩ := ends b rfl
      rw [readExponent.eq_def]
      exact if_neg (by simp [small, capital])

theorem readExponent_of_written (atEnd : JsonError) {number : Numeral}
    (bare : number.exponent = none) {exponent : Option Exponent} {raised rest : Bytes}
    (part : WritesExponent exponent raised) (ends : Ends rest) :
    readExponent atEnd number (raised ++ rest) = .ok ({ number with exponent }, rest) := by
  cases part with
  | absent =>
      rw [← bare]
      exact readExponent_of_ends atEnd number ends
  | @digits letter negative sign digits known signed written =>
      have read := someDigits_append atEnd written fun b found => (ends b found).1
      rw [List.cons_append, List.append_assoc, readExponent.eq_def]
      simp only [if_pos known]
      cases signed with
      | absent =>
          rw [List.nil_append]
          split
          · rename_i same
            exact absurd (isDigitByte_of_head written same) (by decide)
          · rename_i same
            exact absurd (isDigitByte_of_head written same) (by decide)
          · simp only [read]
            rfl
      | plus =>
          simp only [List.singleton_append, read]
          rfl
      | minus =>
          simp only [List.singleton_append, read]
          rfl

/-- No digit stands at the front of an exponent and of what ends a numeral. -/
theorem isDigitByte_of_exponent {exponent : Option Exponent} {raised rest : Bytes}
    (part : WritesExponent exponent raised) (ends : Ends rest) :
    ∀ b ∈ (raised ++ rest).head?, isDigitByte b = false ∧ b ≠ 46 := by
  cases part with
  | absent => exact fun b found => ⟨(ends b found).1, (ends b found).2.1⟩
  | digits known =>
      intro b found
      rw [List.cons_append, List.head?_cons, Option.mem_some_iff] at found
      rw [← found]
      rcases known with rfl | rfl <;> decide

theorem writesExponent_of_readExponent {atEnd : JsonError} {number read : Numeral}
    (bare : number.exponent = none) {bytes rest : Bytes}
    (success : readExponent atEnd number bytes = .ok (read, rest)) :
    ∃ exponent raised, WritesExponent exponent raised ∧ read = { number with exponent } ∧
      bytes = raised ++ rest := by
  have unraised (same : (number, bytes) = (read, rest)) :
      ∃ exponent raised, WritesExponent exponent raised ∧ read = { number with exponent } ∧
        bytes = raised ++ rest := by
    obtain ⟨rfl, rfl⟩ := Prod.mk.inj same
    refine ⟨none, [], .absent, ?_, rfl⟩
    rw [← bare]
  cases bytes with
  | nil => exact unraised (Except.ok.inj success)
  | cons letter behind =>
      rw [readExponent.eq_def] at success
      by_cases known : letter = 101 ∨ letter = 69
      · simp only [if_pos known] at success
        -- The same digits are wanted behind each sign.
        have signed {negative : Bool} {sign tail : Bytes} (written : WritesSign negative sign)
            (success : (someDigits atEnd tail >>= fun found => pure
              ({ number with exponent := some ⟨negative, found.1⟩ }, found.2)) = .ok (read, rest)) :
            ∃ exponent raised, WritesExponent exponent raised ∧ read = { number with exponent } ∧
              letter :: (sign ++ tail) = raised ++ rest := by
          obtain ⟨⟨found, left⟩, digits, last⟩ := exists_of_bind_ok success
          obtain ⟨rfl, rfl⟩ := Prod.mk.inj (Except.ok.inj last)
          obtain ⟨front, some, rfl, rfl⟩ := digits_of_someDigits digits
          refine ⟨_, _, .digits known written some, rfl, ?_⟩
          rw [List.cons_append, List.append_assoc]
        split at success
        · exact signed .plus success
        · exact signed .minus success
        · exact signed .absent success
      · simp only [if_neg known] at success
        exact unraised (Except.ok.inj success)

/-! ## Fractions -/

theorem readFraction_of_ends (atEnd : JsonError) (number : Numeral) {rest : Bytes}
    (ends : Ends rest) : readFraction atEnd number rest = .ok (number, rest) := by
  rw [readFraction.eq_def]
  split
  · exact absurd rfl (ends 46 rfl).2.1
  · exact readExponent_of_ends atEnd number ends

theorem readFraction_of_written (atEnd : JsonError) {number : Numeral}
    (bare : number.fraction = none ∧ number.exponent = none) {fraction : Option (List Nat)}
    {exponent : Option Exponent} {broken raised rest : Bytes}
    (part : WritesFraction fraction broken) (part' : WritesExponent exponent raised)
    (ends : Ends rest) :
    readFraction atEnd number (broken ++ (raised ++ rest)) =
      .ok ({ number with fraction, exponent }, rest) := by
  have inner := isDigitByte_of_exponent part' ends
  cases part with
  | absent =>
      rw [List.nil_append, readFraction.eq_def, ← bare.1]
      split
      · rename_i same
        exact absurd rfl (inner 46 (by rw [same]; rfl)).2
      · exact readExponent_of_written atEnd bare.2 part' ends
  | digits written =>
      rw [List.cons_append, readFraction.eq_def]
      simp only [someDigits_append atEnd written fun b found => (inner b found).1]
      exact readExponent_of_written atEnd (by exact bare.2) part' ends

theorem written_of_readFraction {atEnd : JsonError} {number read : Numeral}
    (bare : number.fraction = none ∧ number.exponent = none) {bytes rest : Bytes}
    (success : readFraction atEnd number bytes = .ok (read, rest)) :
    ∃ fraction exponent broken raised, WritesFraction fraction broken ∧
      WritesExponent exponent raised ∧ read = { number with fraction, exponent } ∧
      bytes = broken ++ (raised ++ rest) := by
  rw [readFraction.eq_def] at success
  split at success
  · obtain ⟨⟨found, left⟩, digits, more⟩ := exists_of_bind_ok success
    obtain ⟨front, written, rfl, rfl⟩ := digits_of_someDigits digits
    obtain ⟨exponent, raised, part', rfl, rfl⟩ :=
      writesExponent_of_readExponent (by exact bare.2) more
    exact ⟨_, _, _, _, .digits written, part', rfl, rfl⟩
  · obtain ⟨exponent, raised, part', rfl, rfl⟩ := writesExponent_of_readExponent bare.2 success
    refine ⟨none, _, _, _, .absent, part', ?_, rfl⟩
    rw [← bare.1]

/-! ## Numerals -/

theorem readUnsigned_of_whole (atEnd : JsonError) (negative : Bool) {whole rest : Bytes}
    (written : Whole whole) (ends : ∀ b ∈ rest.head?, isDigitByte b = false) :
    readUnsigned atEnd negative (whole ++ rest) =
      readFraction atEnd { negative, whole := values whole } rest := by
  rw [readUnsigned, someDigits_append atEnd written.1 ends]
  simp only [bind, Except.bind]
  split
  · rename_i zero
    -- A zero at the front stands alone.
    cases whole with
    | nil => cases zero
    | cons b more =>
        rw [values, List.map_cons, List.cons.injEq] at zero
        have digit := (isDigitByte_iff b).mp (written.1.2 b List.mem_cons_self)
        have is : b = 48 := UInt8.toNat_inj.mp (show b.toNat = 48 by omega)
        have alone := written.2 (by rw [is]; rfl)
        rw [List.cons.injEq] at alone
        rw [alone.2] at zero
        cases zero.2
  · rfl

theorem WritesUnsigned.head {negative : Bool} {number : Numeral} {bytes : Bytes}
    (written : WritesUnsigned negative number bytes) :
    ∃ b tail, bytes = b :: tail ∧ isDigitByte b = true := by
  cases written with
  | @parts whole _ _ _ _ written =>
      cases whole with
      | nil => exact absurd rfl written.1.1
      | cons b more => exact ⟨b, _, rfl, written.1.2 b List.mem_cons_self⟩

theorem readUnsigned_of_written (atEnd : JsonError) {negative : Bool} {number : Numeral}
    {bytes rest : Bytes} (written : WritesUnsigned negative number bytes) (ends : Ends rest) :
    readUnsigned atEnd negative (bytes ++ rest) = .ok (number, rest) := by
  cases written with
  | @parts whole broken raised fraction exponent written part part' =>
      have inner : ∀ b ∈ (broken ++ (raised ++ rest)).head?, isDigitByte b = false := by
        cases part with
        | absent => exact fun b found => (isDigitByte_of_exponent part' ends b found).1
        | digits =>
            intro b found
            rw [List.cons_append, List.head?_cons, Option.mem_some_iff] at found
            rw [← found]
            decide
      rw [List.append_assoc, List.append_assoc, readUnsigned_of_whole atEnd negative written inner]
      exact readFraction_of_written atEnd ⟨rfl, rfl⟩ part part' ends

theorem WritesUnsigned.ascii {negative : Bool} {number : Numeral} {bytes : Bytes}
    (written : WritesUnsigned negative number bytes) : Utf8.Ascii bytes := by
  cases written with
  | parts written part part' =>
      refine List.forall_mem_append.mpr ⟨ascii_of_digits written.1.2,
        List.forall_mem_append.mpr ⟨?_, ?_⟩⟩
      · cases part with
        | absent => exact fun b member => absurd member List.not_mem_nil
        | digits written =>
            exact List.forall_mem_cons.mpr ⟨by decide, ascii_of_digits written.2⟩
      · cases part' with
        | absent => exact fun b member => absurd member List.not_mem_nil
        | @digits _ _ sign _ known signed written =>
            have signs : Utf8.Ascii sign := by
              cases signed <;> decide
            refine List.forall_mem_cons.mpr ⟨?_, List.forall_mem_append.mpr
              ⟨signs, ascii_of_digits written.2⟩⟩
            rcases known with rfl | rfl <;> decide

theorem WritesNumeral.ascii {number : Numeral} {bytes : Bytes}
    (written : WritesNumeral number bytes) : Utf8.Ascii bytes := by
  cases written with
  | plain written => exact written.ascii
  | negative written => exact List.forall_mem_cons.mpr ⟨by decide, written.ascii⟩

theorem written_of_readUnsigned {atEnd : JsonError} {negative : Bool} {number : Numeral}
    {bytes rest : Bytes} (success : readUnsigned atEnd negative bytes = .ok (number, rest)) :
    ∃ front, WritesUnsigned negative number front ∧ bytes = front ++ rest := by
  obtain ⟨⟨found, left⟩, digits, more⟩ := exists_of_bind_ok success
  obtain ⟨front, written, rfl, rfl⟩ := digits_of_someDigits digits
  dsimp only at more
  split at more
  · cases more
  · rename_i single
    obtain ⟨fraction, exponent, broken, raised, part, part', rfl, rfl⟩ :=
      written_of_readFraction ⟨rfl, rfl⟩ more
    have whole : Whole front := by
      refine ⟨written, fun zero => ?_⟩
      cases front with
      | nil => cases zero
      | cons b front =>
          obtain rfl : b = 48 := Option.some.inj zero
          cases front with
          | nil => rfl
          | cons c front => exact absurd rfl (single _ _)
    refine ⟨_, .parts whole part part', ?_⟩
    simp only [List.append_assoc]

end Numeral

end CachingProxy.Json
