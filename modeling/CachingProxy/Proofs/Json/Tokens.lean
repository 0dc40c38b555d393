import CachingProxy.Proofs.Json.Grammar
import CachingProxy.Proofs.Text.Digits
import CachingProxy.Proofs.Text.Encoding

/-!
# Reading what stands between values

A reader passes over blanks and finds the comma, the colon or the bracket behind them.  What it
passed over when it succeeds has the form that the grammar gives.
-/

set_option autoImplicit false

namespace CachingProxy.Json

theorem exists_of_bind_ok {ε α β : Type} {first : Except ε α} {next : α → Except ε β} {result : β}
    (success : (first >>= next) = .ok result) :
    ∃ value, first = .ok value ∧ next value = .ok result := by
  cases first with
  | error cause => cases success
  | ok value => exact ⟨value, rfl, success⟩

/-! ## Blanks -/

theorem skipBlanks_append {blank : Bytes} (blanks : Blank blank) (rest : Bytes) :
    skipBlanks (blank ++ rest) = skipBlanks rest :=
  List.dropWhile_append_of_pos blanks

theorem skipBlanks_cons {b : UInt8} (solid : isBlankByte b = false) (rest : Bytes) :
    skipBlanks (b :: rest) = b :: rest :=
  List.dropWhile_cons_of_neg (by simp [solid])

theorem skipBlanks_blank_cons {blank : Bytes} (blanks : Blank blank) {b : UInt8}
    (solid : isBlankByte b = false) (rest : Bytes) :
    skipBlanks (blank ++ b :: rest) = b :: rest := by
  rw [skipBlanks_append blanks, skipBlanks_cons solid]

theorem exists_blank_append (bytes : Bytes) :
    ∃ blank, Blank blank ∧ bytes = blank ++ skipBlanks bytes :=
  ⟨bytes.takeWhile isBlankByte, List.all_eq_true.mp List.all_takeWhile,
    List.takeWhile_append_dropWhile.symm⟩

theorem not_isBlankByte_of_skipBlanks {bytes rest : Bytes} {b : UInt8}
    (left : skipBlanks bytes = b :: rest) : isBlankByte b = false := by
  have solid := List.head?_dropWhile_not isBlankByte bytes
  rw [← skipBlanks, left] at solid
  simpa using solid

theorem Blank.append {blank more : Bytes} (blanks : Blank blank) (blanks' : Blank more) :
    Blank (blank ++ more) :=
  List.forall_mem_append.mpr ⟨blanks, blanks'⟩

theorem Blank.ascii {blank : Bytes} (blanks : Blank blank) : Utf8.Ascii blank := by
  intro b member
  have among := blanks b member
  simp only [isBlankByte, Bool.or_eq_true, beq_iff_eq] at among
  rcases among with ((rfl | rfl) | rfl) | rfl <;> decide

theorem ascii_mark {before after : Bytes} {mark : UInt8} (small : mark.toNat < 128)
    (blanks : Blank before) (blanks' : Blank after) : Utf8.Ascii (before ++ mark :: after) :=
  List.forall_mem_append.mpr ⟨blanks.ascii, List.forall_mem_cons.mpr ⟨small, blanks'.ascii⟩⟩

/-! ## Separators -/

theorem Separates.ascii {first : Bool} {before : Bytes} (separates : Separates first before) :
    Utf8.Ascii before := by
  cases first with
  | true => exact Blank.ascii separates
  | false =>
      obtain ⟨before, after, blanks, blanks', rfl⟩ := separates
      exact ascii_mark (by decide) blanks blanks'

theorem Separates.append {first : Bool} {before blank : Bytes} (separates : Separates first before)
    (blanks : Blank blank) : Separates first (before ++ blank) := by
  cases first with
  | true => exact Blank.append separates blanks
  | false =>
      obtain ⟨before, after, blanks', blanks'', rfl⟩ := separates
      exact ⟨before, after ++ blank, blanks', blanks''.append blanks, by simp⟩

theorem Colon.ascii {colon : Bytes} (between : Colon colon) : Utf8.Ascii colon := by
  obtain ⟨before, after, blanks, blanks', rfl⟩ := between
  exact ascii_mark (by decide) blanks blanks'

theorem Colon.append {colon blank : Bytes} (between : Colon colon) (blanks : Blank blank) :
    Colon (colon ++ blank) := by
  obtain ⟨before, after, blanks', blanks'', rfl⟩ := between
  exact ⟨before, after ++ blank, blanks', blanks''.append blanks, by simp⟩

/-- The first octet of a value: it is no blank and closes no list. -/
def Begins (value : Bytes) : Prop :=
  ∃ b rest, value = b :: rest ∧ isBlankByte b = false ∧ b ≠ 93

theorem nextItem_close {blank : Bytes} (blanks : Blank blank) (first : Bool) (rest : Bytes) :
    nextItem first (blank ++ [93] ++ rest) = .ok (false, rest) := by
  rw [nextItem, List.append_assoc, List.singleton_append,
    skipBlanks_blank_cons blanks (by decide)]
  exact if_pos rfl

theorem nextItem_item {first : Bool} {before value : Bytes} (separates : Separates first before)
    (begins : Begins value) (rest : Bytes) :
    nextItem first (before ++ (value ++ rest)) = .ok (true, value ++ rest) := by
  obtain ⟨b, tail, rfl, solid, inside⟩ := begins
  rw [nextItem, List.cons_append]
  cases first with
  | true =>
      rw [skipBlanks_blank_cons separates solid]
      simp only [if_neg inside, if_true]
  | false =>
      obtain ⟨before, after, blanks, blanks', rfl⟩ := separates
      rw [List.append_assoc, List.cons_append, skipBlanks_blank_cons blanks (by decide)]
      simp only [skipBlanks_blank_cons blanks' solid, if_neg inside]
      rfl

theorem nextMember_close {blank : Bytes} (blanks : Blank blank) (first : Bool) (rest : Bytes) :
    nextMember first (blank ++ [125] ++ rest) = .ok (false, rest) := by
  rw [nextMember, List.append_assoc, List.singleton_append,
    skipBlanks_blank_cons blanks (by decide)]
  exact if_pos rfl

theorem nextMember_member {first : Bool} {before : Bytes} (separates : Separates first before)
    (rest : Bytes) : nextMember first (before ++ 34 :: rest) = .ok (true, rest) := by
  rw [nextMember]
  cases first with
  | true =>
      rw [skipBlanks_blank_cons separates (by decide)]
      rfl
  | false =>
      obtain ⟨before, after, blanks, blanks', rfl⟩ := separates
      rw [List.append_assoc, List.cons_append, skipBlanks_blank_cons blanks (by decide)]
      simp only [skipBlanks_blank_cons blanks' (show isBlankByte 34 = false by decide)]
      rfl

theorem readColon_colon {colon : Bytes} (between : Colon colon) :
    ∃ blank, Blank blank ∧ ∀ rest, readColon (colon ++ rest) = .ok (blank ++ rest) := by
  obtain ⟨before, after, blanks, blanks', rfl⟩ := between
  refine ⟨after, blanks', fun rest => ?_⟩
  rw [readColon, List.append_assoc, List.cons_append, skipBlanks_blank_cons blanks (by decide)]
  exact if_pos rfl

/-! ## What is passed over -/

theorem nextItem_cases {first more : Bool} {bytes rest : Bytes}
    (next : nextItem first bytes = .ok (more, rest)) :
    if more then ∃ before, Separates first before ∧ bytes = before ++ rest
    else ∃ blank, Blank blank ∧ bytes = blank ++ [93] ++ rest := by
  obtain ⟨blank, blanks, parts⟩ := exists_blank_append bytes
  rw [parts]
  rw [nextItem] at next
  cases left : skipBlanks bytes with
  | nil =>
      rw [left] at next
      cases next
  | cons b behind =>
  simp only [left] at next
  split at next
  · rename_i closes
    obtain ⟨rfl, rfl⟩ := Prod.mk.inj (Except.ok.inj next)
    exact ⟨blank, blanks, by rw [closes, List.append_assoc]; rfl⟩
  split at next
  · rename_i opened
    obtain ⟨rfl, rfl⟩ := Prod.mk.inj (Except.ok.inj next)
    rw [opened]
    exact ⟨blank, blanks, rfl⟩
  rename_i following
  split at next
  · rename_i comma
    obtain ⟨blank', blanks', parts'⟩ := exists_blank_append behind
    cases left' : skipBlanks behind with
    | nil =>
        rw [left'] at next
        cases next
    | cons c tail =>
        simp only [left'] at next
        split at next
        · cases next
        · obtain ⟨rfl, rfl⟩ := Prod.mk.inj (Except.ok.inj next)
          rw [Bool.not_eq_true] at following
          rw [following]
          refine ⟨blank ++ 44 :: blank', ⟨blank, blank', blanks, blanks', rfl⟩, ?_⟩
          rw [comma, parts', left', List.append_assoc]
          rfl
  · cases next

theorem nextMember_cases {first more : Bool} {bytes rest : Bytes}
    (next : nextMember first bytes = .ok (more, rest)) :
    if more then ∃ before, Separates first before ∧ bytes = before ++ 34 :: rest
    else ∃ blank, Blank blank ∧ bytes = blank ++ [125] ++ rest := by
  obtain ⟨blank, blanks, parts⟩ := exists_blank_append bytes
  rw [parts]
  rw [nextMember] at next
  cases left : skipBlanks bytes with
  | nil =>
      rw [left] at next
      cases next
  | cons b behind =>
  simp only [left] at next
  split at next
  · rename_i closes
    obtain ⟨rfl, rfl⟩ := Prod.mk.inj (Except.ok.inj next)
    exact ⟨blank, blanks, by rw [closes, List.append_assoc]; rfl⟩
  split at next
  · rename_i opened
    split at next
    · rename_i quote
      obtain ⟨rfl, rfl⟩ := Prod.mk.inj (Except.ok.inj next)
      rw [opened, quote]
      exact ⟨blank, blanks, rfl⟩
    · cases next
  rename_i following
  split at next
  · rename_i comma
    obtain ⟨blank', blanks', parts'⟩ := exists_blank_append behind
    cases left' : skipBlanks behind with
    | nil =>
        rw [left'] at next
        cases next
    | cons c tail =>
        simp only [left'] at next
        split at next
        · rename_i quote
          obtain ⟨rfl, rfl⟩ := Prod.mk.inj (Except.ok.inj next)
          rw [Bool.not_eq_true] at following
          rw [following]
          refine ⟨blank ++ 44 :: blank', ⟨blank, blank', blanks, blanks', rfl⟩, ?_⟩
          rw [comma, parts', left', quote, List.append_assoc]
          rfl
        · cases next
  · cases next

theorem colon_of_readColon {bytes rest : Bytes} (read : readColon bytes = .ok rest) :
    ∃ colon, Colon colon ∧ bytes = colon ++ rest := by
  obtain ⟨blank, blanks, parts⟩ := exists_blank_append bytes
  rw [parts]
  rw [readColon] at read
  cases left : skipBlanks bytes with
  | nil =>
      rw [left] at read
      cases read
  | cons b behind =>
      simp only [left] at read
      split at read
      · rename_i mark
        obtain rfl := Except.ok.inj read
        refine ⟨blank ++ [58], ⟨blank, [], blanks, blank_nil, rfl⟩, ?_⟩
        rw [mark, List.append_assoc]
        rfl
      · cases read

/-! ## Where a value ends -/

/-- What follows a value and cannot belong to a numeral. -/
def Ends (rest : Bytes) : Prop :=
  ∀ b ∈ rest.head?, Numeral.isDigitByte b = false ∧ b ≠ 46 ∧ b ≠ 101 ∧ b ≠ 69

theorem ends_cons {b : UInt8} (apart : Numeral.isDigitByte b = false ∧ b ≠ 46 ∧ b ≠ 101 ∧ b ≠ 69)
    (rest : Bytes) : Ends (b :: rest) := by
  intro other found
  rw [List.head?_cons, Option.mem_some_iff] at found
  rwa [← found]

theorem ends_nil : Ends [] := by
  intro b found
  cases found

theorem ends_blank_append {blank rest : Bytes} (blanks : Blank blank) (ends : Ends rest) :
    Ends (blank ++ rest) := by
  cases blank with
  | nil => exact ends
  | cons b tail =>
      have among := blanks b List.mem_cons_self
      rw [isBlankByte, Bool.or_eq_true, Bool.or_eq_true, Bool.or_eq_true, beq_iff_eq, beq_iff_eq,
        beq_iff_eq, beq_iff_eq] at among
      refine ends_cons ?_ _
      rcases among with ((rfl | rfl) | rfl) | rfl <;> decide

theorem ends_close {blank : Bytes} (blanks : Blank blank) {close : UInt8}
    (closes : close = 93 ∨ close = 125) (rest : Bytes) : Ends (blank ++ [close] ++ rest) := by
  rw [List.append_assoc]
  refine ends_blank_append blanks (ends_cons ?_ rest)
  rcases closes with rfl | rfl <;> decide

theorem ends_of_separates {before : Bytes} (separates : Separates false before)
    (more rest : Bytes) : Ends (before ++ more ++ rest) := by
  obtain ⟨before, after, blanks, -, rfl⟩ := separates
  rw [List.append_assoc, List.append_assoc]
  exact ends_blank_append blanks (ends_cons (by decide) _)

end CachingProxy.Json
