import CachingProxy.Proofs.Json.Grammar
import CachingProxy.Proofs.Json.Tokens
import CachingProxy.Proofs.Text.Encoding

/-!
# Reading texts

A text is read from each of its forms, and in the octets of a text only from these.  A literal is
skipped, also where its escapes leave a surrogate without its partner.
-/

set_option autoImplicit false

namespace CachingProxy.Json

/-- An octet that stands for itself between quotes. -/
def PlainOctet (b : UInt8) : Prop := 32 ≤ b.toNat ∧ b.toNat ≠ 34 ∧ b.toNat ≠ 92

/-! ## Characters as octets -/

theorem plainOctet_of_mem {c : Char} (unescaped : Unescaped c) {b : UInt8}
    (member : b ∈ String.utf8EncodeChar c) : PlainOctet b := by
  obtain ⟨visible, unquoted, unslashed⟩ := unescaped
  have apart (d : Char) (other : c ≠ d) : c.val.toNat ≠ d.val.toNat := fun same =>
    other (Char.ext (UInt32.toNat_inj.mp same))
  have quote : c.val.toNat ≠ 34 := apart '"' unquoted
  have slash : c.val.toNat ≠ 92 := apart '\\' unslashed
  replace visible : 32 ≤ c.val.toNat := visible
  rw [String.utf8EncodeChar.eq_def] at member
  simp only at member
  generalize c.val.toNat = n at visible quote slash member
  -- Every octet of a longer form is at least 128.
  have high {m : Nat} (large : 128 ≤ m) (small : m < 256) (is : b = UInt8.ofNat m) :
      PlainOctet b := by
    rw [is, PlainOctet, UInt8.toNat_ofNat', Nat.mod_eq_of_lt (by omega)]
    omega
  split at member
  · rw [List.mem_singleton] at member
    rw [member, PlainOctet, UInt8.toNat_ofNat', Nat.mod_eq_of_lt (by omega)]
    exact ⟨visible, quote, slash⟩
  split at member
  · rcases List.mem_cons.mp member with is | member
    · exact high (by omega) (by omega) is
    · exact high (by omega) (by omega) (List.mem_singleton.mp member)
  split at member
  · rcases List.mem_cons.mp member with is | member
    · exact high (by omega) (by omega) is
    rcases List.mem_cons.mp member with is | member
    · exact high (by omega) (by omega) is
    · exact high (by omega) (by omega) (List.mem_singleton.mp member)
  · rcases List.mem_cons.mp member with is | member
    · exact high (by omega) (by omega) is
    rcases List.mem_cons.mp member with is | member
    · exact high (by omega) (by omega) is
    rcases List.mem_cons.mp member with is | member
    · exact high (by omega) (by omega) is
    · exact high (by omega) (by omega) (List.mem_singleton.mp member)

theorem simpleEscape?_of_mem : ∀ escape ∈ escapes, simpleEscape? escape.1 = some escape.2 ∧
    escape.1 ≠ 117 ∧ String.utf8EncodeChar (Char.ofNat escape.2.toNat) = [escape.2] := by
  intro escape known
  simp only [escapes, List.mem_cons, List.not_mem_nil, or_false] at known
  rcases known with rfl | rfl | rfl | rfl | rfl | rfl | rfl | rfl <;> decide

/-! ## Escapes -/

theorem readUnit_of_codeUnit {n : Nat} {digits : Bytes} (written : CodeUnit n digits)
    (rest : Bytes) : readUnit (digits ++ rest) = .ok (n, rest) := by
  obtain ⟨first, second, third, fourth⟩ := written
  rw [List.cons_append, List.cons_append, List.cons_append, List.singleton_append, readUnit,
    first, second, third, fourth]

theorem readEscapedChar_of_unit {n : Nat} {digits : Bytes} (written : CodeUnit n digits)
    (scalar : isHighSurrogate n = false ∧ isLowSurrogate n = false) (rest : Bytes) :
    readEscapedChar (digits ++ rest) = .ok (Char.ofNat n, rest) := by
  rw [readEscapedChar, readUnit_of_codeUnit written]
  simp only [bind, Except.bind, scalar.1, scalar.2, Bool.false_eq_true, if_false]
  rfl

theorem isLowSurrogate_of_isHigh {unit : Nat} (isHigh : isHighSurrogate unit = true) :
    isLowSurrogate unit = false := by
  simp only [isHighSurrogate, isLowSurrogate, Bool.and_eq_true, decide_eq_true_eq,
    Bool.and_eq_false_iff, decide_eq_false_iff_not] at isHigh ⊢
  omega

theorem readEscapedChar_of_pair {high low : Nat} {first second : Bytes}
    (leads : CodeUnit high first) (trails : CodeUnit low second)
    (isHigh : isHighSurrogate high = true) (isLow : isLowSurrogate low = true) (rest : Bytes) :
    readEscapedChar (first ++ 92 :: 117 :: (second ++ rest)) =
      .ok (Char.ofNat ((high - 0xD800) * 1024 + (low - 0xDC00) + 0x10000), rest) := by
  rw [readEscapedChar, readUnit_of_codeUnit leads]
  simp only [bind, Except.bind, isLowSurrogate_of_isHigh isHigh, isHigh, Bool.false_eq_true,
    if_false, if_true, readUnit_of_codeUnit trails, isLow]
  rfl

/-! ## Reading -/

theorem PlainOctet.apart {b : UInt8} (plain : PlainOctet b) : b ≠ 34 ∧ b ≠ 92 ∧ ¬ b < 32 := by
  obtain ⟨visible, unquoted, unslashed⟩ := plain
  refine ⟨fun is => unquoted (congrArg UInt8.toNat is),
    fun is => unslashed (congrArg UInt8.toNat is), ?_⟩
  rw [UInt8.lt_iff_toNat_lt]
  exact Nat.not_lt.mpr visible

theorem readTextBytes_plain {bytes : Bytes} (plain : ∀ b ∈ bytes, PlainOctet b) (fuel : Nat)
    (found rest : Bytes) :
    readTextBytes (fuel + bytes.length) found (bytes ++ rest) =
      readTextBytes fuel (bytes.reverse ++ found) rest := by
  induction bytes generalizing found with
  | nil => rfl
  | cons b bytes ih =>
      obtain ⟨quote, slash, control⟩ := (plain b List.mem_cons_self).apart
      have one : readTextBytes (fuel + bytes.length + 1) found (b :: (bytes ++ rest)) =
          readTextBytes (fuel + bytes.length) (b :: found) (bytes ++ rest) := by
        rw [readTextBytes.eq_def]
        simp only [if_neg quote, if_neg slash, if_neg control]
      rw [List.length_cons, ← Nat.add_assoc, List.cons_append, one,
        ih (fun other member => plain other (List.mem_cons_of_mem _ member)), List.reverse_cons,
        List.append_assoc, List.singleton_append]

theorem readTextBytes_unit {c : Char} {bytes rest : Bytes}
    (read : readEscapedChar bytes = .ok (c, rest)) (fuel : Nat) (found : Bytes) :
    readTextBytes (fuel + 1) found (92 :: 117 :: bytes) =
      readTextBytes fuel ((String.utf8EncodeChar c).reverse ++ found) rest := by
  rw [readTextBytes.eq_def]
  simp only [read, if_true]
  rfl

theorem readTextBytes_short {escape : UInt8 × UInt8} (known : escape ∈ escapes) (fuel : Nat)
    (found rest : Bytes) :
    readTextBytes (fuel + 1) found (92 :: escape.1 :: rest) =
      readTextBytes fuel (escape.2 :: found) rest := by
  obtain ⟨read, notUnit, -⟩ := simpleEscape?_of_mem escape known
  rw [readTextBytes.eq_def]
  simp only [if_neg notUnit, read]
  rfl

/-- A character is read from each of its forms, with no more fuel than octets. -/
theorem readTextBytes_char {c : Char} {piece : Bytes} (written : WritesChar c piece) {fuel : Nat}
    (enough : piece.length ≤ fuel) (found rest : Bytes) :
    ∃ left, fuel ≤ left + piece.length ∧ readTextBytes fuel found (piece ++ rest) =
      readTextBytes left ((String.utf8EncodeChar c).reverse ++ found) rest := by
  cases written with
  | plain unescaped =>
      obtain ⟨left, rfl⟩ := Nat.exists_eq_add_of_le' enough
      exact ⟨left, Nat.le_refl _,
        readTextBytes_plain (fun b member => plainOctet_of_mem unescaped member) left found rest⟩
  | @short escape known =>
      rw [List.length_cons] at enough ⊢
      obtain ⟨left, rfl⟩ := Nat.exists_eq_add_of_le' enough
      rw [(simpleEscape?_of_mem _ known).2.2]
      exact ⟨left + [escape.1].length, by omega, readTextBytes_short known _ found rest⟩
  | @unit n digits written scalar =>
      rw [List.length_cons] at enough ⊢
      obtain ⟨left, rfl⟩ := Nat.exists_eq_add_of_le' enough
      exact ⟨left + (117 :: digits).length, by omega,
        readTextBytes_unit (readEscapedChar_of_unit written scalar rest) _ found⟩
  | @pair high low first second leads trails isHigh isLow =>
      rw [List.cons_append, List.cons_append, List.length_cons] at enough ⊢
      obtain ⟨left, rfl⟩ := Nat.exists_eq_add_of_le' enough
      have read := readEscapedChar_of_pair leads trails isHigh isLow rest
      refine ⟨left + (117 :: (first ++ 92 :: 117 :: second)).length, by omega,
        Eq.trans ?_ (readTextBytes_unit read _ found)⟩
      rw [List.cons_append, List.cons_append, List.append_assoc, List.cons_append,
        List.cons_append]
      rfl

theorem readTextBytes_chars {cs : List Char} {body : Bytes} (written : WritesChars cs body)
    {fuel : Nat} (enough : body.length < fuel) (found rest : Bytes) :
    readTextBytes fuel found (body ++ 34 :: rest) =
      .ok (found.reverse ++ cs.flatMap String.utf8EncodeChar, rest) := by
  induction written generalizing fuel found with
  | nil =>
      obtain ⟨left, rfl⟩ := Nat.exists_eq_add_of_le' enough
      rw [readTextBytes.eq_def, List.flatMap_nil, List.append_nil]
      rfl
  | @cons c cs piece body head _ ih =>
      rw [List.length_append] at enough
      obtain ⟨left, spent, read⟩ :=
        readTextBytes_char head (by omega : piece.length ≤ fuel) found (body ++ 34 :: rest)
      rw [List.append_assoc, read, ih (by omega), List.reverse_append, List.reverse_reverse,
        List.flatMap_cons, List.append_assoc]

theorem readQuoted_of_writesText {text : String} {bytes : Bytes} (written : WritesText text bytes) :
    ∃ body, bytes = 34 :: body ∧ ∀ rest, readQuoted (body ++ rest) = .ok (text, rest) := by
  obtain ⟨body, chars, rfl⟩ := written
  refine ⟨body ++ [34], rfl, fun rest => ?_⟩
  have enough : body.length < (body ++ [34] ++ rest).length + 1 := by
    simp only [List.length_append]
    omega
  have whole : body ++ [34] ++ rest = body ++ 34 :: rest := by
    rw [List.append_assoc, List.singleton_append]
  rw [readQuoted, whole, readTextBytes_chars chars (whole ▸ enough)]
  simp only [bind, Except.bind, List.reverse_nil, List.nil_append]
  exact congrArg (fun text => Except.ok (text, rest)) (Utf8.lenient_ofText text)

theorem length_pos_of_writesText {text : String} {bytes : Bytes}
    (written : WritesText text bytes) : 0 < bytes.length := by
  obtain ⟨body, -, rfl⟩ := written
  exact Nat.succ_pos _

theorem WritesText.unique {text other : String} {bytes : Bytes} (written : WritesText text bytes)
    (written' : WritesText other bytes) : text = other := by
  obtain ⟨body, rfl, read⟩ := readQuoted_of_writesText written
  obtain ⟨body', same, read'⟩ := readQuoted_of_writesText written'
  obtain rfl := (List.cons.inj same).2
  have both := (read []).symm.trans (read' [])
  exact congrArg Prod.fst (Except.ok.inj both)

/-- A high surrogate at the end of a literal has no partner. -/
theorem readQuoted_unpaired {high : Nat} {digits : Bytes} (unit : CodeUnit high digits)
    (isHigh : isHighSurrogate high = true) (rest : Bytes) :
    readQuoted (92 :: 117 :: (digits ++ 34 :: rest)) = .error .malformed := by
  have refused : readEscapedChar (digits ++ 34 :: rest) = .error .malformed := by
    rw [readEscapedChar, readUnit_of_codeUnit unit]
    simp only [bind, Except.bind, isLowSurrogate_of_isHigh isHigh, isHigh, Bool.false_eq_true,
      if_false, if_true]
    rfl
  rw [readQuoted, readTextBytes.eq_def]
  simp only [List.length_cons, refused, if_true]
  rfl

theorem not_writesText_unpaired {high : Nat} {digits : Bytes} (unit : CodeUnit high digits)
    (isHigh : isHighSurrogate high = true) (text : String) :
    ¬ WritesText text (34 :: 92 :: 117 :: (digits ++ [34])) := by
  intro written
  obtain ⟨body, same, read⟩ := readQuoted_of_writesText written
  obtain rfl := (List.cons.inj same).2
  have refused := read []
  rw [List.append_nil, readQuoted_unpaired unit isHigh] at refused
  cases refused

/-! ## What is read as a text -/

theorem ascii_of_hexByte? {b : UInt8} {value : Nat} (digit : hexByte? b = some value) :
    b.toNat < 128 := by
  have none : ∀ n < 256, 128 ≤ n → hexByte? (UInt8.ofNat n) = none := by decide +kernel
  refine Nat.lt_of_not_le fun large => ?_
  have missed := none b.toNat b.toNat_lt large
  rw [UInt8.ofNat_toNat, digit] at missed
  cases missed

theorem CodeUnit.ascii {n : Nat} {digits : Bytes} (written : CodeUnit n digits) :
    Utf8.Ascii digits := by
  obtain ⟨first, second, third, fourth⟩ := written
  intro b member
  simp only [List.mem_cons, List.not_mem_nil, or_false] at member
  rcases member with rfl | rfl | rfl | rfl
  · exact ascii_of_hexByte? first
  · exact ascii_of_hexByte? second
  · exact ascii_of_hexByte? third
  · exact ascii_of_hexByte? fourth

theorem codeUnit_of_readUnit {bytes rest : Bytes} {n : Nat}
    (read : readUnit bytes = .ok (n, rest)) :
    ∃ digits, CodeUnit n digits ∧ bytes = digits ++ rest := by
  rw [readUnit.eq_def] at read
  split at read
  · split at read
    · rename_i first second third fourth
      obtain ⟨rfl, rfl⟩ := Prod.mk.inj (Except.ok.inj read)
      exact ⟨_, .digits first second third fourth, rfl⟩
    · cases read
  · cases read

theorem mem_escapes {e octet : UInt8} (known : simpleEscape? e = some octet) :
    (e, octet) ∈ escapes := by
  rw [simpleEscape?] at known
  split at known
  · rename_i itself
    obtain rfl := Option.some.inj known
    rcases itself with rfl | rfl | rfl <;> decide
  iterate 5
    split at known
    · rename_i is
      obtain rfl := Option.some.inj known
      subst is
      decide
  cases known

theorem writesChar_of_readEscapedChar {bytes rest : Bytes} {c : Char}
    (read : readEscapedChar bytes = .ok (c, rest)) :
    ∃ piece, WritesChar c (92 :: 117 :: piece) ∧ Utf8.Ascii piece ∧ bytes = piece ++ rest := by
  obtain ⟨⟨unit, behind⟩, readFirst, more⟩ := exists_of_bind_ok read
  obtain ⟨first, leads, rfl⟩ := codeUnit_of_readUnit readFirst
  dsimp only at more
  split at more
  · cases more
  rename_i notLow
  rw [Bool.not_eq_true] at notLow
  split at more
  · rename_i isHigh
    split at more
    · cases more
    · cases more
    · obtain ⟨⟨low, last⟩, readSecond, done⟩ := exists_of_bind_ok more
      obtain ⟨second, trails, rfl⟩ := codeUnit_of_readUnit readSecond
      dsimp only at done
      split at done
      · rename_i isLow
        obtain ⟨rfl, rfl⟩ := Prod.mk.inj (Except.ok.inj done)
        refine ⟨first ++ 92 :: 117 :: second, .pair leads trails isHigh isLow, ?_, ?_⟩
        · have escape : Utf8.Ascii [92, 117] := by decide
          exact List.forall_mem_append.mpr ⟨leads.ascii,
            List.forall_mem_append.mpr ⟨escape, trails.ascii⟩⟩
        · rw [List.append_assoc]
          rfl
      · cases done
    · cases more
  · rename_i notHigh
    rw [Bool.not_eq_true] at notHigh
    obtain ⟨rfl, rfl⟩ := Prod.mk.inj (Except.ok.inj more)
    exact ⟨first, .unit leads ⟨notHigh, notLow⟩, leads.ascii, rfl⟩

theorem readTextBytes_of_plain {plain : Bytes} (all : ∀ b ∈ plain, PlainOctet b) {fuel : Nat}
    {found tail : Bytes} {result : Bytes × Bytes}
    (read : readTextBytes fuel found (plain ++ tail) = .ok result) :
    ∃ left, fuel = left + plain.length ∧
      readTextBytes left (plain.reverse ++ found) tail = .ok result := by
  induction plain generalizing fuel found with
  | nil => exact ⟨fuel, rfl, read⟩
  | cons b plain ih =>
      cases fuel with
      | zero => cases read
      | succ fuel =>
          obtain ⟨quote, slash, control⟩ := (all b List.mem_cons_self).apart
          rw [List.cons_append, readTextBytes.eq_def] at read
          simp only [if_neg quote, if_neg slash, if_neg control] at read
          obtain ⟨left, rfl, more⟩ := ih (fun other member =>
            all other (List.mem_cons_of_mem b member)) read
          refine ⟨left, rfl, ?_⟩
          rw [List.reverse_cons, List.append_assoc]
          exact more

/-- The reading goes on behind a character in one of its forms. -/
def GoesOn (fuel : Nat) (found bytes : Bytes) (result : Bytes × Bytes) : Prop :=
  ∃ c piece tail left, WritesChar c piece ∧ bytes = piece ++ tail ∧ Utf8.IsText tail ∧
    left < fuel ∧ readTextBytes left ((String.utf8EncodeChar c).reverse ++ found) tail = .ok result

theorem goesOn_of_escape {fuel : Nat} {found rest : Bytes} {result : Bytes × Bytes}
    (text : Utf8.IsText rest)
    (read : readTextBytes (fuel + 1) found (92 :: rest) = .ok result) :
    GoesOn (fuel + 1) found (92 :: rest) result := by
  rw [readTextBytes.eq_def] at read
  cases rest with
  | nil => cases read
  | cons e rest =>
      by_cases unit : e = 117
      · subst unit
        cases escaped : readEscapedChar rest with
        | error cause => simp [escaped] at read
        | ok found' =>
            obtain ⟨piece, written, ascii, rfl⟩ := writesChar_of_readEscapedChar escaped
            simp only [escaped] at read
            exact ⟨found'.1, _, found'.2, fuel, written, rfl,
              (text.tail (by decide)).of_append ascii, Nat.lt_succ_self fuel, read⟩
      · cases known : simpleEscape? e with
        | none => simp [unit, known] at read
        | some octet =>
            have listed := mem_escapes known
            simp only [if_neg unit, known] at read
            have encoded := (simpleEscape?_of_mem _ listed).2.2
            have letters : Utf8.Ascii (escapes.map Prod.fst) := by decide
            have ascii := letters _ (List.mem_map_of_mem listed)
            refine ⟨_, [92, e], rest, fuel, .short listed, rfl, text.tail ascii,
              Nat.lt_succ_self fuel, ?_⟩
            rw [encoded]
            exact read

theorem unescaped_of_octet {b : UInt8} (small : b.toNat < 128)
    (apart : ¬ b < 32 ∧ b ≠ 34 ∧ b ≠ 92) : Unescaped (Char.ofNat b.toNat) := by
  obtain ⟨visible, quote, slash⟩ := apart
  have all : ∀ n < 128, 32 ≤ n ∧ n ≠ 34 ∧ n ≠ 92 →
      32 ≤ (Char.ofNat n).toNat ∧ Char.ofNat n ≠ '"' ∧ Char.ofNat n ≠ '\\' := by
    decide +kernel
  rw [UInt8.lt_iff_toNat_lt, Nat.not_lt] at visible
  exact all b.toNat small ⟨visible, fun is => quote (UInt8.toNat_inj.mp is),
    fun is => slash (UInt8.toNat_inj.mp is)⟩

/-- What is read begins with the closing quote, or with a character in one of its forms. -/
theorem readTextBytes_cases {fuel : Nat} {found bytes : Bytes} {result : Bytes × Bytes}
    (text : Utf8.IsText bytes) (read : readTextBytes fuel found bytes = .ok result) :
    (∃ rest, bytes = 34 :: rest ∧ Utf8.IsText rest ∧ result = (found.reverse, rest)) ∨
      GoesOn fuel found bytes result := by
  cases fuel with
  | zero => cases read
  | succ fuel =>
  cases bytes with
  | nil => cases read
  | cons b rest =>
  rcases text.cases with ⟨small, behind⟩ | ⟨-, c, tail, large, behind, same⟩
  · by_cases quote : b = 34
    · rw [readTextBytes.eq_def] at read
      simp only [if_pos quote] at read
      exact .inl ⟨rest, by rw [quote], behind, (Except.ok.inj read).symm⟩
    by_cases slash : b = 92
    · subst slash
      exact .inr (goesOn_of_escape behind read)
    · rw [readTextBytes.eq_def] at read
      simp only [if_neg quote, if_neg slash] at read
      split at read
      · cases read
      · rename_i visible
        have encoded := Utf8.encoded_ofNat small
        have form := WritesChar.plain (unescaped_of_octet small ⟨visible, quote, slash⟩)
        rw [encoded] at form
        refine .inr ⟨_, [b], rest, fuel, form, rfl, behind, Nat.lt_succ_self fuel, ?_⟩
        rw [encoded]
        exact read
  · rw [same] at read ⊢
    have unescaped : Unescaped c := by
      refine ⟨by omega, ?_, ?_⟩ <;> rintro rfl <;> revert large <;> decide
    obtain ⟨left, spent, more⟩ :=
      readTextBytes_of_plain (fun b member => plainOctet_of_mem unescaped member) read
    have written := Char.utf8Size_pos c
    rw [← String.length_utf8EncodeChar] at written
    exact .inr ⟨c, _, tail, left, .plain unescaped, rfl, behind, by omega, more⟩

theorem writesChars_of_readTextBytes {fuel : Nat} {found bytes out rest : Bytes}
    (text : Utf8.IsText bytes) (read : readTextBytes fuel found bytes = .ok (out, rest)) :
    ∃ cs body, WritesChars cs body ∧ bytes = body ++ 34 :: rest ∧
      out = found.reverse ++ cs.flatMap String.utf8EncodeChar ∧ Utf8.IsText rest := by
  induction fuel using Nat.strongRecOn generalizing found bytes with
  | ind fuel ih =>
      rcases readTextBytes_cases text read with ⟨tail, rfl, ends, same⟩ |
        ⟨c, piece, tail, left, written, rfl, behind, less, more⟩
      · obtain ⟨rfl, rfl⟩ := Prod.mk.inj same
        refine ⟨[], [], .nil, rfl, ?_, ends⟩
        rw [List.flatMap_nil, List.append_nil]
      · obtain ⟨cs, body, chars, rfl, rfl, ends⟩ := ih left less behind more
        refine ⟨c :: cs, piece ++ body, .cons written chars, ?_, ?_, ends⟩
        · rw [List.append_assoc]
        · rw [List.reverse_append, List.reverse_reverse, List.append_assoc, List.flatMap_cons]

/-- In the octets of a text, what is read as a text is one in one of its forms. -/
theorem writesText_of_readQuoted {bytes rest : Bytes} {text : String} (behind : Utf8.IsText bytes)
    (read : readQuoted bytes = .ok (text, rest)) :
    ∃ body, WritesText text (34 :: body) ∧ bytes = body ++ rest ∧ Utf8.IsText rest := by
  obtain ⟨⟨found, left⟩, octets, done⟩ := exists_of_bind_ok read
  obtain ⟨rfl, rfl⟩ := Prod.mk.inj (Except.ok.inj done)
  obtain ⟨cs, body, chars, rfl, rfl, ends⟩ := writesChars_of_readTextBytes behind octets
  refine ⟨body ++ [34], ⟨body, ?_, rfl⟩, ?_, ends⟩
  · rw [List.reverse_nil, List.nil_append, Utf8.lenient_flatMap, String.toList_ofList]
    exact chars
  · rw [List.append_assoc]
    rfl

/-! ## Literals -/

theorem pieces_append_writesChar {c : Char} {piece rest : Bytes} (written : WritesChar c piece)
    (more : Pieces rest) : Pieces (piece ++ rest) := by
  cases written with
  | plain unescaped => exact .cons (.plain unescaped) more
  | short known => exact .cons (.short known) more
  | unit written => exact .cons (.unit written) more
  | @pair high low first second leads trails =>
      have pair := Pieces.cons (.unit leads) (.cons (.unit trails) more)
      rwa [← List.append_assoc] at pair

theorem pieces_of_writesChars {cs : List Char} {body : Bytes} (written : WritesChars cs body) :
    Pieces body := by
  induction written with
  | nil => exact .nil
  | cons head _ ih => exact pieces_append_writesChar head ih

theorem literal_of_writesText {text : String} {bytes : Bytes} (written : WritesText text bytes) :
    Literal bytes := by
  obtain ⟨body, chars, rfl⟩ := written
  exact ⟨body, pieces_of_writesChars chars, rfl⟩

/-! ## Skipping -/

theorem skipQuoted_plain {bytes : Bytes} (plain : ∀ b ∈ bytes, PlainOctet b) (fuel : Nat)
    (rest : Bytes) : skipQuoted (fuel + bytes.length) (bytes ++ rest) = skipQuoted fuel rest := by
  induction bytes with
  | nil => rfl
  | cons b bytes ih =>
      obtain ⟨quote, slash, control⟩ := (plain b List.mem_cons_self).apart
      have one : skipQuoted (fuel + bytes.length + 1) (b :: (bytes ++ rest)) =
          skipQuoted (fuel + bytes.length) (bytes ++ rest) := by
        rw [skipQuoted.eq_def]
        simp only [if_neg quote, if_neg slash, if_neg control]
      rw [List.length_cons, ← Nat.add_assoc, List.cons_append, one,
        ih fun other member => plain other (List.mem_cons_of_mem _ member)]

theorem skipQuoted_piece {piece : Bytes} (written : Piece piece) {fuel : Nat}
    (enough : piece.length ≤ fuel) (rest : Bytes) :
    ∃ left, fuel ≤ left + piece.length ∧
      skipQuoted fuel (piece ++ rest) = skipQuoted left rest := by
  cases written with
  | plain unescaped =>
      obtain ⟨left, rfl⟩ := Nat.exists_eq_add_of_le' enough
      exact ⟨left, Nat.le_refl _,
        skipQuoted_plain (fun b member => plainOctet_of_mem unescaped member) left rest⟩
  | @short escape known =>
      rw [List.length_cons] at enough ⊢
      obtain ⟨left, rfl⟩ := Nat.exists_eq_add_of_le' enough
      obtain ⟨read, notUnit, -⟩ := simpleEscape?_of_mem _ known
      refine ⟨left + [escape.1].length, by omega, ?_⟩
      rw [← Nat.add_assoc, skipQuoted.eq_def]
      simp only [List.cons_append, List.nil_append, if_neg notUnit, read]
      rfl
  | @unit n digits written =>
      rw [List.length_cons] at enough ⊢
      obtain ⟨left, rfl⟩ := Nat.exists_eq_add_of_le' enough
      refine ⟨left + (117 :: digits).length, by omega, ?_⟩
      rw [← Nat.add_assoc, skipQuoted.eq_def]
      simp only [List.cons_append, readUnit_of_codeUnit written, if_true]
      rfl

theorem skipQuoted_pieces {body : Bytes} (written : Pieces body) {fuel : Nat}
    (enough : body.length < fuel) (rest : Bytes) :
    skipQuoted fuel (body ++ 34 :: rest) = .ok rest := by
  induction written generalizing fuel with
  | nil =>
      obtain ⟨left, rfl⟩ := Nat.exists_eq_add_of_le' enough
      rw [skipQuoted.eq_def]
      rfl
  | @cons piece body head _ ih =>
      rw [List.length_append] at enough
      obtain ⟨left, spent, read⟩ :=
        skipQuoted_piece head (by omega : piece.length ≤ fuel) (body ++ 34 :: rest)
      rw [List.append_assoc, read, ih (by omega)]

theorem skipQuoted_of_literal {bytes : Bytes} (quoted : Literal bytes) :
    ∃ body, bytes = 34 :: body ∧
      ∀ rest, skipQuoted ((body ++ rest).length + 1) (body ++ rest) = .ok rest := by
  obtain ⟨body, pieces, rfl⟩ := quoted
  refine ⟨body ++ [34], rfl, fun rest => ?_⟩
  have enough : body.length < (body ++ [34] ++ rest).length + 1 := by
    simp only [List.length_append]
    omega
  have whole : body ++ [34] ++ rest = body ++ 34 :: rest := by
    rw [List.append_assoc, List.singleton_append]
  rw [whole, skipQuoted_pieces pieces (whole ▸ enough)]

end CachingProxy.Json
