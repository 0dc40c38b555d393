import CachingProxy.Proofs.Json.Values

/-!
# Reading values of any shape

The reader takes each form of a value to the value, and every document that it takes is such a form:
in the octets of a text, `parse` succeeds exactly with what the grammar gives (`parse_ok_iff`).
Each value takes at most two steps for each of its octets.
-/

set_option autoImplicit false

namespace CachingProxy.Json

/-! ## Words and numerals -/

theorem octets_of_readWord {word : List Char} {bytes rest : Bytes}
    (small : ∀ c ∈ word, c.toNat < 128) (read : readWord word bytes = .ok rest) :
    bytes = word.flatMap String.utf8EncodeChar ++ rest := by
  induction word generalizing bytes with
  | nil => exact Except.ok.inj read
  | cons c word ih =>
      cases bytes with
      | nil => cases read
      | cons b bytes =>
          rw [readWord] at read
          split at read
          · rename_i same
            have octet : String.utf8EncodeChar c = [b] := by
              rcases Utf8.encoded_cases c with ⟨-, single⟩ | ⟨large, -⟩
              · rw [single, ← same, UInt8.ofNat_toNat]
              · exact absurd (small c List.mem_cons_self) (Nat.not_lt.mpr large)
            rw [ih (fun d member => small d (List.mem_cons_of_mem c member)) read,
              List.flatMap_cons, octet]
            rfl
          · cases read

theorem readNumeral_of_written {negative : Bool} {number : Numeral} {bytes rest : Bytes}
    (written : Numeral.WritesUnsigned negative number bytes)
    (bounded : number.isOutOfRange = false) (ends : Ends rest) :
    readNumeral negative (bytes ++ rest) = .ok (number, rest) := by
  rw [readNumeral, Numeral.readUnsigned_of_written .truncated written ends]
  simp only [bind, Except.bind, bounded]
  rfl

theorem written_of_readNumeral {negative : Bool} {number : Numeral} {bytes rest : Bytes}
    (read : readNumeral negative bytes = .ok (number, rest)) :
    ∃ front, Numeral.WritesUnsigned negative number front ∧ number.isOutOfRange = false ∧
      bytes = front ++ rest := by
  obtain ⟨⟨found, left⟩, unsigned, done⟩ := exists_of_bind_ok read
  obtain ⟨front, written, rfl⟩ := Numeral.written_of_readUnsigned unsigned
  dsimp only at done
  split at done
  · cases done
  · rename_i bounded
    obtain ⟨rfl, rfl⟩ := Prod.mk.inj (Except.ok.inj done)
    exact ⟨front, written, by simpa using bounded, rfl⟩

theorem lexeme_append (front rest : Bytes) : lexeme (front ++ rest) rest = Utf8.lenient front := by
  rw [lexeme, List.length_append, Nat.add_sub_cancel, List.take_left]

/-! ## Forms of values -/

theorem begins_of_writesValue {depth : Nat} {value : Value} {bytes : Bytes}
    (written : WritesValue .bounded depth value bytes) : Begins bytes := by
  cases written with
  | null => exact ⟨110, Bytes.ofText "ull", by decide, by decide, by decide⟩
  | @bool _ value _ written =>
      subst written
      cases value with
      | true => exact ⟨116, Bytes.ofText "rue", by decide, by decide, by decide⟩
      | false => exact ⟨102, Bytes.ofText "alse", by decide, by decide, by decide⟩
  | number numeral =>
      obtain ⟨number, written, -⟩ := numeral
      generalize Bytes.ofText _ = bytes at written
      cases written with
      | plain written =>
          obtain ⟨b, tail, rfl, digit⟩ := written.head
          exact ⟨b, tail, rfl, Numeral.solid_of_digit digit, Numeral.ne_of_digit digit (by decide)⟩
      | negative => exact ⟨45, _, rfl, by decide, by decide⟩
  | text written =>
      obtain ⟨body, -, rfl⟩ := written
      exact ⟨34, _, rfl, by decide, by decide⟩
  | list => exact ⟨91, _, rfl, by decide, by decide⟩
  | object => exact ⟨123, _, rfl, by decide, by decide⟩

theorem ends_of_writesElements {dialect : Dialect} {depth : Nat} {items : List Value} {tail : Bytes}
    (written : WritesElements dialect depth false items tail) (rest : Bytes) :
    Ends (tail ++ rest) := by
  cases written with
  | bracket blanks => exact ends_close blanks (.inl rfl) rest
  | item separates => exact ends_of_separates separates _ rest

theorem ends_of_writesMembers {dialect : Dialect} {depth : Nat} {given : List (String × Value)}
    {tail : Bytes} (written : WritesMembers dialect depth false given tail) (rest : Bytes) :
    Ends (tail ++ rest) := by
  cases written with
  | brace blanks => exact ends_close blanks (.inr rfl) rest
  | member separates => exact ends_of_separates separates _ rest

/-! ## Every form is read -/

theorem Begins.length_pos {bytes : Bytes} (begins : Begins bytes) : 0 < bytes.length := by
  obtain ⟨b, rest, rfl, -⟩ := begins
  exact Nat.succ_pos _

section

variable {depth fuel : Nat} {blank rest : Bytes}

theorem readValueFrom_null (blanks : Blank blank) :
    readValueFrom (fuel + 1) depth (blank ++ (Bytes.ofText "null" ++ rest)) =
      .ok (.null, rest) := by
  have letters : Bytes.ofText "null" = 110 :: Bytes.ofText "ull" := by decide
  rw [letters, List.cons_append, readValueFrom, skipBlanks_blank_cons blanks (by decide)]
  rfl

theorem readValueFrom_bool {value : Bool} {bytes : Bytes} (written : WritesBool value bytes)
    (blanks : Blank blank) :
    readValueFrom (fuel + 1) depth (blank ++ (bytes ++ rest)) = .ok (.bool value, rest) := by
  subst written
  cases value with
  | true =>
      have letters :
          Bytes.ofText (if true then "true" else "false") = 116 :: Bytes.ofText "rue" := by
        decide
      rw [letters, List.cons_append, readValueFrom, skipBlanks_blank_cons blanks (by decide)]
      rfl
  | false =>
      have letters :
          Bytes.ofText (if false then "true" else "false") = 102 :: Bytes.ofText "alse" := by
        decide
      rw [letters, List.cons_append, readValueFrom, skipBlanks_blank_cons blanks (by decide)]
      rfl

theorem readValueFrom_text {value : String} {bytes : Bytes} (written : WritesText value bytes)
    (blanks : Blank blank) :
    readValueFrom (fuel + 1) depth (blank ++ (bytes ++ rest)) = .ok (.text value, rest) := by
  obtain ⟨body, rfl, read⟩ := readQuoted_of_writesText written
  rw [List.cons_append, readValueFrom, skipBlanks_blank_cons blanks (by decide)]
  simp [read rest]

theorem readValueFrom_number {digits : String}
    (numeral : Dialect.bounded.numeral (Bytes.ofText digits)) (blanks : Blank blank)
    (ends : Ends rest) :
    readValueFrom (fuel + 1) depth (blank ++ (Bytes.ofText digits ++ rest)) =
      .ok (.number digits, rest) := by
  obtain ⟨number, written, bounded⟩ := numeral
  have text : Utf8.lenient (Bytes.ofText digits) = digits := Utf8.lenient_ofText digits
  generalize Bytes.ofText digits = bytes at written text
  have octets := lexeme_append bytes rest
  cases written with
  | plain written =>
      have read := readNumeral_of_written written bounded ends
      obtain ⟨b, tail, rfl, digit⟩ := written.head
      have apart {c : UInt8} (other : Numeral.isDigitByte c = false) : b ≠ c :=
        Numeral.ne_of_digit digit other
      rw [List.cons_append] at read octets
      rw [List.cons_append, readValueFrom,
        skipBlanks_blank_cons blanks (Numeral.solid_of_digit digit)]
      dsimp only
      rw [if_neg (apart (by decide)), if_neg (apart (by decide)), if_neg (apart (by decide)),
        if_neg (apart (by decide)), if_neg (apart (by decide)), if_pos digit, read]
      simp only [bind, Except.bind, octets, text]
      rfl
  | negative written =>
      have read := readNumeral_of_written written bounded ends
      rw [List.cons_append] at octets
      rw [List.cons_append, readValueFrom, skipBlanks_blank_cons blanks (by decide)]
      simp [read, octets, text, bind, Except.bind, pure, Except.pure]

end

/-- A form is read as its value, with twice as much fuel as octets. -/
def ReadsValue (depth : Nat) (value : Value) (bytes : Bytes) : Prop :=
  ∀ ⦃fuel : Nat⦄ ⦃blank rest : Bytes⦄, 2 * bytes.length ≤ fuel → Blank blank → Ends rest →
    readValueFrom fuel depth (blank ++ (bytes ++ rest)) = .ok (value, rest)

def ReadsItems (depth : Nat) (first : Bool) (items : List Value) (tail : Bytes) : Prop :=
  ∀ ⦃fuel : Nat⦄ (found : List Value) (rest : Bytes), 2 * tail.length < fuel →
    readItems fuel depth first found (tail ++ rest) = .ok (.list (found.reverse ++ items), rest)

def ReadsMembers (depth : Nat) (first : Bool) (given : List (String × Value)) (tail : Bytes) :
    Prop :=
  ∀ ⦃fuel : Nat⦄ (found : Keyed String Value) (rest : Bytes), 2 * tail.length < fuel →
    readMembers fuel depth first found (tail ++ rest) =
      .ok (.object (given.foldl (fun found entry => found.put entry.1 entry.2) found).sorted, rest)

section

variable {depth : Nat} {first : Bool} {before bytes tail : Bytes} {value : Value}

theorem ReadsItems.list {items : List Value} (reads : ReadsItems depth true items tail) :
    ReadsValue (depth + 1) (.list items) (91 :: tail) := by
  intro fuel blank rest enough blanks _
  rw [List.length_cons] at enough
  obtain ⟨left, rfl⟩ := Nat.exists_eq_add_of_le' (by omega : 1 ≤ fuel)
  rw [List.cons_append, readValueFrom, skipBlanks_blank_cons blanks (by decide)]
  exact reads [] rest (by omega)

theorem ReadsMembers.object {given members : List (String × Value)}
    (reads : ReadsMembers depth true given tail) (listed : Listing given members) :
    ReadsValue (depth + 1) (.object members) (123 :: tail) := by
  intro fuel blank rest enough blanks _
  rw [List.length_cons] at enough
  obtain ⟨left, rfl⟩ := Nat.exists_eq_add_of_le' (by omega : 1 ≤ fuel)
  rw [List.cons_append, readValueFrom, skipBlanks_blank_cons blanks (by decide),
    listed.unique (listing_sorted given)]
  exact reads [] rest (by omega)

theorem readsItems_close {blank : Bytes} (blanks : Blank blank) :
    ReadsItems depth first [] (blank ++ [93]) := by
  intro fuel found rest enough
  rw [List.length_append, List.length_singleton] at enough
  obtain ⟨left, rfl⟩ := Nat.exists_eq_add_of_le' (by omega : 1 ≤ fuel)
  rw [readItems, nextItem_close blanks, List.append_nil]

theorem ReadsItems.item {items : List Value} (separates : Separates first before)
    (begins : Begins bytes) (ends : ∀ rest, Ends (tail ++ rest))
    (reads : ReadsValue depth value bytes) (more : ReadsItems depth false items tail) :
    ReadsItems depth first (value :: items) (before ++ (bytes ++ tail)) := by
  intro fuel found rest enough
  have long := begins.length_pos
  rw [List.length_append, List.length_append] at enough
  obtain ⟨left, rfl⟩ := Nat.exists_eq_add_of_le' (by omega : 1 ≤ fuel)
  have read := reads (by omega : 2 * bytes.length ≤ left) blank_nil (ends rest)
  rw [List.nil_append] at read
  rw [readItems, List.append_assoc, List.append_assoc, nextItem_item separates begins]
  simp only [read]
  rw [more _ rest (by omega), List.reverse_cons, List.append_assoc, List.singleton_append]

theorem readsMembers_close {blank : Bytes} (blanks : Blank blank) :
    ReadsMembers depth first [] (blank ++ [125]) := by
  intro fuel found rest enough
  rw [List.length_append, List.length_singleton] at enough
  obtain ⟨left, rfl⟩ := Nat.exists_eq_add_of_le' (by omega : 1 ≤ fuel)
  rw [readMembers, nextMember_close blanks]
  rfl

theorem ReadsMembers.member {given : List (String × Value)} {key : String} {name colon : Bytes}
    (separates : Separates first before) (named : WritesText key name) (between : Colon colon)
    (begins : Begins bytes) (ends : ∀ rest, Ends (tail ++ rest))
    (reads : ReadsValue depth value bytes) (more : ReadsMembers depth false given tail) :
    ReadsMembers depth first ((key, value) :: given)
      (before ++ (name ++ (colon ++ (bytes ++ tail)))) := by
  intro fuel found rest enough
  have long := begins.length_pos
  simp only [List.length_append] at enough
  obtain ⟨left, rfl⟩ := Nat.exists_eq_add_of_le' (by omega : 1 ≤ fuel)
  obtain ⟨body, rfl, quoted⟩ := readQuoted_of_writesText named
  obtain ⟨blank, blanks, passed⟩ := readColon_colon between
  have read := reads (by omega : 2 * bytes.length ≤ left) blanks (ends rest)
  have whole : before ++ (34 :: body ++ (colon ++ (bytes ++ tail))) ++ rest =
      before ++ 34 :: (body ++ (colon ++ (bytes ++ (tail ++ rest)))) := by
    simp only [List.append_assoc, List.cons_append]
  rw [readMembers, whole, nextMember_member separates]
  simp only [quoted, passed, read]
  exact more _ rest (by omega)

end

/-- Every form of a value is read as the value. -/
theorem readsValue_of_writesValue {depth : Nat} {value : Value} {bytes : Bytes}
    (written : WritesValue .bounded depth value bytes) : ReadsValue depth value bytes := by
  have scalar {depth : Nat} {value : Value} {bytes : Bytes}
      (written : WritesValue .bounded depth value bytes)
      (read : ∀ {fuel : Nat} {blank rest : Bytes}, Blank blank → Ends rest →
        readValueFrom (fuel + 1) depth (blank ++ (bytes ++ rest)) = .ok (value, rest)) :
      ReadsValue depth value bytes := by
    intro fuel blank rest enough blanks ends
    have long := (begins_of_writesValue written).length_pos
    obtain ⟨left, rfl⟩ := Nat.exists_eq_add_of_le' (by omega : 1 ≤ fuel)
    exact read blanks ends
  induction written using WritesValue.rec
    (motive_2 := fun depth first items tail _ => ReadsItems depth first items tail)
    (motive_3 := fun depth first given tail _ => ReadsMembers depth first given tail) with
  | null => exact scalar .null fun blanks _ => readValueFrom_null blanks
  | bool written => exact scalar (.bool written) fun blanks _ => readValueFrom_bool written blanks
  | number numeral => exact scalar (.number numeral) (readValueFrom_number numeral)
  | text written => exact scalar (.text written) fun blanks _ => readValueFrom_text written blanks
  | list _ ih => exact ih.list
  | object _ listed ih => exact ih.object listed
  | bracket blanks => exact readsItems_close blanks
  | item separates form more ih ih' =>
      exact ReadsItems.item separates (begins_of_writesValue form) (ends_of_writesElements more)
        ih ih'
  | brace blanks => exact readsMembers_close blanks
  | member separates named between form more ih ih' =>
      exact ReadsMembers.member separates named between (begins_of_writesValue form)
        (ends_of_writesMembers more) ih ih'

theorem parse_of_writesDocument {value : Value} {bytes : Bytes}
    (written : WritesDocument .bounded maxDepth value bytes) : parse bytes = .ok value := by
  obtain ⟨before, form, after, blanks, written, blanks', rfl⟩ := written
  have enough : 2 * form.length ≤ 2 * (before ++ (form ++ after)).length + 2 := by
    simp only [List.length_append]
    omega
  have ends : Ends after := by
    have ends := ends_blank_append blanks' ends_nil
    rwa [List.append_nil] at ends
  have passed : skipBlanks after = [] := by
    rw [← List.append_nil after, skipBlanks_append blanks']
    rfl
  rw [parse, readValue, readsValue_of_writesValue written enough blanks ends]
  simp only [bind, Except.bind, finish, passed]

/-! ## Whatever is read is a form -/

/-- Some octets of a text begin with a form of a value. -/
def Recovered (depth : Nat) (value : Value) (bytes rest : Bytes) : Prop :=
  ∃ form, WritesValue .bounded depth value form ∧ bytes = form ++ rest ∧ Utf8.IsText rest

section

variable {depth : Nat} {b : UInt8} {bytes rest : Bytes} {value : Value}

theorem recovered_word {word : String} {found : Value} (text : Utf8.IsText bytes)
    (small : (word.toList.all fun c => c.toNat < 128) = true)
    (ascii : Utf8.Ascii (Bytes.ofText word))
    (form : WritesValue .bounded depth found (b :: Bytes.ofText word))
    (read : (readWord word.toList bytes >>= fun left => pure (found, left)) = .ok (value, rest)) :
    Recovered depth value (b :: bytes) rest := by
  obtain ⟨left, letters, done⟩ := exists_of_bind_ok read
  obtain ⟨rfl, rfl⟩ := Prod.mk.inj (Except.ok.inj done)
  have octets := octets_of_readWord (by simpa using small) letters
  subst octets
  exact ⟨_, form, rfl, text.of_append ascii⟩

theorem recovered_text (text : Utf8.IsText bytes)
    (read : (readQuoted bytes >>= fun found => pure (.text found.1, found.2)) = .ok (value, rest)) :
    Recovered depth value (34 :: bytes) rest := by
  obtain ⟨⟨found, left⟩, quoted, done⟩ := exists_of_bind_ok read
  obtain ⟨rfl, rfl⟩ := Prod.mk.inj (Except.ok.inj done)
  obtain ⟨body, written, rfl, behind⟩ := writesText_of_readQuoted text quoted
  exact ⟨34 :: body, .text written, rfl, behind⟩

theorem recovered_number {number : Numeral} {front : Bytes} (text : Utf8.IsText (front ++ rest))
    (written : Numeral.WritesNumeral number front) (bounded : number.isOutOfRange = false) :
    Recovered depth (.number (lexeme (front ++ rest) rest)) (front ++ rest) rest := by
  have ascii := written.ascii
  have octets := Utf8.ofText_lenient (Utf8.isText_of_ascii ascii)
  refine ⟨front, ?_, rfl, text.of_append ascii⟩
  rw [lexeme_append, ← octets, Utf8.lenient_ofText]
  refine .number ⟨number, ?_, bounded⟩
  rwa [octets]

end

/-- What is read with some fuel is written in the octets of a text: a value behind blanks, the items
that are left of a list, and the members that are left of an object. -/
structure Recovers (fuel : Nat) : Prop where
  value : ∀ {depth : Nat} {bytes rest : Bytes} {value : Value}, Utf8.IsText bytes →
    readValueFrom fuel depth bytes = .ok (value, rest) →
      ∃ blank behind, Blank blank ∧ bytes = blank ++ behind ∧ Recovered depth value behind rest
  items : ∀ {depth : Nat} {first : Bool} {found : List Value} {bytes rest : Bytes} {value : Value},
    Utf8.IsText bytes → readItems fuel depth first found bytes = .ok (value, rest) →
      ∃ items tail, WritesElements .bounded depth first items tail ∧
        value = .list (found.reverse ++ items) ∧ bytes = tail ++ rest ∧ Utf8.IsText rest
  members : ∀ {depth : Nat} {first : Bool} {found : Keyed String Value} {bytes rest : Bytes}
    {value : Value}, Utf8.IsText bytes →
      readMembers fuel depth first found bytes = .ok (value, rest) →
        ∃ given tail, WritesMembers .bounded depth first given tail ∧
          value = .object
            (given.foldl (fun found entry => found.put entry.1 entry.2) found).sorted ∧
          bytes = tail ++ rest ∧ Utf8.IsText rest

namespace Recovers

variable {fuel : Nat}

theorem begun (recovers : Recovers fuel) {depth : Nat} {b : UInt8} {bytes rest : Bytes}
    {value : Value} (text : Utf8.IsText (b :: bytes)) (solid : isBlankByte b = false)
    (read : readValueFrom (fuel + 1) depth (b :: bytes) = .ok (value, rest)) :
    Recovered depth value (b :: bytes) rest := by
  rw [readValueFrom, skipBlanks_cons solid] at read
  dsimp only at read
  split at read
  · rename_i is
    subst is
    exact recovered_word (text.tail (by decide)) (by decide) (by decide) .null read
  split at read
  · rename_i is
    subst is
    have form : WritesValue .bounded depth (.bool true) (116 :: Bytes.ofText "rue") := .bool rfl
    exact recovered_word (text.tail (by decide)) (by decide) (by decide) form read
  split at read
  · rename_i is
    subst is
    have form : WritesValue .bounded depth (.bool false) (102 :: Bytes.ofText "alse") := .bool rfl
    exact recovered_word (text.tail (by decide)) (by decide) (by decide) form read
  split at read
  · rename_i is
    subst is
    exact recovered_text (text.tail (by decide)) read
  split at read
  · rename_i is
    subst is
    obtain ⟨⟨number, left⟩, unsigned, done⟩ := exists_of_bind_ok read
    obtain ⟨rfl, rfl⟩ := Prod.mk.inj (Except.ok.inj done)
    obtain ⟨front, written, bounded, rfl⟩ := written_of_readNumeral unsigned
    exact recovered_number text (.negative written) bounded
  split at read
  · obtain ⟨⟨number, left⟩, unsigned, done⟩ := exists_of_bind_ok read
    obtain ⟨rfl, rfl⟩ := Prod.mk.inj (Except.ok.inj done)
    obtain ⟨front, written, bounded, same⟩ := written_of_readNumeral unsigned
    rw [same] at text ⊢
    exact recovered_number text (.plain written) bounded
  split at read
  · rename_i is
    subst is
    cases depth with
    | zero => cases read
    | succ depth =>
        obtain ⟨items, tail, written, rfl, rfl, behind⟩ :=
          recovers.items (text.tail (by decide)) read
        exact ⟨91 :: tail, .list written, rfl, behind⟩
  split at read
  · rename_i is
    subst is
    cases depth with
    | zero => cases read
    | succ depth =>
        obtain ⟨given, tail, written, rfl, rfl, behind⟩ :=
          recovers.members (text.tail (by decide)) read
        exact ⟨123 :: tail, .object written (listing_sorted given), rfl, behind⟩
  · cases read

theorem behindBlanks (recovers : Recovers fuel) {depth : Nat} {bytes rest : Bytes} {value : Value}
    (text : Utf8.IsText bytes)
    (read : readValueFrom (fuel + 1) depth bytes = .ok (value, rest)) :
    ∃ blank behind, Blank blank ∧ bytes = blank ++ behind ∧ Recovered depth value behind rest := by
  obtain ⟨blank, blanks, parts⟩ := exists_blank_append bytes
  refine ⟨blank, skipBlanks bytes, blanks, parts, ?_⟩
  rw [parts] at text
  replace text := text.of_append blanks.ascii
  cases left : skipBlanks bytes with
  | nil =>
      rw [readValueFrom, left] at read
      cases read
  | cons b behind =>
      have solid := not_isBlankByte_of_skipBlanks left
      rw [left] at text
      refine recovers.begun text solid ?_
      rw [readValueFrom, left] at read
      rw [readValueFrom, skipBlanks_cons solid]
      exact read

theorem nextItems (recovers : Recovers fuel) {depth : Nat} {first : Bool} {found : List Value}
    {bytes rest : Bytes} {value : Value} (text : Utf8.IsText bytes)
    (read : readItems (fuel + 1) depth first found bytes = .ok (value, rest)) :
    ∃ items tail, WritesElements .bounded depth first items tail ∧
      value = .list (found.reverse ++ items) ∧ bytes = tail ++ rest ∧ Utf8.IsText rest := by
  rw [readItems] at read
  split at read
  · cases read
  · rename_i closed
    obtain ⟨rfl, rfl⟩ := Prod.mk.inj (Except.ok.inj read)
    obtain ⟨blank, blanks, rfl⟩ := nextItem_cases closed
    rw [List.append_assoc] at text
    refine ⟨[], _, .bracket blanks, by rw [List.append_nil], rfl, ?_⟩
    exact (text.of_append blanks.ascii).tail (by decide)
  · rename_i next
    obtain ⟨before, separates, rfl⟩ := nextItem_cases next
    split at read
    · cases read
    · rename_i item left taken
      obtain ⟨blank, behind, blanks, rfl, form, written, rfl, inner⟩ :=
        recovers.value (text.of_append separates.ascii) taken
      obtain ⟨items, tail, more, rfl, rfl, behind⟩ := recovers.items inner read
      refine ⟨item :: items, _, .item (separates.append blanks) written more, ?_, ?_, behind⟩
      · rw [List.reverse_cons, List.append_assoc, List.singleton_append]
      · simp only [List.append_assoc]

theorem nextMembers (recovers : Recovers fuel) {depth : Nat} {first : Bool}
    {found : Keyed String Value} {bytes rest : Bytes} {value : Value} (text : Utf8.IsText bytes)
    (read : readMembers (fuel + 1) depth first found bytes = .ok (value, rest)) :
    ∃ given tail, WritesMembers .bounded depth first given tail ∧
      value = .object
        (given.foldl (fun found entry => found.put entry.1 entry.2) found).sorted ∧
      bytes = tail ++ rest ∧ Utf8.IsText rest := by
  rw [readMembers] at read
  split at read
  · cases read
  · rename_i closed
    obtain ⟨rfl, rfl⟩ := Prod.mk.inj (Except.ok.inj read)
    obtain ⟨blank, blanks, rfl⟩ := nextMember_cases closed
    rw [List.append_assoc] at text
    exact ⟨[], _, .brace blanks, rfl, rfl, (text.of_append blanks.ascii).tail (by decide)⟩
  · rename_i next
    obtain ⟨before, separates, rfl⟩ := nextMember_cases next
    split at read
    · cases read
    · rename_i key left quoted
      obtain ⟨body, named, rfl, unread⟩ := writesText_of_readQuoted
        ((text.of_append separates.ascii).tail (by decide)) quoted
      split at read
      · cases read
      · rename_i left passed
        obtain ⟨colon, between, rfl⟩ := colon_of_readColon passed
        split at read
        · cases read
        · rename_i member left taken
          obtain ⟨blank, behind, blanks, rfl, form, written, rfl, inner⟩ :=
            recovers.value (unread.of_append between.ascii) taken
          obtain ⟨given, tail, more, rfl, rfl, behind⟩ := recovers.members inner read
          refine ⟨(key, member) :: given, _,
            .member separates named (between.append blanks) written more, rfl, ?_, behind⟩
          simp only [List.append_assoc, List.cons_append]

end Recovers

theorem recovers (fuel : Nat) : Recovers fuel := by
  induction fuel with
  | zero =>
      constructor
      · intro depth bytes rest value _ read
        cases read
      · intro depth first found bytes rest value _ read
        cases read
      · intro depth first found bytes rest value _ read
        cases read
  | succ fuel ih => exact ⟨ih.behindBlanks, ih.nextItems, ih.nextMembers⟩

/-- In the octets of a text, a document is read exactly as what the grammar gives. -/
theorem parse_ok_iff {value : Value} {bytes : Bytes} (text : Utf8.IsText bytes) :
    parse bytes = .ok value ↔ WritesDocument .bounded maxDepth value bytes := by
  refine ⟨fun read => ?_, parse_of_writesDocument⟩
  obtain ⟨⟨found, rest⟩, taken, done⟩ := exists_of_bind_ok read
  obtain ⟨blank, behind, blanks, rfl, form, written, rfl, -⟩ := (recovers _).value text taken
  obtain ⟨blank', blanks', parts⟩ := exists_blank_append rest
  rw [finish] at done
  cases left : skipBlanks rest with
  | nil =>
      simp only [left] at done
      rw [left, List.append_nil] at parts
      obtain rfl := Except.ok.inj done
      exact ⟨blank, form, rest, blanks, written, parts ▸ blanks', rfl⟩
  | cons b more =>
      simp only [left] at done
      cases done

end CachingProxy.Json
