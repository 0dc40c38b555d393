import CachingProxy.Proofs.Json.Numbers
import CachingProxy.Proofs.Json.Skipping
import Mathlib.Data.List.Nodup
import Mathlib.Data.List.Pairwise

/-!
# Reading values of known types

A reader that takes each form of a value to the value: for texts, numbers and addresses, and from
these for lists and records.  The fields of a record may come in any order, since what one of them
stores no other one undoes.
-/

set_option autoImplicit false

namespace CachingProxy.Json

/-- A reader takes every form of a value to the value, behind blanks, and leaves what follows. -/
def Reads {α : Type} (reader : Reader α) (written : α → Bytes → Prop) : Prop :=
  ∀ ⦃value : α⦄ ⦃bytes blank rest : Bytes⦄, written value bytes → Blank blank → Ends rest →
    reader (blank ++ (bytes ++ rest)) = .ok (value, rest)

/-! ## Scalars -/

theorem reads_text : Reads readText WritesText := by
  intro text bytes blank rest written blanks _
  obtain ⟨body, rfl, read⟩ := readQuoted_of_writesText written
  rw [readText, List.cons_append, skipBlanks_blank_cons blanks (by decide)]
  exact read rest

theorem reads_bool : Reads readBool WritesBool := by
  intro value bytes blank rest written blanks _
  subst written
  rw [readBool]
  cases value with
  | true =>
      have letters :
          Bytes.ofText (if true then "true" else "false") = 116 :: Bytes.ofText "rue" := by
        decide
      rw [letters, List.cons_append, skipBlanks_blank_cons blanks (by decide)]
      rfl
  | false =>
      have letters :
          Bytes.ofText (if false then "true" else "false") = 102 :: Bytes.ofText "alse" := by
        decide
      rw [letters, List.cons_append, skipBlanks_blank_cons blanks (by decide)]
      rfl

theorem reads_uInt16 : Reads readUInt16 fun n => WritesNat n.toNat := by
  intro n bytes blank rest written blanks ends
  rw [readUInt16, readNat_of_writesNat (by decide) n.toNat_lt_size written blanks ends]
  exact congrArg (fun n => Except.ok (n, rest)) UInt16.ofNat_toNat

theorem reads_uInt64 : Reads readUInt64 fun n => WritesNat n.toNat := by
  intro n bytes blank rest written blanks ends
  rw [readUInt64, readNat_of_writesNat (Nat.le_refl _) n.toNat_lt_size written blanks ends]
  exact congrArg (fun n => Except.ok (n, rest)) UInt64.ofNat_toNat

theorem reads_via {α : Type} {ofText? : String → Option α} {text : α → String}
    (back : ∀ value, ofText? (text value) = some value) :
    Reads (readVia ofText?) fun value => WritesText (text value) := by
  intro value bytes blank rest written blanks ends
  rw [readVia, reads_text written blanks ends]
  simp only [bind, Except.bind, back]
  rfl

/-! ## Lists -/

section

variable {α : Type} {reader : Reader α} {written : α → Bytes → Prop}

theorem ends_of_writesItems {values : List α} {tail : Bytes}
    (items : WritesItems written false values tail) (rest : Bytes) : Ends (tail ++ rest) := by
  cases items with
  | bracket blanks => exact ends_close blanks (.inl rfl) rest
  | item separates => exact ends_of_separates separates _ rest

theorem readListFrom_of_writesItems (reads : Reads reader written)
    (begins : ∀ value bytes, written value bytes → Begins bytes) {first : Bool} {values : List α}
    {tail : Bytes} (items : WritesItems written first values tail) {fuel : Nat}
    (enough : tail.length ≤ fuel) (found : List α) (rest : Bytes) :
    readListFrom reader fuel first found (tail ++ rest) = .ok (found.reverse ++ values, rest) := by
  induction items generalizing fuel found with
  | @bracket first blank blanks =>
      rw [List.length_append, List.length_singleton] at enough
      obtain ⟨left, rfl⟩ := Nat.exists_eq_add_of_le' (Nat.le_of_add_left_le enough)
      rw [readListFrom, nextItem_close blanks, List.append_nil]
  | @item first before bytes tail value values separates form more ih =>
      have start := begins value bytes form
      have long : 0 < bytes.length := by
        obtain ⟨b, more, rfl, -⟩ := start
        exact Nat.succ_pos _
      rw [List.length_append, List.length_append] at enough
      obtain ⟨left, rfl⟩ := Nat.exists_eq_add_of_le' (by omega : 1 ≤ fuel)
      have read := reads form blank_nil (ends_of_writesItems more rest)
      rw [List.nil_append] at read
      rw [readListFrom, List.append_assoc, List.append_assoc, nextItem_item separates start]
      simp only [read]
      rw [ih (by omega), List.reverse_cons, List.append_assoc, List.singleton_append]

theorem reads_list (reads : Reads reader written)
    (begins : ∀ value bytes, written value bytes → Begins bytes) :
    Reads (readList reader) (WritesList written) := by
  rintro values bytes blank rest ⟨tail, items, rfl⟩ blanks -
  rw [readList, List.cons_append, skipBlanks_blank_cons blanks (by decide)]
  have enough : tail.length ≤ (tail ++ rest).length + 1 := by
    rw [List.length_append]
    omega
  exact readListFrom_of_writesItems reads begins items enough [] rest

end

/-! ## Records -/

/-- A field as it is written and as it is read: reading it makes the record agree with the one that
was written.  `start` is the record whose fields are all defaults. -/
structure Slot (σ : Type) (start : σ) where
  member : Member σ
  form : FieldForm
  agrees : σ → Prop
  put : σ → σ
  named : member.name = form.name
  omitted : form.omittable → member.required = false ∧ agrees start
  read : ∀ (record : σ) {blank bytes rest : Bytes}, form.written bytes → Blank blank →
    Ends rest → member.read record (blank ++ (bytes ++ rest)) = .ok (put record, rest)
  kept : ∀ record, agrees (put record)

namespace Slot

variable {σ α : Type} {start : σ} {reader : Reader α} {written : α → Bytes → Prop}

@[simps form agrees put]
def of (target : σ) (form : FieldForm) (required : Bool) (reads : Reads reader written)
    (get : σ → α) (store : σ → α → σ) (forms : form.written = written (get target))
    (omitted : form.omittable → required = false ∧ get start = get target)
    (law : ∀ record value, get (store record value) = value) : Slot σ start where
  member := .of form.name reader store required
  form
  agrees record := get record = get target
  put record := store record (get target)
  named := rfl
  omitted
  read record _ _ _ shape blanks ends := by
    simp only [Member.of]
    rw [reads (forms ▸ shape) blanks ends]
    rfl
  kept record := law record _

@[simps! form agrees put]
def defaulted (target : σ) (name : String) (reads : Reads reader written) (get : σ → α)
    (store : σ → α → σ)
    (law : ∀ record value, get (store record value) = value := by intros; rfl) : Slot σ start :=
  .of target (.defaulted name written (get start) (get target)) false reads get store rfl
    (fun same => ⟨rfl, same⟩) law

@[simps! form agrees put]
def required (target : σ) (name : String) (reads : Reads reader written) (get : σ → α)
    (store : σ → α → σ)
    (law : ∀ record value, get (store record value) = value := by intros; rfl) : Slot σ start :=
  .of target (.required name written (get target)) true reads get store rfl False.elim law

/-- What one of two fields stores leaves the other as it is. -/
def Apart (slot other : Slot σ start) : Prop :=
  (∀ record, other.agrees record → other.agrees (slot.put record)) ∧
    ∀ record, slot.agrees record → slot.agrees (other.put record)

instance : Std.Symm (@Apart σ start) := ⟨fun _ _ apart => ⟨apart.2, apart.1⟩⟩

end Slot

/-- The slots of a record make it up, and no two of them have to do with each other. -/
structure Slots {σ : Type} (start target : σ) (slots : List (Slot σ start)) : Prop where
  distinct : (slots.map fun slot => slot.form.name).Nodup
  apart : slots.Pairwise Slot.Apart
  whole : ∀ record, (∀ slot ∈ slots, slot.agrees record) → record = target

section

variable {σ : Type} {start target : σ} {slots : List (Slot σ start)}

theorem Slots.keeps (made : Slots start target slots) {slot other : Slot σ start}
    (listed : slot ∈ slots) (listed' : other ∈ slots) {record : σ} (agrees : other.agrees record) :
    other.agrees (slot.put record) := by
  by_cases same : other = slot
  · rw [same]
    exact slot.kept record
  · exact (made.apart.forall listed listed' (Ne.symm same)).1 record agrees

theorem find?_slot (distinct : (slots.map fun slot => slot.form.name).Nodup)
    {slot : Slot σ start} (listed : slot ∈ slots) :
    (slots.map Slot.member).find? (fun field => field.name == slot.form.name) =
      some slot.member := by
  induction slots with
  | nil => cases listed
  | cons head slots ih =>
      rw [List.map_cons, List.nodup_cons] at distinct
      rw [List.map_cons]
      rcases List.mem_cons.mp listed with rfl | listed
      · exact List.find?_cons_of_pos (beq_iff_eq.mpr slot.named)
      · have other : head.member.name ≠ slot.form.name := by
          rw [head.named]
          rintro same
          exact distinct.1 (same ▸ List.mem_map_of_mem listed)
        rw [List.find?_cons_of_neg (by simpa using other)]
        exact ih distinct.2 listed

theorem find?_slot_eq_none {key : String} (strange : ∀ slot ∈ slots, slot.form.name ≠ key) :
    (slots.map Slot.member).find? (fun field => field.name == key) = none := by
  rw [List.find?_eq_none]
  intro field listed
  obtain ⟨slot, among, rfl⟩ := List.mem_map.mp listed
  rw [slot.named, beq_iff_eq]
  exact strange slot among

theorem ends_of_writesFields {foreign : Bytes → Prop} {fields : List FieldForm}
    {given : List String} {tail : Bytes} (more : WritesFields foreign fields false given tail)
    (rest : Bytes) : Ends (tail ++ rest) := by
  cases more with
  | brace blanks => exact ends_close blanks (.inr rfl) rest
  | known separates | unknown separates => exact ends_of_separates separates _ rest

section

variable {before key colon value rest : Bytes} {first : Bool} {seen : List String}

theorem readFieldsFrom_known (made : Slots start target slots) {slot : Slot σ start}
    (listed : slot ∈ slots) (separates : Separates first before)
    (named : WritesText slot.form.name key) (between : Colon colon)
    (form : slot.form.written value) (ends : Ends rest) (unseen : slot.form.name ∉ seen)
    (fuel : Nat) (record : σ) :
    readFieldsFrom (slots.map Slot.member) (fuel + 1) first seen record
        (before ++ (key ++ (colon ++ (value ++ rest)))) =
      readFieldsFrom (slots.map Slot.member) fuel false (slot.form.name :: seen) (slot.put record)
        rest := by
  obtain ⟨body, rfl, readName⟩ := readQuoted_of_writesText named
  obtain ⟨blank, blanks, colonRead⟩ := readColon_colon between
  have fresh : seen.contains slot.form.name = false := by simpa using unseen
  rw [List.cons_append, readFieldsFrom, nextMember_member separates]
  simp only [readName, find?_slot made.distinct listed, fresh, Bool.false_eq_true, if_false,
    colonRead, slot.read record form blanks ends]

theorem readFieldsFrom_unknown (separates : Separates first before) (strange : Denotes key)
    (apart : ∀ slot ∈ slots, ¬ WritesText slot.form.name key) (between : Colon colon)
    (formed : WellFormed value) (ends : Ends rest) (fuel : Nat) (record : σ) :
    readFieldsFrom (slots.map Slot.member) (fuel + 1) first seen record
        (before ++ (key ++ (colon ++ (value ++ rest)))) =
      readFieldsFrom (slots.map Slot.member) fuel false seen record rest := by
  obtain ⟨text, written⟩ := strange
  have missing : (slots.map Slot.member).find? (fun field => field.name == text) = none :=
    find?_slot_eq_none fun slot listed same => apart slot listed (same ▸ written)
  obtain ⟨body, rfl, readName⟩ := readQuoted_of_writesText written
  obtain ⟨blank, blanks, colonRead⟩ := readColon_colon between
  rw [List.cons_append, readFieldsFrom, nextMember_member separates]
  simp only [readName, missing, colonRead, skipValue_of_wellFormed formed blanks ends]

end

/-- What is left of a record is read to its end: the fields that are given agree then, and those
that agreed before still do. -/
theorem readFieldsFrom_of_writesFields (made : Slots start target slots) {first : Bool}
    {given : List String} {tail : Bytes}
    (fields : WritesFields Denotes (slots.map Slot.form) first given tail) {fuel : Nat}
    (enough : tail.length ≤ fuel) {seen : List String} (unseen : ∀ name ∈ given, name ∉ seen)
    (record : σ) (rest : Bytes) :
    ∃ next, readFieldsFrom (slots.map Slot.member) fuel first seen record (tail ++ rest) =
        .ok ((given.reverse ++ seen, next), rest) ∧
      ∀ slot ∈ slots, slot.agrees record ∨ slot.form.name ∈ given → slot.agrees next := by
  induction fields generalizing fuel seen record with
  | @brace first blank blanks =>
      rw [List.length_append, List.length_singleton] at enough
      obtain ⟨left, rfl⟩ := Nat.exists_eq_add_of_le' (Nat.le_of_add_left_le enough)
      refine ⟨record, ?_, ?_⟩
      · rw [readFieldsFrom, nextMember_close blanks, List.reverse_nil, List.nil_append]
      · simp
  | @known first before key colon value tail given field separates listed unused named between
      form more ih =>
      obtain ⟨slot, among, rfl⟩ := List.mem_map.mp listed
      have spent : 0 < key.length := length_pos_of_writesText named
      simp only [List.length_append] at enough
      obtain ⟨left, rfl⟩ := Nat.exists_eq_add_of_le' (by omega : 1 ≤ fuel)
      have unseen' : ∀ name ∈ given, name ∉ slot.form.name :: seen := by
        intro name member again
        rcases List.mem_cons.mp again with rfl | again
        · exact unused member
        · exact unseen name (List.mem_cons_of_mem _ member) again
      obtain ⟨next, final, agree⟩ := ih (by omega : tail.length ≤ left) unseen' (slot.put record)
      refine ⟨next, ?_, fun other listed agrees => agree other listed ?_⟩
      · simp only [List.append_assoc]
        rw [readFieldsFrom_known made among separates named between form
          (ends_of_writesFields more rest) (unseen _ List.mem_cons_self), final,
          List.reverse_cons, List.append_assoc, List.singleton_append]
      · rcases agrees with before | given
        · exact .inl (made.keeps among listed before)
        · rcases List.mem_cons.mp given with same | given
          · rw [List.inj_on_of_nodup_map made.distinct listed among same]
            exact .inl (slot.kept record)
          · exact .inr given
  | @unknown first before key colon value tail given separates strange apart between formed more
      ih =>
      have spent : 0 < key.length := length_pos_of_writesText strange.choose_spec
      simp only [List.length_append] at enough
      obtain ⟨left, rfl⟩ := Nat.exists_eq_add_of_le' (by omega : 1 ≤ fuel)
      obtain ⟨next, final, agree⟩ := ih (by omega : tail.length ≤ left) unseen record
      refine ⟨next, ?_, agree⟩
      simp only [List.append_assoc]
      rw [readFieldsFrom_unknown separates strange
        (fun slot listed => apart slot.form (List.mem_map_of_mem listed)) between formed
        (ends_of_writesFields more rest), final]

end

section

variable {σ : Type} {start : σ} {members : List (Member σ)} {slots : σ → List (Slot σ start)}

/-- A record is read from its fields, in any order and without some that have their defaults. -/
theorem reads_record (made : ∀ target, Slots start target (slots target))
    (same : ∀ target, (slots target).map Slot.member = members) :
    Reads (readRecord members start)
      fun target => WritesRecord Denotes ((slots target).map Slot.form) := by
  rintro target bytes blank rest ⟨given, tail, fields, complete, rfl⟩ blanks -
  have enough : tail.length ≤ (tail ++ rest).length + 1 := by
    rw [List.length_append]
    omega
  have unseen : ∀ name ∈ given, name ∉ ([] : List String) := fun _ _ => List.not_mem_nil
  obtain ⟨next, read, agrees⟩ := readFieldsFrom_of_writesFields (made target) fields enough unseen
    start rest
  -- What is missing may be missing.
  have omitted : ∀ slot ∈ slots target, slot.form.name ∉ given →
      slot.member.required = false ∧ slot.agrees start := fun slot listed missing =>
    slot.omitted (complete slot.form (List.mem_map_of_mem listed) missing)
  have required : (members.any fun field =>
      field.required && !(given.reverse ++ []).contains field.name) = false := by
    rw [← same target, List.any_eq_false]
    rintro field listed
    obtain ⟨slot, among, rfl⟩ := List.mem_map.mp listed
    by_cases found : slot.form.name ∈ given
    · simp [slot.named, found]
    · simp [(omitted slot among found).1]
  have done : next = target := (made target).whole next fun slot listed =>
    agrees slot listed (by
      by_cases found : slot.form.name ∈ given
      · exact .inr found
      · exact .inl (omitted slot listed found).2)
  rw [same] at read
  rw [readRecord, List.cons_append, skipBlanks_blank_cons blanks (by decide)]
  simp only [read, required, done]
  rfl

end

theorem begins_of_writesRecord {foreign : Bytes → Prop} {fields : List FieldForm} {bytes : Bytes}
    (written : WritesRecord foreign fields bytes) : Begins bytes := by
  obtain ⟨_, tail, -, -, rfl⟩ := written
  exact ⟨123, tail, rfl, by decide, by decide⟩

end CachingProxy.Json
