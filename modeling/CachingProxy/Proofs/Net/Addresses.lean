import CachingProxy.Net.Address
import CachingProxy.Proofs.Text.Digits
import Mathlib.Data.List.TakeWhile

/-!
# Reading addresses as they are written

Every address is read back from its canonical text.  A text of the sixth version is never taken for
one of the fourth: what stands before its first colon is no octet with a dot behind it.
-/

set_option autoImplicit false

namespace CachingProxy.IpAddress

/-! ## Dotted addresses -/

def octetChars (octet : UInt8) : List Char := Nat.toDigits 10 octet.toNat

def dottedChars (a b c d : UInt8) : List Char :=
  octetChars a ++ '.' :: (octetChars b ++ '.' :: (octetChars c ++ '.' :: octetChars d))

theorem toList_dottedText (a b c d : UInt8) :
    (dottedText a b c d).toList = dottedChars a b c d := by
  simp [dottedText, dottedChars, octetChars]

theorem readOctet_append (octet : UInt8) {rest : List Char}
    (ends : ∀ c ∈ rest.head?, Text.isDigit c = false) :
    readOctet (octetChars octet ++ rest) = some (octet, rest) := by
  have small : octet.toNat < 256 := octet.toNat_lt
  have digits : ∀ c ∈ octetChars octet, Text.isDigit c = true :=
    fun c member => Text.isDigit_of_mem_toDigits member
  obtain ⟨found, left⟩ := Text.run_append digits ends
  have filled : (octetChars octet).isEmpty = false := by simp [octetChars]
  have short : ¬ 3 < (octetChars octet).length := Nat.not_lt.mpr
    ((Nat.length_toDigits_le_iff (by decide) (by decide)).mpr (by omega))
  have unpadded : ¬ (1 < (octetChars octet).length ∧ (octetChars octet).head? = some '0') := by
    rintro ⟨long, zero⟩
    rw [octetChars, Text.toDigits_of_head (by decide) zero] at long
    exact absurd long (by decide)
  rw [readOctet, found, left]
  simp only [filled, decide_eq_false short, Bool.false_or, Bool.and_eq_true, decide_eq_true_eq,
    beq_iff_eq, if_neg unpadded]
  rw [octetChars, Text.decimal_toDigits, if_pos small, UInt8.ofNat_toNat]

theorem isDigit_of_dot {rest : List Char} : ∀ c ∈ ('.' :: rest).head?, Text.isDigit c = false := by
  rintro c ⟨⟩
  decide

theorem readDotted_append (a b c d : UInt8) {rest : List Char}
    (ends : ∀ c ∈ rest.head?, Text.isDigit c = false) :
    readDotted (dottedChars a b c d ++ rest) = some ((a, b, c, d), rest) := by
  simp only [dottedChars, List.append_assoc, List.cons_append]
  simp only [readDotted, readOctet_append _ isDigit_of_dot, readOctet_append d ends, readChar,
    if_true, Option.bind_eq_bind, Option.bind_some]
  rfl

theorem readDotted_dottedChars (a b c d : UInt8) :
    readDotted (dottedChars a b c d) = some ((a, b, c, d), []) := by
  rw [← List.append_nil (dottedChars a b c d)]
  exact readDotted_append a b c d (by rintro c ⟨⟩)

/-! ## Groups -/

def groupChars (group : UInt16) : List Char := Nat.toDigits 16 group.toNat

def separator (first : Bool) : List Char := if first then [] else [':']

def groupsChars : Bool → List UInt16 → List Char
  | _, [] => []
  | first, group :: groups => separator first ++ (groupChars group ++ groupsChars false groups)

theorem toList_groupsText (groups : List UInt16) :
    (groupsText groups).toList = groupsChars true groups := by
  rw [groupsText, String.toList_intercalate, List.map_map]
  have chars (group : UInt16) : (Hex.ofNat group.toNat).toList = groupChars group := by
    rw [Hex.ofNat, String.toList_ofList, groupChars]
  cases groups with
  | nil => rfl
  | cons group groups =>
      induction groups generalizing group with
      | nil => simp [groupsChars, separator, chars]
      | cons next groups ih =>
          rw [List.map_cons, List.map_cons, List.intercalate_cons_cons, ← List.map_cons, ih]
          simp [groupsChars, separator, chars]

theorem isHexDigit_groupChars (group : UInt16) :
    ∀ c ∈ groupChars group, isHexDigit c = true := by
  intro c member
  obtain ⟨d, small, rfl⟩ := Text.mem_toDigits (by decide) member
  exact (show ∀ d < 16, isHexDigit d.digitChar = true by decide) d small

/-- Nothing or a colon follows. -/
def Bounded (rest : List Char) : Prop := ∀ c ∈ rest.head?, c = ':'

theorem bounded_nil : Bounded [] := by
  rintro c ⟨⟩

theorem bounded_colon (rest : List Char) : Bounded (':' :: rest) := by
  rintro c ⟨⟩
  rfl

theorem bounded_groupsChars (groups : List UInt16) {rest : List Char} (bounded : Bounded rest) :
    Bounded (groupsChars false groups ++ rest) := by
  cases groups with
  | nil => exact bounded
  | cons => exact bounded_colon _

theorem readGroup_append (group : UInt16) {rest : List Char} (bounded : Bounded rest) :
    readGroup (groupChars group ++ rest) = some (group, rest) := by
  have small : group.toNat < 65536 := group.toNat_lt
  have ends : ∀ c ∈ rest.head?, isHexDigit c = false := by
    intro c head
    rw [bounded c head]
    decide
  obtain ⟨found, left⟩ := Text.run_append (isHexDigit_groupChars group) ends
  have filled : (groupChars group).isEmpty = false := by simp [groupChars]
  have short : ¬ 4 < (groupChars group).length := Nat.not_lt.mpr
    ((Nat.length_toDigits_le_iff (by decide) (by decide)).mpr (by omega))
  rw [readGroup, found, left]
  simp only [filled, decide_eq_false short, Bool.or_self, Bool.false_eq_true, if_false]
  rw [groupChars, Text.foldl_toDigits (by decide) (by decide), UInt16.ofNat_toNat]

theorem readDotted_eq_none {found rest : List Char} (all : ∀ c ∈ found, isHexDigit c = true)
    (bounded : Bounded rest) : readDotted (found ++ rest) = none := by
  have next : readChar '.' ((found ++ rest).dropWhile Text.isDigit) = none := by
    induction found with
    | nil =>
        cases rest with
        | nil => rfl
        | cons c rest =>
            obtain rfl := bounded c rfl
            rfl
    | cons c found ih =>
        rw [List.cons_append]
        by_cases digit : Text.isDigit c = true
        · rw [List.dropWhile_cons_of_pos digit]
          exact ih fun d member => all d (List.mem_cons_of_mem _ member)
        · rw [List.dropWhile_cons_of_neg digit, readChar, if_neg]
          rintro rfl
          exact absurd (all '.' List.mem_cons_self) (by decide)
  rw [readDotted, readOctet]
  split
  · rfl
  · dsimp only
    split
    · simp only [Option.bind_eq_bind, Option.bind_some, next, Option.bind_none]
    · rfl

theorem readDotted_of_bounded {rest : List Char} (bounded : Bounded rest) :
    readDotted rest = none :=
  readDotted_eq_none (List.forall_mem_nil fun c => isHexDigit c = true) bounded

/-! ## Runs of groups -/

/-- The groups end here: with the text or at two colons. -/
def Stops (rest : List Char) : Prop := rest = [] ∨ ∃ tail, rest = ':' :: ':' :: tail

theorem readSeparator_append (first : Bool) (cs : List Char) :
    readSeparator first (separator first ++ cs) = some cs := by
  cases first <;> rfl

theorem readGroups_group (count : Nat) (first : Bool) (group : UInt16) {rest : List Char}
    (bounded : Bounded rest) :
    readGroups (count + 1) first (separator first ++ (groupChars group ++ rest)) =
      { readGroups count false rest with
        groups := group :: (readGroups count false rest).groups } := by
  rw [readGroups, readSeparator_append]
  have undotted := readDotted_eq_none (isHexDigit_groupChars group) bounded
  simp only [Option.bind_some, undotted, ite_self, readGroup_append group bounded]

theorem readGroup_eq_none {cs : List Char} (bounded : Bounded cs) : readGroup cs = none := by
  cases cs with
  | nil => rfl
  | cons c cs =>
      obtain rfl := bounded c rfl
      rfl

theorem bounded_of_readSeparator {first : Bool} {rest cs : List Char} (stops : Stops rest)
    (read : readSeparator first rest = some cs) : Bounded cs := by
  rcases stops with rfl | ⟨tail, rfl⟩
  · cases first with
    | true => exact Option.some.inj read ▸ bounded_nil
    | false => cases read
  · cases first with
    | true => exact Option.some.inj read ▸ bounded_colon _
    | false => exact Option.some.inj read ▸ bounded_colon _

theorem readGroups_stop (count : Nat) (first : Bool) {rest : List Char} (stops : Stops rest) :
    readGroups count first rest = ⟨[], false, rest⟩ := by
  cases count with
  | zero => rfl
  | succ count =>
      rw [readGroups]
      cases read : readSeparator first rest with
      | none => simp only [Option.bind_none, ite_self]
      | some cs =>
          have bounded := bounded_of_readSeparator stops read
          simp only [Option.bind_some, readDotted_of_bounded bounded, ite_self,
            readGroup_eq_none bounded]

theorem readGroups_groups {count : Nat} {first : Bool} {groups : List UInt16} {rest : List Char}
    (few : groups.length ≤ count) (stops : Stops rest) :
    readGroups count first (groupsChars first groups ++ rest) = ⟨groups, false, rest⟩ := by
  have bounded : Bounded rest := by
    rcases stops with rfl | ⟨tail, rfl⟩
    · exact bounded_nil
    · exact bounded_colon _
  induction groups generalizing count first with
  | nil => exact readGroups_stop count first stops
  | cons group groups ih =>
      rw [List.length_cons] at few
      obtain ⟨left, rfl⟩ := Nat.exists_eq_add_of_le' (Nat.le_of_add_left_le few)
      rw [groupsChars, List.append_assoc, List.append_assoc,
        readGroups_group left first group (bounded_groupsChars groups bounded), ih (by omega)]

theorem readGroups_dotted (count : Nat) (a b c d : UInt8) :
    readGroups (count + 2) false (':' :: dottedChars a b c d) =
      ⟨[joinOctets a b, joinOctets c d], true, []⟩ := by
  rw [readGroups]
  simp only [readSeparator, readChar, if_true, Bool.false_eq_true, if_false, Option.bind_some,
    readDotted_dottedChars]
  rfl

/-! ## Canonical texts -/

theorem joinOctets_octets (group : UInt16) :
    joinOctets (highOctet group) (lowOctet group) = group := by
  have small : group.toNat < 65536 := group.toNat_lt
  have high : group.toNat / 256 < 256 := by omega
  rw [joinOctets, highOctet, lowOctet, UInt8.toNat_ofNat_of_lt' high,
    UInt8.toNat_ofNat_of_lt' (Nat.mod_lt _ (by decide)), Nat.div_add_mod', UInt16.ofNat_toNat]

theorem mapped?_eq_some {groups : List UInt16} {high low : UInt16}
    (mapped : mapped? groups = some (high, low)) : groups = [0, 0, 0, 0, 0, 0xFFFF, high, low] := by
  rw [mapped?.eq_def] at mapped
  split at mapped
  · cases mapped
    rfl
  · cases mapped

theorem longestZeros_run {groups : List UInt16} {start place zeros : Nat}
    (longest : longestZeros start groups = (place, zeros)) (found : 0 < zeros) :
    ∃ before after, groups = before ++ (List.replicate zeros 0 ++ after) ∧
      place = start + before.length := by
  induction groups generalizing start with
  | nil =>
      cases longest
      cases found
  | cons group rest ih =>
      rcases later : longestZeros (start + 1) rest with ⟨other, length⟩
      rw [longestZeros, later] at longest
      simp only at longest
      split at longest
      · -- The run starts here.
        cases longest
        have zeros : (group :: rest).takeWhile (fun g => g == 0) =
            List.replicate ((group :: rest).takeWhile fun g => g == 0).length 0 :=
          List.eq_replicate_iff.mpr
            ⟨rfl, fun g member => by simpa using List.mem_takeWhile_imp member⟩
        refine ⟨[], (group :: rest).dropWhile fun g => g == 0, ?_, rfl⟩
        rw [List.nil_append, ← zeros, List.takeWhile_append_dropWhile]
      · cases longest
        obtain ⟨before, after, same, is⟩ := ih later
        refine ⟨group :: before, after, ?_, ?_⟩
        · rw [List.cons_append, ← same]
        · rw [is, List.length_cons]
          omega

/-- The three shapes of a canonical text. -/
theorem v6Text_shape (groups : List UInt16) :
    (∃ high low, groups = [0, 0, 0, 0, 0, 0xFFFF, high, low] ∧ (v6Text groups).toList =
        ':' :: ':' :: (groupChars 0xFFFF ++ ':' ::
          dottedChars (highOctet high) (lowOctet high) (highOctet low) (lowOctet low))) ∨
      (∃ before zeros after, 1 < zeros ∧ groups = before ++ (List.replicate zeros 0 ++ after) ∧
        (v6Text groups).toList = groupsChars true before ++ ':' :: ':' :: groupsChars true after) ∨
      (v6Text groups).toList = groupsChars true groups := by
  rw [v6Text]
  split
  · rename_i high low mapped
    refine .inl ⟨high, low, mapped?_eq_some mapped, ?_⟩
    rw [String.toList_append, toList_dottedText]
    rfl
  · rcases run : longestZeros 0 groups with ⟨start, zeros⟩
    simp only
    split
    · rename_i long
      obtain ⟨before, after, same, rfl⟩ := longestZeros_run run (Nat.lt_of_succ_lt long)
      refine .inr (.inl ⟨before, zeros, after, long, same, ?_⟩)
      have left : groups.take (0 + before.length) = before := by
        rw [same, Nat.zero_add, List.take_left]
      have right : groups.drop (0 + before.length + zeros) = after := by
        rw [same, Nat.zero_add, ← List.drop_drop, List.drop_left,
          List.drop_left' List.length_replicate]
      rw [left, right, String.toList_append, String.toList_append, toList_groupsText,
        toList_groupsText, List.append_assoc]
      rfl
    · exact .inr (.inr (toList_groupsText groups))

/-! ## Reading back -/

theorem readDotted_v6Text (groups : List UInt16) :
    readDotted (v6Text groups).toList = none := by
  have leading {groups : List UInt16} {rest : List Char} (bounded : Bounded rest) :
      readDotted (groupsChars true groups ++ rest) = none := by
    cases groups with
    | nil => exact readDotted_of_bounded bounded
    | cons group groups =>
        rw [groupsChars, separator, if_pos rfl, List.nil_append, List.append_assoc]
        exact readDotted_eq_none (isHexDigit_groupChars group) (bounded_groupsChars groups bounded)
  rcases v6Text_shape groups with ⟨high, low, -, text⟩ | ⟨before, zeros, after, -, -, text⟩ | text
  · rw [text]
    exact readDotted_of_bounded (bounded_colon _)
  · rw [text]
    exact leading (bounded_colon _)
  · rw [text, ← List.append_nil (groupsChars true groups)]
    exact leading bounded_nil

theorem ofGroups?_toList (groups : Vector UInt16 8) :
    ofGroups? groups.toList = some (.v6 groups) := by
  rw [ofGroups?, dif_pos groups.length_toList]
  exact congrArg (fun groups => some (IpAddress.v6 groups)) (Vector.toArray_inj.mp rfl)

/-- Both parts around the colons are read, and the groups that are left out come back. -/
theorem readV6_colons (before : List UInt16) {after : List UInt16} {dotted : Bool} (zeros : Nat)
    (run : 0 < zeros) (eight : before.length + (zeros + after.length) = 8) {rest : List Char}
    (read : readGroups (7 - before.length) true rest = ⟨after, dotted, []⟩) :
    readV6 (groupsChars true before ++ ':' :: ':' :: rest) =
      (ofGroups? (before ++ (List.replicate zeros 0 ++ after))).map
        fun address => (address, []) := by
  have left : 8 - before.length - after.length = zeros := by omega
  rw [readV6, readGroups_groups (by omega) (.inr ⟨rest, rfl⟩)]
  simp only [if_neg (show before.length ≠ 8 by omega), Bool.false_eq_true, if_false, readChar,
    if_true, Option.bind_eq_bind, Option.bind_some, read, left, List.append_assoc]
  cases ofGroups? (before ++ (List.replicate zeros 0 ++ after)) <;> rfl

theorem readV6_v6Text {groups : List UInt16} (eight : groups.length = 8) :
    readV6 (v6Text groups).toList = (ofGroups? groups).map fun address => (address, []) := by
  have whole {count : Nat} {groups : List UInt16} (few : groups.length ≤ count) :
      readGroups count true (groupsChars true groups) = ⟨groups, false, []⟩ := by
    rw [← List.append_nil (groupsChars true groups)]
    exact readGroups_groups few (.inl rfl)
  rcases v6Text_shape groups with ⟨high, low, rfl, text⟩ | ⟨before, zeros, after, long, rfl, text⟩ |
    text
  · have tail := readGroups_group 6 true 0xFFFF (bounded_colon
      (dottedChars (highOctet high) (lowOctet high) (highOctet low) (lowOctet low)))
    rw [readGroups_dotted 4, joinOctets_octets, joinOctets_octets] at tail
    rw [text]
    exact readV6_colons [] 5 (by decide) rfl tail
  · rw [List.length_append, List.length_append, List.length_replicate] at eight
    rw [text]
    exact readV6_colons before zeros (by omega) eight (whole (by omega))
  · rw [text, readV6, whole (by omega)]
    simp only [if_pos eight]
    cases ofGroups? groups <;> rfl

theorem ofText?_text (ip : IpAddress) : ofText? ip.text = some ip := by
  cases ip with
  | v4 a b c d =>
      rw [text, ofText?, toList_dottedText, readDotted_dottedChars]
  | v6 groups =>
      rw [text, ofText?, readDotted_v6Text]
      simp only [readV6_v6Text groups.length_toList, ofGroups?_toList, Option.map_some]

end CachingProxy.IpAddress
