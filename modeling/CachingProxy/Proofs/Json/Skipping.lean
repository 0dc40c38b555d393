import CachingProxy.Json.Skip
import CachingProxy.Proofs.Json.Numerals
import CachingProxy.Proofs.Json.Texts

/-!
# Skipping values

A well-formed value is skipped, however deep it is nested: each of its octets allows for two steps,
which is more than it takes.
-/

set_option autoImplicit false

namespace CachingProxy.Json

/-! ## Values that are no lists and no objects -/

/-- A value that is skipped in one step, told by its first octet. -/
structure Scalar (b : UInt8) (tail : Bytes) : Prop where
  solid : isBlankByte b = false
  plain : b ≠ 91 ∧ b ≠ 93 ∧ b ≠ 123
  skipped : ∀ rest, Ends rest → skipScalar b (tail ++ rest) = .ok rest

theorem scalar_of_word {text : String} (known : text ∈ ["null", "true", "false"]) :
    ∃ b tail, Bytes.ofText text = b :: tail ∧ Scalar b tail := by
  rcases List.mem_cons.mp known with rfl | known
  · exact ⟨110, Bytes.ofText "ull", by decide, by decide, by decide, fun rest _ => rfl⟩
  rcases List.mem_cons.mp known with rfl | known
  · exact ⟨116, Bytes.ofText "rue", by decide, by decide, by decide, fun rest _ => rfl⟩
  · obtain rfl := List.mem_singleton.mp known
    exact ⟨102, Bytes.ofText "alse", by decide, by decide, by decide, fun rest _ => rfl⟩

theorem scalar_of_literal {bytes : Bytes} (quoted : Literal bytes) :
    ∃ b tail, bytes = b :: tail ∧ Scalar b tail := by
  obtain ⟨body, rfl, skipped⟩ := skipQuoted_of_literal quoted
  exact ⟨34, body, rfl, by decide, by decide, fun rest _ => skipped rest⟩

theorem skipNumeral_of_written {negative : Bool} {number : Numeral} {bytes rest : Bytes}
    (written : Numeral.WritesUnsigned negative number bytes) (ends : Ends rest) :
    skipNumeral (bytes ++ rest) = .ok rest := by
  cases written with
  | parts written part part' =>
      rw [skipNumeral, Numeral.readUnsigned_of_written .malformed (.parts written part part') ends]
      rfl

theorem scalar_of_numeral {bytes : Bytes} (numeral : IsNumeral bytes) :
    ∃ b tail, bytes = b :: tail ∧ Scalar b tail := by
  obtain ⟨number, written⟩ := Numeral.exists_writesNumeral numeral
  cases written with
  | plain written =>
      obtain ⟨b, tail, rfl, digit⟩ := written.head
      have apart {c : UInt8} (other : Numeral.isDigitByte c = false) : b ≠ c :=
        Numeral.ne_of_digit digit other
      refine ⟨b, tail, rfl, Numeral.solid_of_digit digit,
        ⟨apart (by decide), apart (by decide), apart (by decide)⟩, fun rest ends => ?_⟩
      rw [skipScalar, if_neg (apart (by decide)), if_neg (apart (by decide)),
        if_neg (apart (by decide)), if_neg (apart (by decide)), if_neg (apart (by decide)),
        if_pos digit]
      exact skipNumeral_of_written written ends
  | negative written =>
      exact ⟨45, _, rfl, by decide, by decide, fun rest ends => skipNumeral_of_written written ends⟩

/-! ## Steps -/

section

variable {v tail : Bytes}

theorem skipFrom_scalar {b : UInt8} (scalar : Scalar b tail) (fuel : Nat) (frames : List Frame)
    {blank rest : Bytes} (blanks : Blank blank) (ends : Ends rest) :
    skipFrom (fuel + 1) .before frames (blank ++ (b :: tail ++ rest)) =
      skipFrom fuel .after frames rest := by
  obtain ⟨solid, ⟨list, -, object⟩, skipped⟩ := scalar
  rw [skipFrom.eq_def, List.cons_append]
  simp only [skipBlanks_blank_cons blanks solid, if_neg list, if_neg object, skipped rest ends]

theorem skipFrom_opened (fuel : Nat) (frames : List Frame) {blank : Bytes} (blanks : Blank blank)
    (rest : Bytes) :
    skipFrom (fuel + 1) .before frames (blank ++ 91 :: rest) =
        skipFrom fuel .opened (.list :: frames) rest ∧
      skipFrom (fuel + 1) .before frames (blank ++ 123 :: rest) =
        skipFrom fuel .opened (.object :: frames) rest := by
  constructor
  · rw [skipFrom.eq_def]
    simp only [skipBlanks_blank_cons blanks (show isBlankByte 91 = false by decide)]
    rfl
  · rw [skipFrom.eq_def]
    simp only [skipBlanks_blank_cons blanks (show isBlankByte 123 = false by decide)]
    rfl

def Place.inside (first : Bool) : Place := if first then .opened else .after

theorem skipFrom_list (fuel : Nat) (first : Bool) (frames : List Frame) {bytes rest : Bytes}
    {more : Bool} (next : nextItem first bytes = .ok (more, rest)) :
    skipFrom (fuel + 1) (.inside first) (.list :: frames) bytes =
      if more then skipFrom fuel .before (.list :: frames) rest
      else skipFrom fuel .after frames rest := by
  rw [skipFrom.eq_def]
  cases first <;> cases more <;> simp only [Place.inside] <;> simp [next]

theorem skipFrom_object_close (fuel : Nat) (first : Bool) (frames : List Frame)
    {bytes rest : Bytes} (next : nextMember first bytes = .ok (false, rest)) :
    skipFrom (fuel + 1) (.inside first) (.object :: frames) bytes =
      skipFrom fuel .after frames rest := by
  rw [skipFrom.eq_def]
  cases first <;> simp only [Place.inside] <;> simp [next]

theorem skipFrom_object_member (fuel : Nat) (first : Bool) (frames : List Frame)
    {bytes rest behind : Bytes} (next : nextMember first bytes = .ok (true, rest))
    (skipped : skipKey rest = .ok behind) :
    skipFrom (fuel + 1) (.inside first) (.object :: frames) bytes =
      skipFrom fuel .before (.object :: frames) behind := by
  rw [skipFrom.eq_def]
  cases first <;> simp only [Place.inside] <;> simp [next, skipped]

theorem skipKey_of_literal {key colon : Bytes} (quoted : Literal key) (between : Colon colon) :
    ∃ body blank, key = 34 :: body ∧ Blank blank ∧
      ∀ rest, skipKey (body ++ (colon ++ rest)) = .ok (blank ++ rest) := by
  obtain ⟨body, rfl, skipped⟩ := skipQuoted_of_literal quoted
  obtain ⟨blank, blanks, read⟩ := readColon_colon between
  refine ⟨body, blank, rfl, blanks, fun rest => ?_⟩
  rw [skipKey, skipped]
  exact read rest

theorem begins_of_wellFormed (formed : WellFormed v) : Begins v := by
  have scalar : (∃ b tail, v = b :: tail ∧ Scalar b tail) → Begins v := by
    rintro ⟨b, tail, rfl, solid, ⟨-, inside, -⟩, -⟩
    exact ⟨b, tail, rfl, solid, inside⟩
  cases formed with
  | word known => exact scalar (scalar_of_word known)
  | literal quoted => exact scalar (scalar_of_literal quoted)
  | numeral number => exact scalar (scalar_of_numeral number)
  | list => exact ⟨91, _, rfl, by decide, by decide⟩
  | object => exact ⟨123, _, rfl, by decide, by decide⟩

theorem ends_of_items (items : Items false tail) (rest : Bytes) : Ends (tail ++ rest) := by
  cases items with
  | bracket blanks => exact ends_close blanks (.inl rfl) rest
  | item separates => exact ends_of_separates separates _ rest

theorem ends_of_members (members : Members false tail) (rest : Bytes) : Ends (tail ++ rest) := by
  cases members with
  | brace blanks => exact ends_close blanks (.inr rfl) rest
  | member separates => exact ends_of_separates separates _ rest

/-- A value is skipped in fewer steps than twice its octets, what is left of a frame in no more. -/
theorem skipFrom_value (formed : WellFormed v) :
    ∃ steps, steps < 2 * v.length ∧ ∀ fuel frames blank rest, Blank blank → Ends rest →
      skipFrom (fuel + steps) .before frames (blank ++ (v ++ rest)) =
        skipFrom fuel .after frames rest := by
  have scalar {v : Bytes} : (∃ b tail, v = b :: tail ∧ Scalar b tail) →
      ∃ steps, steps < 2 * v.length ∧ ∀ fuel frames blank rest, Blank blank → Ends rest →
        skipFrom (fuel + steps) .before frames (blank ++ (v ++ rest)) =
          skipFrom fuel .after frames rest := by
    rintro ⟨b, tail, rfl, scalar⟩
    refine ⟨1, by rw [List.length_cons]; omega, fun fuel frames blank rest blanks ends => ?_⟩
    exact skipFrom_scalar scalar fuel frames blanks ends
  induction formed using WellFormed.rec
    (motive_2 := fun first tail _ => ∃ steps, steps ≤ 2 * tail.length ∧ ∀ fuel frames rest,
      skipFrom (fuel + steps) (.inside first) (.list :: frames) (tail ++ rest) =
        skipFrom fuel .after frames rest)
    (motive_3 := fun first tail _ => ∃ steps, steps ≤ 2 * tail.length ∧ ∀ fuel frames rest,
      skipFrom (fuel + steps) (.inside first) (.object :: frames) (tail ++ rest) =
        skipFrom fuel .after frames rest) with
  | word known => exact scalar (scalar_of_word known)
  | literal quoted => exact scalar (scalar_of_literal quoted)
  | numeral number => exact scalar (scalar_of_numeral number)
  | @list tail items ih =>
      obtain ⟨steps, bound, run⟩ := ih
      refine ⟨steps + 1, by rw [List.length_cons]; omega, fun fuel frames blank rest blanks _ => ?_⟩
      rw [← Nat.add_assoc, List.cons_append, (skipFrom_opened _ frames blanks _).1]
      exact run fuel frames rest
  | @object tail members ih =>
      obtain ⟨steps, bound, run⟩ := ih
      refine ⟨steps + 1, by rw [List.length_cons]; omega, fun fuel frames blank rest blanks _ => ?_⟩
      rw [← Nat.add_assoc, List.cons_append, (skipFrom_opened _ frames blanks _).2]
      exact run fuel frames rest
  | @bracket first blank blanks =>
      refine ⟨1, by rw [List.length_append, List.length_singleton]; omega,
        fun fuel frames rest => ?_⟩
      exact skipFrom_list fuel first frames (nextItem_close blanks first rest)
  | @item first before value tail separates formed more ih ih' =>
      obtain ⟨steps, bound, run⟩ := ih
      obtain ⟨steps', bound', run'⟩ := ih'
      refine ⟨steps' + steps + 1, by rw [List.length_append, List.length_append]; omega,
        fun fuel frames rest => ?_⟩
      have next := nextItem_item separates (begins_of_wellFormed formed) (tail ++ rest)
      rw [← Nat.add_assoc, ← Nat.add_assoc, List.append_assoc, List.append_assoc,
        skipFrom_list _ first frames next]
      exact (run _ (.list :: frames) [] _ blank_nil (ends_of_items more rest)).trans
        (run' fuel frames rest)
  | @brace first blank blanks =>
      refine ⟨1, by rw [List.length_append, List.length_singleton]; omega,
        fun fuel frames rest => ?_⟩
      exact skipFrom_object_close fuel first frames (nextMember_close blanks first rest)
  | @member first before key colon value tail separates quoted between formed more ih ih' =>
      obtain ⟨steps, bound, run⟩ := ih
      obtain ⟨steps', bound', run'⟩ := ih'
      obtain ⟨body, blank, rfl, blanks, skipped⟩ := skipKey_of_literal quoted between
      refine ⟨steps' + steps + 1, by simp only [List.length_append]; omega,
        fun fuel frames rest => ?_⟩
      have next := nextMember_member separates (body ++ (colon ++ (value ++ (tail ++ rest))))
      have whole : before ++ (34 :: body ++ (colon ++ (value ++ tail))) ++ rest =
          before ++ 34 :: (body ++ (colon ++ (value ++ (tail ++ rest)))) := by
        simp only [List.append_assoc, List.cons_append]
      rw [← Nat.add_assoc, ← Nat.add_assoc, whole,
        skipFrom_object_member _ first frames next (skipped _)]
      exact (run _ (.object :: frames) blank _ blanks (ends_of_members more rest)).trans
        (run' fuel frames rest)

end

theorem skipValue_of_wellFormed {v blank rest : Bytes} (formed : WellFormed v)
    (blanks : Blank blank) (ends : Ends rest) : skipValue (blank ++ (v ++ rest)) = .ok rest := by
  obtain ⟨steps, bound, run⟩ := skipFrom_value formed
  have enough : steps + 1 ≤ 2 * (blank ++ (v ++ rest)).length + 2 := by
    simp only [List.length_append]
    omega
  obtain ⟨left, spare⟩ := Nat.exists_eq_add_of_le' enough
  have fuel : 2 * (blank ++ (v ++ rest)).length + 2 = left + 1 + steps := by omega
  rw [skipValue, fuel, run (left + 1) [] blank rest blanks ends]
  rfl

end CachingProxy.Json
