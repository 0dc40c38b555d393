import CachingProxy.Json.Reader
import CachingProxy.Proofs.Cache.Entries
import CachingProxy.Proofs.Histories
import CachingProxy.Proofs.Json.Numerals
import CachingProxy.Proofs.Json.Printing
import CachingProxy.Proofs.Json.Texts
import Mathlib.Data.List.Sort

/-!
# The grammar of values

Which value a document stands for, octet by octet and without a reader.  An object has one member
for each of its keys: the one that is given last.  How deep lists and objects are nested is counted,
and which literals and numerals belong to the grammar is left to a dialect.
-/

set_option autoImplicit false

namespace CachingProxy.Json

/-! ## The members of an object -/

/-- The value that a key is given last. -/
def Latest (given : List (String × Value)) (key : String) (value : Value) : Prop :=
  ∃ before after, given = before ++ (key, value) :: after ∧ key ∉ after.map Prod.fst

/-- The members of an object as they are given, and as they are listed: in the order of their keys,
each key with the value that it is given last. -/
structure Listing (given members : List (String × Value)) : Prop where
  ordered : members.Pairwise fun earlier later => earlier.1 < later.1
  latest : ∀ key value, (key, value) ∈ members ↔ Latest given key value

theorem latest_concat (given : List (String × Value)) (entry : String × Value) (key : String)
    (value : Value) :
    Latest (given ++ [entry]) key value ↔
      if entry.1 = key then entry.2 = value else Latest given key value := by
  constructor
  · rintro ⟨before, after, cut, free⟩
    rcases split_concat cut with ⟨-, same, -⟩ | ⟨shorter, rfl, rfl⟩
    · rw [← same, if_pos rfl]
    · rw [List.map_append, List.mem_append, not_or] at free
      have other : entry.1 ≠ key := by
        rintro rfl
        exact free.2 (List.mem_singleton_self _)
      rw [if_neg other]
      exact ⟨before, shorter, rfl, free.1⟩
  · intro last
    split at last
    · rename_i here
      exact ⟨given, [], by rw [← here, ← last], List.not_mem_nil⟩
    · rename_i other
      obtain ⟨before, after, rfl, free⟩ := last
      refine ⟨before, after ++ [entry], by simp, ?_⟩
      rw [List.map_append, List.mem_append, not_or]
      exact ⟨free, by simpa using Ne.symm other⟩

theorem get?_ofEntries (given : List (String × Value)) (key : String) (value : Value) :
    Keyed.get? (Keyed.ofEntries given) key = some value ↔ Latest given key value := by
  induction given using List.reverseRecOn with
  | nil =>
      refine iff_of_false (by rintro ⟨⟩) ?_
      rintro ⟨before, after, cut, -⟩
      simp at cut
  | append_singleton given entry ih =>
      rw [Keyed.ofEntries_concat, Keyed.get?_put, latest_concat, ← ih]
      by_cases here : entry.1 = key <;> simp [here]

theorem listing_sorted (given : List (String × Value)) :
    Listing given (Keyed.ofEntries given).sorted := by
  have nodup := Keyed.nodup_ofEntries given
  have perm : List.Perm (Keyed.ofEntries given).sorted (Keyed.ofEntries given) :=
    List.mergeSort_perm _ _
  constructor
  · have ascending : (Keyed.ofEntries given).sorted.Pairwise
        fun x y => decide (x.1 ≤ y.1) = true := by
      refine List.pairwise_mergeSort (fun x y z => ?_) (fun x y => ?_) _
      · simpa using String.le_trans
      · simpa using String.le_total x.1 y.1
    have distinct : (Keyed.ofEntries given).sorted.Pairwise fun x y => x.1 ≠ y.1 :=
      List.pairwise_map.mp ((perm.map Prod.fst).nodup_iff.mpr nodup)
    refine (ascending.and distinct).imp fun {x y} apart => ?_
    obtain ⟨below, other⟩ := apart
    refine Decidable.byContradiction fun above => other (String.le_antisymm ?_ ?_)
    · simpa using below
    · exact String.not_lt.mp above
  · intro key value
    rw [perm.mem_iff, Keyed.mem_iff_get? nodup, get?_ofEntries]

theorem Listing.unique {given members others : List (String × Value)}
    (listing : Listing given members) (listing' : Listing given others) : members = others := by
  have irrefl : Std.Irrefl fun x y : String × Value => x.1 < y.1 := ⟨fun x => String.lt_irrefl x.1⟩
  have antisymm : Std.Antisymm fun x y : String × Value => x.1 < y.1 :=
    ⟨fun x y below above => absurd (String.lt_trans below above) (String.lt_irrefl x.1)⟩
  refine listing.ordered.eq_of_mem_iff listing'.ordered fun entry => ?_
  rw [listing.latest, listing'.latest]

theorem listing_self {given : List (String × Value)}
    (ordered : given.Pairwise fun earlier later => earlier.1 < later.1) : Listing given given := by
  refine ⟨ordered, fun key value => ⟨fun member => ?_, ?_⟩⟩
  · obtain ⟨before, after, rfl⟩ := List.append_of_mem member
    refine ⟨before, after, rfl, fun again => ?_⟩
    obtain ⟨entry, later, rfl⟩ := List.mem_map.mp again
    have below := (List.pairwise_cons.mp (List.pairwise_append.mp ordered).2.1).1 entry later
    exact String.lt_irrefl _ below
  · rintro ⟨before, after, rfl, -⟩
    exact List.mem_append_right before List.mem_cons_self

/-! ## Values -/

/-- Which forms are texts, and which are numerals. -/
structure Dialect where
  text : String → Bytes → Prop
  numeral : Bytes → Prop

/-- An escaped surrogate has its partner, and no numeral lies beyond the largest finite double. -/
def Dialect.bounded : Dialect where
  text := WritesText
  numeral bytes := ∃ number, Numeral.WritesNumeral number bytes ∧ number.isOutOfRange = false

/-- Every literal is a text, the one that it denotes if it denotes one, and numerals have any
size. -/
def Dialect.full : Dialect where
  text text bytes := Literal bytes ∧ ∀ other, WritesText other bytes → text = other
  numeral := IsNumeral

theorem Dialect.full_text {text : String} {bytes : Bytes} (written : WritesText text bytes) :
    Dialect.full.text text bytes :=
  ⟨literal_of_writesText written, fun _ written' => written.unique written'⟩

mutual

/-- The forms of a value whose lists and objects are nested no deeper than `depth`. -/
inductive WritesValue (dialect : Dialect) : Nat → Value → Bytes → Prop where
  | null {depth : Nat} : WritesValue dialect depth .null (Bytes.ofText "null")
  | bool {depth : Nat} {value : Bool} {bytes : Bytes} (written : WritesBool value bytes) :
      WritesValue dialect depth (.bool value) bytes
  | number {depth : Nat} {digits : String} (numeral : dialect.numeral (Bytes.ofText digits)) :
      WritesValue dialect depth (.number digits) (Bytes.ofText digits)
  | text {depth : Nat} {value : String} {bytes : Bytes} (written : dialect.text value bytes) :
      WritesValue dialect depth (.text value) bytes
  | list {depth : Nat} {items : List Value} {tail : Bytes}
      (written : WritesElements dialect depth true items tail) :
      WritesValue dialect (depth + 1) (.list items) (91 :: tail)
  | object {depth : Nat} {given members : List (String × Value)} {tail : Bytes}
      (written : WritesMembers dialect depth true given tail) (listed : Listing given members) :
      WritesValue dialect (depth + 1) (.object members) (123 :: tail)

inductive WritesElements (dialect : Dialect) : Nat → Bool → List Value → Bytes → Prop where
  | bracket {depth : Nat} {first : Bool} {blank : Bytes} (blanks : Blank blank) :
      WritesElements dialect depth first [] (blank ++ [93])
  | item {depth : Nat} {first : Bool} {before bytes tail : Bytes} {item : Value}
      {items : List Value} (separates : Separates first before)
      (form : WritesValue dialect depth item bytes)
      (more : WritesElements dialect depth false items tail) :
      WritesElements dialect depth first (item :: items) (before ++ (bytes ++ tail))

inductive WritesMembers (dialect : Dialect) :
    Nat → Bool → List (String × Value) → Bytes → Prop where
  | brace {depth : Nat} {first : Bool} {blank : Bytes} (blanks : Blank blank) :
      WritesMembers dialect depth first [] (blank ++ [125])
  | member {depth : Nat} {first : Bool} {before name colon bytes tail : Bytes} {key : String}
      {value : Value} {given : List (String × Value)} (separates : Separates first before)
      (named : dialect.text key name) (between : Colon colon)
      (form : WritesValue dialect depth value bytes)
      (more : WritesMembers dialect depth false given tail) :
      WritesMembers dialect depth first ((key, value) :: given)
        (before ++ (name ++ (colon ++ (bytes ++ tail))))

end

def WritesDocument (dialect : Dialect) (depth : Nat) (value : Value) (bytes : Bytes) : Prop :=
  ∃ before form after, Blank before ∧ WritesValue dialect depth value form ∧ Blank after ∧
    bytes = before ++ (form ++ after)

/-! ## Objects as texts -/

def objectText (parts : List (String × String)) : String :=
  "\x7b" ++ String.intercalate "," (parts.map fun part => printText part.1 ++ ":" ++ part.2) ++
    "\x7d"

theorem ofText_braces (inner : String) :
    Bytes.ofText ("\x7b" ++ inner ++ "\x7d") = 123 :: (Bytes.ofText inner ++ [125]) := by
  rw [ofText_append, ofText_append, List.append_assoc]
  rfl

theorem ofText_objectText (parts : List (String × String)) :
    Bytes.ofText (objectText parts) =
      123 :: separated 125 true (parts.map fun part =>
        Bytes.ofText (printText part.1 ++ ":" ++ part.2)) := by
  rw [objectText, ofText_braces, ofText_intercalate]
  simp only [List.map_map, Function.comp_def]

section

variable {dialect : Dialect} {depth : Nat}

theorem writesMembers_separated
    (texts : ∀ text bytes, WritesText text bytes → dialect.text text bytes)
    (parts : List (String × Value × String)) (first : Bool)
    (forms : ∀ part ∈ parts, WritesValue dialect depth part.2.1 (Bytes.ofText part.2.2)) :
    WritesMembers dialect depth first (parts.map fun part => (part.1, part.2.1))
      (separated 125 first (parts.map fun part =>
        Bytes.ofText (printText part.1 ++ ":" ++ part.2.2))) := by
  induction parts generalizing first with
  | nil => exact .brace blank_nil
  | cons part parts ih =>
      have colon : Colon (Bytes.ofText ":") := ⟨[], [], blank_nil, blank_nil, by decide⟩
      rw [List.map_cons, List.map_cons, separated, ofText_append, ofText_append, List.append_assoc,
        List.append_assoc]
      exact .member (separates_comma first) (texts _ _ (writesText_printText part.1)) colon
        (forms part List.mem_cons_self)
        (ih false fun other among => forms other (List.mem_cons_of_mem part among))

theorem writesValue_objectText
    (texts : ∀ text bytes, WritesText text bytes → dialect.text text bytes)
    (parts : List (String × Value × String)) {members : List (String × Value)}
    (forms : ∀ part ∈ parts, WritesValue dialect depth part.2.1 (Bytes.ofText part.2.2))
    (listed : Listing (parts.map fun part => (part.1, part.2.1)) members) :
    WritesValue dialect (depth + 1) (.object members)
      (Bytes.ofText (objectText (parts.map fun part => (part.1, part.2.2)))) := by
  have written := writesMembers_separated texts parts true forms
  rw [ofText_objectText]
  simp only [List.map_map, Function.comp_def]
  exact .object written listed

theorem writesValue_objectText_single
    (texts : ∀ text bytes, WritesText text bytes → dialect.text text bytes) (key : String)
    {value : Value} {text : String} (form : WritesValue dialect depth value (Bytes.ofText text)) :
    WritesValue dialect (depth + 1) (.object [(key, value)])
      (Bytes.ofText (objectText [(key, text)])) := by
  refine writesValue_objectText texts [(key, value, text)] (fun part among => ?_)
    (listing_self (List.pairwise_singleton _ _))
  rw [List.mem_singleton.mp among]
  exact form

end

end CachingProxy.Json
