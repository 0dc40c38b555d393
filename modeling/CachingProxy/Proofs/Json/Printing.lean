import CachingProxy.Json.Value
import CachingProxy.Proofs.Json.Grammar
import Mathlib.Data.List.Basic

/-!
# Printed values

What the printer gives for a text, a list or an object is one of the forms of the grammar.
-/

set_option autoImplicit false

namespace CachingProxy.Json

theorem ofText_append (s t : String) :
    Bytes.ofText (s ++ t) = Bytes.ofText s ++ Bytes.ofText t := by
  rw [Bytes.ofText, String.toList_append, List.flatMap_append]
  rfl

/-! ## Texts -/

theorem hexByte?_digit : ∀ d < 16, hexByte? (UInt8.ofNat (Hex.digit d).toNat) = some d ∧
    String.utf8EncodeChar (Hex.digit d) = [UInt8.ofNat (Hex.digit d).toNat] := by
  decide

theorem writesChar_unit {c : Char} (control : c.toNat < 32) :
    WritesChar c ((['\\', 'u', '0', '0', Hex.digit (c.toNat / 16), Hex.digit (c.toNat % 16)] :
      List Char).flatMap String.utf8EncodeChar) := by
  obtain ⟨third, encoded⟩ := hexByte?_digit (c.toNat / 16) (by omega)
  obtain ⟨fourth, encoded'⟩ := hexByte?_digit (c.toNat % 16) (by omega)
  have zero : hexByte? 48 = some 0 := by decide
  have scalar : isHighSurrogate c.toNat = false ∧ isLowSurrogate c.toNat = false := by
    simp only [isHighSurrogate, isLowSurrogate, Bool.and_eq_false_iff, decide_eq_false_iff_not]
    omega
  have number : ((0 * 16 + 0) * 16 + c.toNat / 16) * 16 + c.toNat % 16 = c.toNat := by omega
  have unit := CodeUnit.digits zero zero third fourth
  rw [number] at unit
  have form := WritesChar.unit unit scalar
  rw [Char.ofNat_toNat] at form
  simp only [List.flatMap_cons, List.flatMap_nil, encoded, encoded']
  exact form

theorem writesChar_escapeChar (c : Char) :
    WritesChar c ((escapeChar c).flatMap String.utf8EncodeChar) := by
  have short (escape : UInt8 × UInt8) (known : escape ∈ escapes)
      (is : c.toNat = escape.2.toNat) : WritesChar c [92, escape.1] := by
    rw [← Char.ofNat_toNat c, is]
    exact .short known
  rw [escapeChar]
  split
  · rename_i is
    exact short (34, 34) (by decide) (by rw [is]; rfl)
  split
  · rename_i is
    exact short (92, 92) (by decide) (by rw [is]; rfl)
  split
  · rename_i is
    exact short (110, 10) (by decide) (by rw [is]; rfl)
  split
  · rename_i is
    exact short (114, 13) (by decide) (by rw [is]; rfl)
  split
  · rename_i is
    exact short (116, 9) (by decide) (by rw [is]; rfl)
  split
  · rename_i is
    exact short (98, 8) (by decide) is
  split
  · rename_i is
    exact short (102, 12) (by decide) is
  split
  · rename_i control
    exact writesChar_unit control
  · rename_i quote slash _ _ _ _ _ visible
    rw [List.flatMap_cons, List.flatMap_nil, List.append_nil]
    exact .plain ⟨Nat.not_lt.mp visible, quote, slash⟩

theorem writesChars_escape (cs : List Char) :
    WritesChars cs ((cs.flatMap escapeChar).flatMap String.utf8EncodeChar) := by
  induction cs with
  | nil => exact .nil
  | cons c cs ih =>
      rw [List.flatMap_cons, List.flatMap_append]
      exact .cons (writesChar_escapeChar c) ih

theorem writesText_printText (text : String) : WritesText text (Bytes.ofText (printText text)) := by
  refine ⟨_, writesChars_escape text.toList, ?_⟩
  have quote : Bytes.ofText "\"" = [34] := by decide
  rw [printText, ofText_append, ofText_append, quote, List.append_assoc, Bytes.ofText,
    String.toList_ofList]
  rfl

/-! ## Scalars -/

@[simp]
theorem writesText_print (text : String) : WritesText text (Bytes.ofText (print (.text text))) := by
  rw [print]
  exact writesText_printText text

@[simp]
theorem writesNat_print (n : Nat) : WritesNat n (Bytes.ofText (print (.nat n))) := by
  rw [Value.nat, print]
  rfl

@[simp]
theorem writesBool_print (value : Bool) :
    WritesBool value (Bytes.ofText (print (.bool value))) := by
  cases value <;> rw [print] <;> rfl

/-! ## Lists and objects -/

/-- Parts behind each other with the closing octet: a comma stands before each but the first. -/
def separated (close : UInt8) : Bool → List Bytes → Bytes
  | _, [] => [close]
  | first, bytes :: more =>
      (if first then [] else [44]) ++ (bytes ++ separated close false more)

theorem ofText_intercalate (close : UInt8) (texts : List String) :
    Bytes.ofText (String.intercalate "," texts) ++ [close] =
      separated close true (texts.map Bytes.ofText) := by
  cases texts with
  | nil => rfl
  | cons text texts =>
      induction texts generalizing text with
      | nil => simp [separated]
      | cons next texts ih =>
          rw [String.intercalate_cons_cons, ofText_append, ofText_append, List.append_assoc, ih]
          simp [separated]
          rfl

theorem printItems_eq (items : List Value) :
    printItems items = String.intercalate "," (items.map print) := by
  cases items with
  | nil => rfl
  | cons item items =>
      induction items generalizing item with
      | nil => simp [printItems]
      | cons next items ih =>
          rw [List.map_cons, List.map_cons, String.intercalate_cons_cons, ← List.map_cons, ← ih]
          rw [printItems]
          simp

def printMember (part : String × Value) : String := printText part.1 ++ ":" ++ print part.2

theorem printMembers_eq (members : List (String × Value)) :
    printMembers members = String.intercalate "," (members.map printMember) := by
  cases members with
  | nil => rfl
  | cons part members =>
      induction members generalizing part with
      | nil => simp [printMembers, printMember]
      | cons next members ih =>
          rw [List.map_cons, List.map_cons, String.intercalate_cons_cons, ← List.map_cons, ← ih]
          rw [printMembers]
          · rfl
          · simp

theorem separates_comma (first : Bool) : Separates first (if first then [] else [44]) := by
  cases first with
  | true => exact blank_nil
  | false => exact ⟨[], [], blank_nil, blank_nil, rfl⟩

theorem writesList_print {α : Type} {written : α → Bytes → Prop} {value : α → Value}
    (form : ∀ x, written x (Bytes.ofText (print (value x)))) (xs : List α) :
    WritesList written xs (Bytes.ofText (print (.list (xs.map value)))) := by
  have items (first : Bool) : WritesItems written first xs
      (separated 93 first (((xs.map value).map print).map Bytes.ofText)) := by
    induction xs generalizing first with
    | nil => exact .bracket blank_nil
    | cons x xs ih => exact .item (separates_comma first) (form x) (ih false)
  refine ⟨_, items true, ?_⟩
  have brackets : Bytes.ofText "[" = [91] ∧ Bytes.ofText "]" = [93] := by decide
  rw [print, ofText_append, ofText_append, brackets.1, brackets.2, List.append_assoc, printItems_eq,
    ofText_intercalate]
  rfl

def Gives (fields : List FieldForm) (members : List (String × Value)) : Prop :=
  List.Forall₂ (fun field part => field.name = part.1 ∧
    field.written (Bytes.ofText (print part.2))) fields members

/-- A printed object that gives all fields has the form of the record. -/
theorem writesRecord_print {foreign : Bytes → Prop} {fields : List FieldForm}
    {members : List (String × Value)} (gives : Gives fields members)
    (distinct : (fields.map FieldForm.name).Nodup) :
    WritesRecord foreign fields (Bytes.ofText (print (.object members))) := by
  have written (first : Bool) {some : List FieldForm} {parts : List (String × Value)}
      (gives : Gives some parts) (distinct : (some.map FieldForm.name).Nodup)
      (within : ∀ field ∈ some, field ∈ fields) :
      WritesFields foreign fields first (some.map FieldForm.name)
        (separated 125 first ((parts.map printMember).map Bytes.ofText)) := by
    induction gives generalizing first with
    | nil => exact .brace blank_nil
    | @cons field part some parts is _ ih =>
        rw [List.map_cons, List.nodup_cons] at distinct
        have more := ih false distinct.2 fun other listed =>
          within other (List.mem_cons_of_mem _ listed)
        have colon : Colon (Bytes.ofText ":") :=
          ⟨[], [], blank_nil, blank_nil, by decide⟩
        have shape : separated 125 first (((part :: parts).map printMember).map Bytes.ofText) =
            (if first then [] else [44]) ++ (Bytes.ofText (printText part.1) ++
              (Bytes.ofText ":" ++ (Bytes.ofText (print part.2) ++
                separated 125 false ((parts.map printMember).map Bytes.ofText)))) := by
          rw [List.map_cons, List.map_cons, separated, printMember, ofText_append, ofText_append,
            List.append_assoc, List.append_assoc]
        rw [shape]
        exact .known (separates_comma first) (within field List.mem_cons_self) distinct.1
          (is.1 ▸ writesText_printText part.1) colon is.2 more
  refine ⟨_, _, written true gives distinct fun field listed => listed,
    fun field listed missing => absurd (List.mem_map_of_mem listed) missing, ?_⟩
  have braces : Bytes.ofText "\x7b" = [123] ∧ Bytes.ofText "\x7d" = [125] := by decide
  rw [print, ofText_append, ofText_append, braces.1, braces.2, List.append_assoc, printMembers_eq,
    ofText_intercalate]
  rfl

end CachingProxy.Json
