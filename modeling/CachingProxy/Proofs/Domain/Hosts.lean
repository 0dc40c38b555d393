import CachingProxy.Domain.Authority
import CachingProxy.Proofs.Domain.Canonical
import Mathlib.Data.List.DropRight
import Mathlib.Data.List.TakeWhile

/-!
# The domain of a host text

A domain that was read from a request consists of characters that a field may carry, so it survives
being written to a field and read again (`Bytes.asText?_ofText`).  Read as a host once more it names
itself, unless it looks like a host with a port or ends in blanks (`Domain.ofHost?_self_iff`).
-/

set_option autoImplicit false

namespace CachingProxy

namespace Text

/-- A visible character of ASCII, a blank or a tab. -/
def isPlain (c : Char) : Bool := c.toNat == 9 || (32 ≤ c.toNat && c.toNat < 127)

def Plain (cs : List Char) : Prop := ∀ c ∈ cs, isPlain c = true

theorem isPlain_iff (c : Char) :
    isPlain c = true ↔ c.toNat = 9 ∨ 32 ≤ c.toNat ∧ c.toNat < 127 := by
  simp [isPlain]

theorem Plain.sublist {cs part : List Char} (plain : Plain cs) (within : part.Sublist cs) :
    Plain part := fun c member => plain c (within.mem member)

theorem isPlain_lowerChar {c : Char} (plain : isPlain c = true) :
    isPlain (lowerChar c) = true := by
  by_cases upper : 'A' ≤ c ∧ c ≤ 'Z'
  · have shifted := toNat_lowerChar upper
    have large : 65 ≤ c.toNat := upper.1
    have small : c.toNat ≤ 90 := upper.2
    rw [isPlain_iff]
    omega
  · rwa [lowerChar, if_neg upper]

theorem Plain.lower {cs : List Char} (plain : Plain cs) : Plain (lower cs) := by
  intro c member
  obtain ⟨d, within, rfl⟩ := List.mem_map.mp member
  exact isPlain_lowerChar (plain d within)

theorem length_lower (cs : List Char) : (lower cs).length = cs.length := List.length_map _

theorem trimEndBy_sublist {α : Type} (p : α → Bool) (xs : List α) :
    (trimEndBy p xs).Sublist xs := (List.rdropWhile_prefix p xs).sublist

theorem trimEndBy_trimEndBy {α : Type} (p : α → Bool) (xs : List α) :
    trimEndBy p (trimEndBy p xs) = trimEndBy p xs := List.rdropWhile_idempotent p xs

theorem trim_sublist (cs : List Char) : (trim cs).Sublist cs :=
  (trimEndBy_sublist isBlank _).trans (List.dropWhile_sublist isBlank)

theorem trim_eq_self_iff {cs : List Char} :
    trim cs = cs ↔
      (∀ c ∈ cs.head?, isBlank c = false) ∧ ∀ c ∈ cs.getLast?, isBlank c = false := by
  have front : cs.dropWhile isBlank = cs ↔ ∀ c ∈ cs.head?, isBlank c = false := by
    cases cs <;> simp [List.dropWhile_eq_self_iff]
  have back : cs.rdropWhile isBlank = cs ↔ ∀ c ∈ cs.getLast?, isBlank c = false := by
    rcases List.eq_nil_or_concat' cs with rfl | ⟨before, c, rfl⟩ <;>
      simp [List.rdropWhile_eq_self_iff]
  rw [trim, trimBy_eq, ← front, ← back]
  constructor
  · intro whole
    -- Nothing is left out at the front, as what is left at the back is all of the text.
    have first : cs.dropWhile isBlank = cs := by
      refine (List.dropWhile_sublist isBlank).eq_of_length_le ?_
      have shorter := (List.rdropWhile_prefix isBlank (cs.dropWhile isBlank)).length_le
      rwa [whole] at shorter
    rw [first] at whole
    exact ⟨first, whole⟩
  · rintro ⟨first, last⟩
    rw [first, last]

theorem trim_of_solid {cs : List Char} (solid : ∀ c ∈ cs, isBlank c = false) : trim cs = cs :=
  trim_eq_self_iff.mpr ⟨fun c first => solid c (List.mem_of_head? first),
    fun c last => solid c (List.mem_of_getLast? last)⟩

theorem lowerChar_beq (c : Char) {d : Char} (other : isLetter d = false) :
    (lowerChar c == d) = (c == d) := by
  by_cases upper : 'A' ≤ c ∧ c ≤ 'Z'
  · have shifted := toNat_lowerChar upper
    have large : 65 ≤ c.toNat := upper.1
    have small : c.toNat ≤ 90 := upper.2
    have apart {letter : Char} (within : 65 ≤ letter.toNat ∧ letter.toNat ≤ 90 ∨
        97 ≤ letter.toNat ∧ letter.toNat ≤ 122) : letter ≠ d := by
      rintro rfl
      have letter : isLetter letter = true := by
        rw [isLetter, Bool.or_eq_true, Bool.and_eq_true, Bool.and_eq_true, decide_eq_true_eq,
          decide_eq_true_eq, decide_eq_true_eq, decide_eq_true_eq]
        exact within.symm
      rw [other] at letter
      cases letter
    rw [beq_eq_false_iff_ne.mpr (apart (.inl ⟨large, small⟩)),
      beq_eq_false_iff_ne.mpr (apart (.inr ⟨by omega, by omega⟩))]
  · rw [lowerChar, if_neg upper]

theorem eq_of_lowerChar {c d : Char} (folded : lowerChar c = d) (other : isLetter d = false) :
    c = d := by
  rw [← beq_iff_eq, ← lowerChar_beq c other, folded, beq_self_eq_true]

theorem trimEndBy_dot_lower (cs : List Char) :
    trimEndBy (fun c => c == '.') (lower cs) = lower (trimEndBy (fun c => c == '.') cs) := by
  have kept : (fun c => c == '.') ∘ lowerChar = fun c => c == '.' :=
    funext fun c => lowerChar_beq c rfl
  simp only [trimEndBy, lower, ← List.map_reverse, List.dropWhile_map, kept]

/-! ## Characters as octets -/

theorem toNat_octet {c : Char} (plain : isPlain c = true) :
    (UInt8.ofNat c.toNat).toNat = c.toNat := by
  rw [isPlain_iff] at plain
  rw [UInt8.toNat_ofNat', Nat.mod_eq_of_lt]
  omega

theorem utf8EncodeChar_of_plain {c : Char} (plain : isPlain c = true) :
    String.utf8EncodeChar c = [UInt8.ofNat c.toNat] := by
  rw [isPlain_iff] at plain
  have small : c.val ≤ 127 := by
    rw [UInt32.le_iff_toNat_le]
    exact (show c.toNat ≤ 127 by omega)
  exact String.utf8EncodeChar_eq_singleton (if_pos small)

theorem isTextByte_iff (b : UInt8) :
    Bytes.isTextByte b = true ↔ b.toNat = 9 ∨ 32 ≤ b.toNat ∧ b.toNat < 127 := by
  rw [Bytes.isTextByte, Bool.or_eq_true, beq_iff_eq, Bool.and_eq_true, decide_eq_true_eq,
    decide_eq_true_eq, ← UInt8.toNat_inj, UInt8.le_iff_toNat_le, UInt8.lt_iff_toNat_lt]
  rfl

theorem isTextByte_octet {c : Char} (plain : isPlain c = true) :
    Bytes.isTextByte (UInt8.ofNat c.toNat) = true := by
  rw [isTextByte_iff, toNat_octet plain]
  exact (isPlain_iff c).mp plain

theorem isPlain_ofNat {b : UInt8} (visible : Bytes.isTextByte b = true) :
    isPlain (Char.ofNat b.toNat) = true := by
  rw [isTextByte_iff] at visible
  have valid : b.toNat.isValidChar := .inl (by omega)
  rw [isPlain_iff, Char.ofNat, dif_pos valid]
  exact visible

end Text

namespace Bytes

open Text

theorem plain_of_asText? {value : Bytes} {text : String} (read : asText? value = some text) :
    Plain text.toList := by
  rw [asText?] at read
  split at read
  · rename_i visible
    rw [← Option.some.inj read, String.toList_ofList]
    intro c member
    obtain ⟨b, within, rfl⟩ := List.mem_map.mp member
    exact isPlain_ofNat (List.all_eq_true.mp visible b within)
  · cases read

theorem ofText_of_plain {text : String} (plain : Plain text.toList) :
    ofText text = text.toList.map fun c => UInt8.ofNat c.toNat := by
  rw [ofText, List.map_eq_flatMap, List.flatMap_def, List.flatMap_def]
  exact congrArg _ (List.map_congr_left fun c member => utf8EncodeChar_of_plain (plain c member))

theorem isTextByte_of_mem_ofText {text : String} (plain : Plain text.toList) {b : UInt8}
    (member : b ∈ ofText text) : isTextByte b = true := by
  rw [ofText_of_plain plain] at member
  obtain ⟨c, within, rfl⟩ := List.mem_map.mp member
  exact isTextByte_octet (plain c within)

/-- A plain text may be written to a field and read again. -/
theorem asText?_ofText {text : String} (plain : Plain text.toList) :
    asText? (ofText text) = some text := by
  have visible : (ofText text).all isTextByte = true :=
    List.all_eq_true.mpr fun _ member => isTextByte_of_mem_ofText plain member
  have back : (ofText text).map (fun b => Char.ofNat b.toNat) = text.toList := by
    rw [ofText_of_plain plain, List.map_map]
    refine (List.map_congr_left fun c member => ?_).trans (List.map_id _)
    rw [Function.comp_apply, toNat_octet (plain c member), Char.ofNat_toNat]
    rfl
  rw [asText?, if_pos visible, back, String.ofList_toList]

theorem isValue_ofText {text : String} (plain : Plain text.toList) :
    Http.isValue (ofText text) = true := by
  rw [Http.isValue, List.all_eq_true]
  intro b member
  have visible := (isTextByte_iff b).mp (isTextByte_of_mem_ofText plain member)
  have delete : (127 : UInt8).toNat = 127 := rfl
  rw [Http.isValueByte, Bool.or_eq_true, beq_iff_eq, Bool.and_eq_true, decide_eq_true_eq,
    bne_iff_ne, ← UInt8.toNat_inj, UInt8.le_iff_toNat_le, ne_eq, ← UInt8.toNat_inj]
  exact visible.imp_right fun bounds => ⟨bounds.1, by omega⟩

end Bytes

/-! ## The host of a target -/

namespace Uri

open Text

theorem isPlain_of_isAlnum {c : Char} (letter : isAlnum c = true) : isPlain c = true := by
  simp only [isAlnum, isDigit, isLetter, Bool.or_eq_true, Bool.and_eq_true,
    decide_eq_true_eq] at letter
  rw [isPlain_iff]
  right
  rcases letter with ⟨least, most⟩ | ⟨least, most⟩ | ⟨least, most⟩ <;>
    exact ⟨Nat.le_trans (by decide) least, Nat.lt_of_le_of_lt most (by decide)⟩

theorem isPlain_of_isAuthorityChar {c : Char} (allowed : isAuthorityChar c = true) :
    isPlain c = true := by
  rw [isAuthorityChar, Bool.or_eq_true] at allowed
  rcases allowed with letter | sign
  · exact isPlain_of_isAlnum letter
  · have all : "!$&'()*+,-.:;=@[]_~".toList.all isPlain = true := by rfl
    exact List.all_eq_true.mp all c (List.contains_iff_mem.mp sign)

theorem isPlain_of_scanned {scan next : Scan} {c : Char} (scanned : scan.step c = some next) :
    isPlain c = true := by
  by_cases sign : c = ':' ∨ c = '[' ∨ c = ']' ∨ c = '@' ∨ c = '%'
  · rcases sign with rfl | rfl | rfl | rfl | rfl <;> rfl
  · simp only [not_or] at sign
    obtain ⟨colon, opening, closing, atSign, percent⟩ := sign
    simp only [Scan.step, if_neg colon, if_neg opening, if_neg closing, if_neg atSign,
      if_neg percent] at scanned
    split at scanned
    · rename_i allowed
      exact isPlain_of_isAuthorityChar allowed
    · cases scanned

theorem isBlank_of_scanned {scan next : Scan} {c : Char} (scanned : scan.step c = some next) :
    isBlank c = false := by
  rw [Bool.eq_false_iff]
  intro blank
  have plain := (isPlain_iff c).mp (isPlain_of_scanned scanned)
  simp only [isBlank, Bool.or_eq_true, Bool.and_eq_true, beq_iff_eq, decide_eq_true_eq] at blank
  have bare : c = '\t' ∨ c = ' ' := by
    rw [← Char.toNat_inj, ← Char.toNat_inj]
    change c.toNat = 9 ∨ c.toNat = 32
    omega
  rcases bare with rfl | rfl <;> cases scanned

theorem forall_of_scan {p : Char → Prop}
    (each : ∀ (scan next : Scan) (c : Char), scan.step c = some next → p c) {scan final : Scan}
    {cs : List Char} (scanned : cs.foldlM Scan.step scan = some final) : ∀ c ∈ cs, p c := by
  induction cs generalizing scan with
  | nil => exact fun c member => absurd member List.not_mem_nil
  | cons c rest ih =>
      rw [List.foldlM_cons] at scanned
      obtain ⟨next, here, later⟩ := Option.bind_eq_some_iff.mp scanned
      exact List.forall_mem_cons.mpr ⟨each scan next c here, ih later⟩

theorem forall_of_isAuthority {p : Char → Prop}
    (each : ∀ (scan next : Scan) (c : Char), scan.step c = some next → p c) {cs : List Char}
    (authority : isAuthority cs = true) : ∀ c ∈ cs, p c := by
  rw [isAuthority] at authority
  split at authority
  · rename_i final scanned
    exact forall_of_scan each scanned
  · cases authority

theorem plain_of_isAuthority {cs : List Char} (authority : isAuthority cs = true) : Plain cs :=
  forall_of_isAuthority (fun _ _ _ step => isPlain_of_scanned step) authority

theorem plain_hostOf {authority : List Char} (plain : Plain authority) :
    Plain (hostOf authority) := by
  have bare : Plain (authority.reverse.takeWhile fun c => c != '@').reverse := by
    intro c member
    rw [List.mem_reverse] at member
    exact plain c (List.mem_reverse.mp ((List.takeWhile_sublist _).mem member))
  rw [hostOf]
  split
  · intro c member
    rw [List.mem_append, List.mem_singleton] at member
    rcases member with inside | rfl
    · exact bare c ((List.takeWhile_sublist _).mem inside)
    · rfl
  · exact bare.sublist (List.takeWhile_sublist _)

theorem host_of_readFull {cs : List Char} {uri : Uri} (read : readFull cs = some uri) :
    ∃ authority, isAuthority authority = true ∧
      uri.host? = some (String.ofList (hostOf authority)) := by
  rw [readFull] at read
  split at read
  · split at read
    · cases read
    · rename_i scheme more _ _
      simp only at read
      split at read
      · cases read
      · rename_i checked
        obtain ⟨pq, _, rfl⟩ := Option.map_eq_some_iff.mp read
        rw [Bool.or_eq_true, Bool.not_eq_true', not_or, Bool.not_eq_false] at checked
        refine ⟨(Text.cutAt endsAuthority more).1, checked.2, ?_⟩
        rw [host?, String.toList_ofList]
  · split at read
    · rename_i checked
      rw [Bool.and_eq_true] at checked
      refine ⟨cs, checked.2, ?_⟩
      rw [← Option.some.inj read, host?, String.toList_ofList]
    · cases read

/-- The host of a target that was read has plain characters only. -/
theorem plain_host {text host : String} {uri : Uri} (read : ofText? text = some uri)
    (named : uri.host? = some host) : Plain host.toList := by
  rw [ofText?] at read
  split at read
  · cases read
  · split at read
    · cases read
    · rw [← Option.some.inj read] at named
      cases named
    · obtain ⟨pq, _, rfl⟩ := Option.map_eq_some_iff.mp read
      cases named
    · obtain ⟨authority, allowed, host⟩ := host_of_readFull read
      rw [← Option.some.inj (host.symm.trans named), String.toList_ofList]
      exact plain_hostOf (plain_of_isAuthority allowed)

end Uri

/-! ## The domain of a host -/

namespace Domain

open Text

theorem begins_of_withoutPort? {host name : List Char} (ported : withoutPort? host = some name) :
    name <+: host := by
  rw [withoutPort?] at ported
  split at ported
  · rename_i cut
    split at ported
    · have front : (host.takeWhile fun c => !(c == ':')) = name :=
        (congrArg Prod.fst cut).trans (Option.some.inj ported)
      rw [← front]
      exact List.takeWhile_prefix _
    · cases ported
  · cases ported

theorem withoutPort?_of_bare {name : List Char} (bare : ':' ∉ name) : withoutPort? name = none := by
  have left : name.dropWhile (fun c => !(c == ':')) = [] := by
    rw [List.dropWhile_eq_nil_iff]
    intro c member
    rw [Bool.not_eq_true', beq_eq_false_iff_ne]
    rintro rfl
    exact bare member
  rw [withoutPort?, cutAt, left]

theorem stripPortChars_of_bracket {host rest : List Char} (opened : trim host = '[' :: rest) :
    stripPortChars host = rest.takeWhile fun c => c != ']' := by
  rw [stripPortChars, opened]
  rfl

theorem stripPortChars_of_bare {host : List Char} (bare : (trim host).head? ≠ some '[') :
    stripPortChars host = (withoutPort? (trim host)).getD (trim host) := by
  rw [stripPortChars]
  split
  · rename_i opened
    rw [opened] at bare
    exact absurd rfl bare
  · rfl

theorem stripPortChars_sublist (host : List Char) : (stripPortChars host).Sublist host := by
  refine List.Sublist.trans ?_ (trim_sublist host)
  by_cases bracket : (trim host).head? = some '['
  · obtain ⟨rest, opened⟩ := List.head?_eq_some_iff.mp bracket
    rw [stripPortChars_of_bracket opened, opened]
    exact (List.takeWhile_sublist _).trans (List.sublist_cons_self _ _)
  · rw [stripPortChars_of_bare bracket]
    cases ported : withoutPort? (trim host) with
    | none => exact List.Sublist.refl _
    | some name => exact (begins_of_withoutPort? ported).sublist

theorem ofHost?_eq_some_iff {host name : String} :
    ofHost? host = some name ↔ name.toList ≠ [] ∧
      lower (trimEndBy (fun c => c == '.') (stripPortChars host.toList)) = name.toList := by
  rw [ofHost?]
  split
  · rename_i nothing
    rw [nothing]
    constructor
    · intro named
      cases named
    · rintro ⟨some, empty⟩
      exact absurd empty.symm some
  · rename_i found nonempty
    rw [Option.some_inj]
    constructor
    · rintro rfl
      rw [String.toList_ofList]
      exact ⟨nonempty, rfl⟩
    · rintro ⟨-, same⟩
      rw [same, String.ofList_toList]

theorem plain_ofHost? {host name : String} (plain : Plain host.toList)
    (named : ofHost? host = some name) : Plain name.toList := by
  rw [← (ofHost?_eq_some_iff.mp named).2]
  exact ((plain.sublist (stripPortChars_sublist _)).sublist (trimEndBy_sublist _ _)).lower

theorem ofHost?_of_stripped {host name other : String} (named : ofHost? host = some name)
    (bare : stripPortChars other.toList = name.toList) : ofHost? other = some name := by
  obtain ⟨nonempty, form⟩ := ofHost?_eq_some_iff.mp named
  rw [ofHost?_eq_some_iff]
  refine ⟨nonempty, ?_⟩
  rw [bare, ← form, trimEndBy_dot_lower, lower_lower, trimEndBy_trimEndBy]

/-- The domain of a host is its own domain if it does not look like a host with a port. -/
theorem ofHost?_self_iff {host name : String} (named : ofHost? host = some name) :
    ofHost? name = some name ↔ stripPort name = name := by
  constructor
  · intro own
    have same := (ofHost?_eq_some_iff.mp own).2
    -- What is left has all characters of the name, so nothing was taken from it.
    have stripped := stripPortChars_sublist name.toList
    have trimmed := trimEndBy_sublist (fun c => c == '.') (stripPortChars name.toList)
    have whole := congrArg List.length same
    rw [length_lower] at whole
    rw [stripPort, stripped.eq_of_length_le (whole ▸ trimmed.length_le), String.ofList_toList]
  · intro bare
    have kept := congrArg String.toList bare
    rw [stripPort, String.toList_ofList] at kept
    exact ofHost?_of_stripped named kept

/-- The domain that the field `host` of a head stands for. -/
def named? (headers : Headers) : Option String := (headers.text? "host").bind ofHost?

theorem resolve_of_hostless {uri : Uri} (hostless : uri.host? = none) (headers : Headers) :
    resolve uri headers = named? headers := by
  rw [resolve, hostless]
  rfl

theorem plain_resolve {text domain : String} {uri : Uri} {headers : Headers}
    (read : Uri.ofText? text = some uri) (resolved : resolve uri headers = some domain) :
    Plain domain.toList ∧ ∃ host, ofHost? host = some domain := by
  rw [resolve] at resolved
  split at resolved
  · rename_i host named
    exact ⟨plain_ofHost? (Uri.plain_host read named) resolved, host, resolved⟩
  · obtain ⟨host, asked, named⟩ := Option.bind_eq_some_iff.mp resolved
    obtain ⟨value, _, decoded⟩ := Option.bind_eq_some_iff.mp asked
    exact ⟨plain_ofHost? (Bytes.plain_of_asText? decoded) named, host, named⟩

end Domain

end CachingProxy
