import CachingProxy.Http.Uri
import CachingProxy.Proofs.Text.Digits
import Mathlib.Data.List.TakeWhile

/-!
# Targets read again

What the reader leaves of a path and a query can be written and read again.  Written by themselves
they are a target in origin form, with one exception: in absolute form a query may stand directly
behind the authority (`isPathless`), and then what is written begins with its question mark.
-/

set_option autoImplicit false

namespace CachingProxy.Uri

open Text

/-! ## Path and query -/

/-- A path and a query of characters that the reader takes there. -/
structure Readable (path : String) (query : Option String) : Prop where
  pathChars : ∀ c ∈ path.toList, isPathChar c = true
  queryChars : ∀ text, query = some text → ∀ c ∈ text.toList, isQueryChar c = true

theorem not_mark_of_isPathChar {c : Char} (allowed : isPathChar c = true) :
    (!(c == '?' || c == '#')) = true := by
  rw [Bool.not_eq_true', Bool.or_eq_false_iff, beq_eq_false_iff_ne, beq_eq_false_iff_ne]
  constructor <;> rintro rfl <;> cases allowed

theorem not_hash_of_isQueryChar {c : Char} (allowed : isQueryChar c = true) :
    (!(c == '#')) = true := by
  rw [Bool.not_eq_true', beq_eq_false_iff_ne]
  rintro rfl
  cases allowed

theorem toList_withQuery_some (path query : String) :
    (withQuery path (some query)).toList = path.toList ++ '?' :: query.toList := by
  simp [withQuery]

theorem Readable.pathQuery?_eq {path : String} {query : Option String}
    (readable : Readable path query) :
    pathQuery? (withQuery path query).toList = some (path, query) := by
  have unmarked : ∀ c ∈ path.toList, (!(c == '?' || c == '#')) = true := fun c member =>
    not_mark_of_isPathChar (readable.pathChars c member)
  have allowed : path.toList.all isPathChar = true := List.all_eq_true.mpr readable.pathChars
  cases query with
  | none =>
      have taken := List.takeWhile_eq_self_iff.mpr unmarked
      have left := List.dropWhile_eq_nil_iff.mpr unmarked
      rw [withQuery, pathQuery?]
      simp only [cutAt, taken, left, allowed]
      simp
  | some text =>
      have whole : ∀ c ∈ text.toList, (!(c == '#')) = true := fun c member =>
        not_hash_of_isQueryChar (readable.queryChars text rfl c member)
      have asked : text.toList.all isQueryChar = true :=
        List.all_eq_true.mpr (readable.queryChars text rfl)
      have marked : ∀ c ∈ ('?' :: text.toList).head?, (!(c == '?' || c == '#')) = false := by simp
      obtain ⟨taken, left⟩ := run_append unmarked marked
      have queryTaken := List.takeWhile_eq_self_iff.mpr whole
      rw [toList_withQuery_some, pathQuery?]
      simp only [cutAt, taken, left, allowed, queryTaken, asked]
      simp

theorem readable_of_pathQuery? {cs : List Char} {path : String} {query : Option String}
    (read : pathQuery? cs = some (path, query)) :
    Readable path query ∧ (withQuery path query).toList <+: cs ∧
      path.toList = cs.takeWhile fun c => !(c == '?' || c == '#') := by
  have parts := List.takeWhile_append_dropWhile (p := fun c => !(c == '?' || c == '#')) (l := cs)
  rw [pathQuery?, cutAt] at read
  dsimp only at read
  split at read
  · cases read
  rename_i allowed
  have pathChars : ∀ c ∈ cs.takeWhile fun c => !(c == '?' || c == '#'), isPathChar c = true := by
    simpa using allowed
  split at read
  · rename_i more rest
    split at read
    · rename_i asked
      obtain ⟨rfl, rfl⟩ := Prod.mk.inj (Option.some.inj read)
      refine ⟨⟨by simpa using pathChars, ?_⟩, ?_, String.toList_ofList⟩
      · intro text same c member
        rw [← Option.some.inj same, String.toList_ofList] at member
        exact List.all_eq_true.mp asked c member
      · rw [rest] at parts
        have asking : '?' :: more.takeWhile (fun c => !(c == '#')) <+: '?' :: more :=
          List.cons_prefix_cons.mpr ⟨rfl, List.takeWhile_prefix _⟩
        have front := (List.prefix_append_right_inj
          (cs.takeWhile fun c => !(c == '?' || c == '#'))).mpr asking
        rw [parts] at front
        rw [toList_withQuery_some, String.toList_ofList, String.toList_ofList]
        exact front
    · cases read
  · obtain ⟨rfl, rfl⟩ := Prod.mk.inj (Option.some.inj read)
    refine ⟨⟨by simpa using pathChars, by simp⟩, ?_, String.toList_ofList⟩
    rw [withQuery, String.toList_ofList]
    exact List.takeWhile_prefix _

/-! ## Targets in origin form -/

def originForm : Uri → Uri
  | .rooted path query => .rooted path query
  | .asterisk => .asterisk
  | .bare _ => .rooted "/" none
  | .absolute _ _ path query => .rooted (if path.isEmpty then "/" else path) query

/-- A query stands directly behind the authority. -/
def isPathless : Uri → Bool
  | .absolute _ _ path (some _) => path.isEmpty
  | _ => false

/-- What path and query of a target come to when they are written by themselves. -/
inductive Targeted (uri : Uri) : Prop where
  | asterisk (star : uri = .asterisk)
  | rooted {path : String} {query : Option String} (readable : Readable path query)
      (root : path.toList.head? = some '/') (written : uri.target = withQuery path query)
      (form : uri.originForm = .rooted path query) (whole : uri.isPathless = false)
  | pathless {query : String} (readable : Readable "" (some query))
      (written : uri.target = withQuery "" (some query)) (bare : uri.isPathless = true)

theorem readable_root : Readable "/" none := by
  refine ⟨fun c member => ?_, by simp⟩
  rw [List.mem_singleton.mp member]
  rfl

theorem targeted_of_absolute {scheme authority path : String} {query : Option String}
    (readable : Readable path query) (root : path.toList.head? = some '/' ∨ path = "") :
    Targeted (.absolute scheme authority path query) := by
  rcases root with root | rfl
  · have nonempty : path.isEmpty = false := by
      rw [Bool.eq_false_iff, ne_eq, String.isEmpty_iff]
      rintro rfl
      cases root
    have written : (withQuery path query).isEmpty = false := by
      cases query <;> simp_all [withQuery, String.isEmpty_iff, Bool.eq_false_iff]
    refine .rooted readable root ?_ ?_ ?_
    · simp [target, pathAndQuery?, written]
    · simp [originForm, nonempty]
    · cases query <;> simp [isPathless, nonempty]
  · cases query with
    | none =>
        exact .rooted readable_root rfl rfl rfl rfl
    | some query =>
        refine .pathless readable ?_ rfl
        simp [target, pathAndQuery?, withQuery, String.isEmpty_iff]

theorem utf8ByteSize_le_of_within {part whole : String} (within : part.toList <:+: whole.toList) :
    part.utf8ByteSize ≤ whole.utf8ByteSize := by
  obtain ⟨before, after, parts⟩ := within
  have same : String.ofList before ++ part ++ String.ofList after = whole := by
    rw [← String.toList_inj]
    simpa using parts
  rw [← same, String.utf8ByteSize_append, String.utf8ByteSize_append]
  omega

theorem suffix_of_splitScheme? {cs scheme more : List Char}
    (split : splitScheme? cs = some (scheme, more)) : more <:+ cs := by
  have parts := List.takeWhile_append_dropWhile (p := isSchemeChar) (l := cs)
  rw [splitScheme?] at split
  split at split
  · rename_i rest behind
    split at split
    · cases split
    · obtain ⟨-, rfl⟩ := Prod.mk.inj (Option.some.inj split)
      refine ⟨cs.takeWhile isSchemeChar ++ [':', '/', '/'], ?_⟩
      rw [List.append_assoc]
      nth_rewrite 2 [← parts]
      rw [behind]
      rfl
  · cases split

theorem endsAuthority_of_head {cs : List Char} {c : Char}
    (first : (cs.dropWhile fun c => !endsAuthority c).head? = some c) :
    c = '/' ∨ c = '?' ∨ c = '#' := by
  have ends := List.head?_dropWhile_not (p := fun c => !endsAuthority c) cs
  rw [first] at ends
  cases h : endsAuthority c with
  | true => simpa [endsAuthority, or_assoc] using h
  | false => simp [h] at ends

theorem targeted_of_readFull {cs : List Char} {uri : Uri} (read : readFull cs = some uri) :
    Targeted uri ∧ (uri.target = "/" ∨ uri.target.toList <:+: cs) := by
  rw [readFull] at read
  split at read
  · rename_i scheme more found
    split at read
    · cases read
    dsimp only [cutAt] at read
    split at read
    · cases read
    obtain ⟨⟨path, query⟩, behind, rfl⟩ := Option.map_eq_some_iff.mp read
    obtain ⟨readable, front, upTo⟩ := readable_of_pathQuery? behind
    have root : path.toList.head? = some '/' ∨ path = "" := by
      cases first : more.dropWhile fun c => !endsAuthority c with
      | nil =>
          rw [first] at upTo
          exact .inr (String.toList_inj.mp upTo)
      | cons c rest =>
          rw [first] at upTo
          rcases endsAuthority_of_head (congrArg List.head? first) with rfl | rfl | rfl
          · exact .inl (by rw [upTo]; rfl)
          · exact .inr (String.toList_inj.mp upTo)
          · exact .inr (String.toList_inj.mp upTo)
    refine ⟨targeted_of_absolute readable root, ?_⟩
    have within : (withQuery path query).toList <:+: cs :=
      front.isInfix.trans ((List.dropWhile_suffix _).trans (suffix_of_splitScheme? found)).isInfix
    cases empty : (withQuery path query).isEmpty with
    | true => exact .inl (by simp [target, pathAndQuery?, empty])
    | false => exact .inr (by simpa [target, pathAndQuery?, empty] using within)
  · split at read
    · obtain rfl := Option.some.inj read
      exact ⟨.rooted readable_root rfl rfl rfl rfl, .inl rfl⟩
    · cases read

/-- Every target that the reader accepts, with the length of what is written of it. -/
theorem targeted_of_read {text : String} {uri : Uri} (read : ofText? text = some uri) :
    Targeted uri ∧ uri.target.utf8ByteSize ≤ maxLength := by
  rw [ofText?] at read
  split at read
  · cases read
  rename_i fits
  rw [Nat.not_lt] at fits
  split at read
  · cases read
  · obtain rfl := Option.some.inj read
    exact ⟨.asterisk rfl, by decide⟩
  · rename_i rest written
    obtain ⟨⟨path, query⟩, behind, rfl⟩ := Option.map_eq_some_iff.mp read
    obtain ⟨readable, front, upTo⟩ := readable_of_pathQuery? behind
    have size : (withQuery path query).utf8ByteSize ≤ text.utf8ByteSize :=
      utf8ByteSize_le_of_within (written ▸ front.isInfix)
    exact ⟨.rooted readable (by rw [upTo]; rfl) rfl rfl rfl, Nat.le_trans size fits⟩
  · obtain ⟨targeted, root | within⟩ := targeted_of_readFull read
    · exact ⟨targeted, by rw [root]; decide⟩
    · exact ⟨targeted, Nat.le_trans (utf8ByteSize_le_of_within within) fits⟩

theorem readFull_mark (cs : List Char) : readFull ('?' :: cs) = none := by
  have unmatched : splitScheme? ('?' :: cs) = none := rfl
  have ended : ('?' :: cs).all (fun c => !endsAuthority c) = false := rfl
  rw [readFull, unmatched]
  simp only [ended, Bool.false_and]
  rfl

theorem ofText?_rooted {path : String} {query : Option String} (readable : Readable path query)
    (root : path.toList.head? = some '/')
    (fits : (withQuery path query).utf8ByteSize ≤ maxLength) :
    ofText? (withQuery path query) = some (.rooted path query) := by
  obtain ⟨rest, first⟩ : ∃ rest, (withQuery path query).toList = '/' :: rest := by
    obtain ⟨rest, first⟩ := List.head?_eq_some_iff.mp root
    cases query with
    | none => exact ⟨rest, first⟩
    | some text => exact ⟨rest ++ '?' :: text.toList, by rw [toList_withQuery_some, first]; rfl⟩
  have again := readable.pathQuery?_eq
  rw [first] at again
  rw [ofText?, if_neg (Nat.not_lt.mpr fits), first]
  simp only [again]
  rfl

/-- A target that is read again is read as its origin form, and every target is, except a query that
stands directly behind the authority. -/
theorem ofText?_target {text : String} {uri : Uri} (read : ofText? text = some uri) :
    ofText? uri.target = if uri.isPathless then none else some uri.originForm := by
  obtain ⟨targeted, fits⟩ := targeted_of_read read
  cases targeted with
  | asterisk star =>
      rw [star]
      rfl
  | rooted readable root written form whole =>
      rw [written] at fits
      rw [written, form, whole, ofText?_rooted readable root fits]
      rfl
  | pathless readable written bare =>
      rw [written] at fits
      rw [written, bare, ofText?, if_neg (Nat.not_lt.mpr fits), toList_withQuery_some]
      exact readFull_mark _

theorem text_originForm {text : String} {uri : Uri} (read : ofText? text = some uri)
    (whole : uri.isPathless = false) : uri.originForm.text = uri.target := by
  cases (targeted_of_read read).1 with
  | asterisk star =>
      rw [star]
      rfl
  | rooted readable root written form _ =>
      rw [written, form, Uri.text]
  | pathless readable written bare =>
      rw [whole] at bare
      cases bare

end CachingProxy.Uri
