import CachingProxy.Domain.Name
import Mathlib.Data.List.DropRight
import Mathlib.Data.List.TakeWhile

/-!
# Canonical names

A canonical name is its own canonical form.  Folding the case of a letter makes no blank and unmakes
none, so trimming and folding may change places.
-/

set_option autoImplicit false

namespace CachingProxy

namespace Text

theorem trimBy_eq {α : Type} (p : α → Bool) (xs : List α) :
    trimBy p xs = (xs.dropWhile p).rdropWhile p := rfl

theorem trimBy_trimBy {α : Type} (p : α → Bool) (xs : List α) :
    trimBy p (trimBy p xs) = trimBy p xs := by
  simp only [trimBy_eq]
  have begun : ((xs.dropWhile p).rdropWhile p).dropWhile p = (xs.dropWhile p).rdropWhile p := by
    rw [List.dropWhile_eq_self_iff]
    intro nonempty
    have shorter := List.rdropWhile_prefix p (xs.dropWhile p)
    rw [shorter.getElem nonempty]
    exact List.dropWhile_eq_self_iff.mp (List.dropWhile_idempotent p xs) _
  rw [begun, List.rdropWhile_idempotent]

theorem trimBy_map {α β : Type} (p : β → Bool) (f : α → β) (xs : List α) :
    trimBy p (xs.map f) = (trimBy (p ∘ f) xs).map f := by
  simp only [trimBy, trimEndBy, List.dropWhile_map, ← List.map_reverse]

theorem toNat_lowerChar {c : Char} (upper : 'A' ≤ c ∧ c ≤ 'Z') :
    (lowerChar c).toNat = c.toNat + 32 := by
  have small : c.toNat ≤ 90 := upper.2
  have valid : (c.toNat + 32).isValidChar := by
    left
    omega
  rw [lowerChar, if_pos upper, Char.ofNat, dif_pos valid]
  rfl

theorem lowerChar_lowerChar (c : Char) : lowerChar (lowerChar c) = lowerChar c := by
  by_cases upper : 'A' ≤ c ∧ c ≤ 'Z'
  · have shifted := toNat_lowerChar upper
    have large : 65 ≤ c.toNat := upper.1
    have lower : ¬ ('A' ≤ lowerChar c ∧ lowerChar c ≤ 'Z') := by
      rintro ⟨-, below⟩
      have bound : (lowerChar c).toNat ≤ 90 := below
      omega
    rw [lowerChar, if_neg lower]
  · have same : lowerChar c = c := if_neg upper
    rw [same, same]

theorem isBlank_lowerChar (c : Char) : isBlank (lowerChar c) = isBlank c := by
  by_cases upper : 'A' ≤ c ∧ c ≤ 'Z'
  · have shifted := toNat_lowerChar upper
    have large : 65 ≤ c.toNat := upper.1
    have small : c.toNat ≤ 90 := upper.2
    grind [isBlank]
  · rw [lowerChar, if_neg upper]

theorem lower_lower (cs : List Char) : lower (lower cs) = lower cs := by
  simp only [lower, List.map_map]
  exact List.map_congr_left fun c _ => lowerChar_lowerChar c

theorem trim_lower (cs : List Char) : trim (lower cs) = lower (trim cs) := by
  have blank : isBlank ∘ lowerChar = isBlank := funext isBlank_lowerChar
  rw [trim, lower, trimBy_map, blank, lower, trim]

end Text

namespace Domain

theorem normalize_normalize (name : String) : normalize (normalize name) = normalize name := by
  simp only [normalize, normalizeChars, String.toList_ofList]
  rw [Text.trim_lower, Text.lower_lower, Text.trim, Text.trim, Text.trimBy_trimBy]

example : normalize " Example.COM\t" = "example.com" := by decide

end Domain

end CachingProxy
