import CachingProxy.Digest.Hex
import CachingProxy.Text.Ascii
import Mathlib.Data.List.Basic

/-!
# Numbers as digits

What the digits of a number are and what they come to, for any base in which the digits are read.
-/

set_option autoImplicit false

namespace CachingProxy.Text

theorem run_append {α : Type} {p : α → Bool} {found rest : List α} (all : ∀ x ∈ found, p x = true)
    (ends : ∀ x ∈ rest.head?, p x = false) :
    (found ++ rest).takeWhile p = found ∧ (found ++ rest).dropWhile p = rest := by
  rw [List.takeWhile_append_of_pos all, List.dropWhile_append_of_pos all]
  cases rest with
  | nil => exact ⟨List.append_nil found, rfl⟩
  | cons x rest =>
      have other := ends x rfl
      rw [List.takeWhile_cons_of_neg (by simp [other]), List.append_nil]
      exact ⟨rfl, List.dropWhile_cons_of_neg (by simp [other])⟩

theorem takeWhile_ne_append {α : Type} [BEq α] [LawfulBEq α] {sign : α} {found rest : List α}
    (free : sign ∉ found) (stops : ∀ x ∈ rest.head?, x = sign) :
    (found ++ rest).takeWhile (fun x => x != sign) = found := by
  refine (run_append (fun x member => ?_) fun x member => ?_).1
  · rw [bne_iff_ne]
    rintro rfl
    exact free member
  · rw [stops x member, bne_self_eq_false]

theorem mem_toDigits {base n : Nat} (large : 1 < base) {c : Char}
    (member : c ∈ Nat.toDigits base n) : ∃ d < base, c = d.digitChar := by
  induction n using Nat.strongRecOn with
  | ind n ih =>
      rw [Nat.toDigits_eq_if large] at member
      split at member
      · rename_i small
        exact ⟨n, small, List.mem_singleton.mp member⟩
      · rename_i more
        rcases List.mem_append.mp member with earlier | last
        · exact ih (n / base) (Nat.div_lt_self (by omega) large) earlier
        · exact ⟨n % base, Nat.mod_lt n (by omega), List.mem_singleton.mp last⟩

theorem foldl_toDigits {base : Nat} (large : 1 < base) {value : Char → Nat}
    (read : ∀ d < base, value d.digitChar = d) (n : Nat) :
    (Nat.toDigits base n).foldl (fun m c => m * base + value c) 0 = n := by
  induction n using Nat.strongRecOn with
  | ind n ih =>
      rw [Nat.toDigits_eq_if large]
      split
      · rename_i small
        rw [List.foldl_cons, List.foldl_nil, read n small, Nat.zero_mul, Nat.zero_add]
      · rename_i more
        rw [List.foldl_append, ih (n / base) (Nat.div_lt_self (by omega) large), List.foldl_cons,
          List.foldl_nil, read _ (Nat.mod_lt n (by omega)), Nat.mul_comm]
        exact Nat.div_add_mod n base

/-- A zero at the front stands alone. -/
theorem toDigits_of_head {base n : Nat} (large : 1 < base)
    (zero : (Nat.toDigits base n).head? = some '0') : n = 0 := by
  induction n using Nat.strongRecOn with
  | ind n ih =>
      rw [Nat.toDigits_eq_if large] at zero
      split at zero
      · exact Nat.digitChar_eq_zero.mp (Option.some.inj zero)
      · rename_i more
        rw [List.head?_append_of_ne_nil _ Nat.toDigits_ne_nil] at zero
        have none := ih (n / base) (Nat.div_lt_self (by omega) large) zero
        exact absurd ((Nat.div_eq_zero_iff_lt (by omega)).mp none) more

theorem isDigit_iff (c : Char) : isDigit c = true ↔ 48 ≤ c.toNat ∧ c.toNat ≤ 57 := by
  rw [isDigit, Bool.and_eq_true, decide_eq_true_eq, decide_eq_true_eq, Char.le_def, Char.le_def,
    UInt32.le_iff_toNat_le, UInt32.le_iff_toNat_le]
  rfl

theorem decimal_toDigits (n : Nat) : decimal (Nat.toDigits 10 n) = n :=
  foldl_toDigits (by decide) (by decide) n

theorem isDigit_of_mem_toDigits {n : Nat} {c : Char} (member : c ∈ Nat.toDigits 10 n) :
    isDigit c = true := by
  obtain ⟨d, small, rfl⟩ := mem_toDigits (by decide) member
  exact (show ∀ d < 10, isDigit d.digitChar = true by decide) d small

end CachingProxy.Text
