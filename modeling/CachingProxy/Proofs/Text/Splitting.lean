import CachingProxy.Text.Ascii
import Mathlib.Data.List.Basic

/-!
# The parts between separators

A part of a split list is a stretch of it without separators that reaches a separator or an end on
both sides, and every such stretch is a part.
-/

set_option autoImplicit false

namespace CachingProxy.Text

variable {α : Type} {p : α → Bool} {xs ys part : List α} {s : α}

theorem splitBy_ne_nil (p : α → Bool) (xs : List α) : splitBy p xs ≠ [] := by
  fun_cases splitBy p xs <;> simp

theorem splitBy_of_none (none : ∀ x ∈ xs, p x = false) : splitBy p xs = [xs] := by
  induction xs with
  | nil => rfl
  | cons x rest ih =>
      rw [splitBy, none x (List.mem_cons_self ..),
        ih fun y member => none y (List.mem_cons_of_mem x member)]
      rfl

theorem splitBy_append_cons (separates : p s = true) (xs ys : List α) :
    splitBy p (xs ++ s :: ys) = splitBy p xs ++ splitBy p ys := by
  induction xs with
  | nil => simp [splitBy, separates]
  | cons x rest ih =>
      rw [List.cons_append, splitBy, splitBy, ih]
      split
      · rfl
      · cases split : splitBy p rest with
        | nil => exact absurd split (splitBy_ne_nil p rest)
        | cons first parts => rfl

/-- A stretch without separators that reaches a separator or an end on both sides. -/
def IsPart (p : α → Bool) (xs part : List α) : Prop :=
  (∀ x ∈ part, p x = false) ∧
    ∃ before after, xs = before ++ part ++ after ∧
      (∀ x ∈ before.getLast?, p x = true) ∧ ∀ x ∈ after.head?, p x = true

theorem IsPart.mem_splitBy (isPart : IsPart p xs part) : part ∈ splitBy p xs := by
  obtain ⟨none, before, after, rfl, left, right⟩ := isPart
  have first : part ∈ splitBy p (part ++ after) := by
    cases after with
    | nil => simp [splitBy_of_none none]
    | cons s rest => simp [splitBy_append_cons (right s rfl), splitBy_of_none none]
  rcases List.eq_nil_or_concat before with rfl | ⟨earlier, s, rfl⟩
  · exact first
  · have separates : p s = true := left s (by simp)
    rw [List.concat_eq_append, List.append_assoc, List.append_assoc, List.singleton_append,
      splitBy_append_cons separates]
    exact List.mem_append_right _ first

theorem isPart_of_mem_splitBy (member : part ∈ splitBy p xs) : IsPart p xs part := by
  induction len : xs.length using Nat.strongRecOn generalizing xs with
  | ind n ih =>
      cases found : xs.find? p with
      | none =>
          have none : ∀ x ∈ xs, p x = false := by simpa using List.find?_eq_none.mp found
          rw [splitBy_of_none none, List.mem_singleton] at member
          rw [member]
          exact ⟨none, [], [], by simp, by simp, by simp⟩
      | some s =>
          obtain ⟨separates, first, rest, rfl, unseparated⟩ :=
            List.find?_eq_some_iff_append.mp found
          have none : ∀ x ∈ first, p x = false := by simpa using unseparated
          rw [splitBy_append_cons separates, splitBy_of_none none, List.mem_append,
            List.mem_singleton] at member
          rcases member with rfl | later
          · exact ⟨none, [], s :: rest, by simp, by simp, by simpa using separates⟩
          · have shorter : rest.length < n := by
              rw [← len, List.length_append, List.length_cons]
              omega
            obtain ⟨inside, before, after, rfl, left, right⟩ := ih _ shorter later rfl
            refine ⟨inside, first ++ s :: before, after, by simp, fun x last => ?_, right⟩
            rw [List.getLast?_append, List.getLast?_cons, Option.some_or,
              Option.mem_some_iff] at last
            cases ends : before.getLast? with
            | none => rwa [← last, ends]
            | some y =>
                rw [← last, ends]
                exact left y ends

theorem mem_splitBy_iff : part ∈ splitBy p xs ↔ IsPart p xs part :=
  ⟨isPart_of_mem_splitBy, IsPart.mem_splitBy⟩

end CachingProxy.Text
