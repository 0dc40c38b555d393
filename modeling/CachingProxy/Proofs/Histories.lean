import Mathlib.Data.List.Basic

/-!
# Histories

A history grows at its end.  Where it is cut at an entry, that is either the latest one or one of
those before, so what holds of every entry and the entries before it is kept by a latest entry that
fits (`forall_split_concat`).
-/

set_option autoImplicit false

namespace CachingProxy

variable {α : Type} {entries before after : List α} {latest entry : α}

theorem split_concat (cut : entries ++ [latest] = before ++ entry :: after) :
    (before = entries ∧ entry = latest ∧ after = []) ∨
      ∃ shorter, after = shorter ++ [latest] ∧ entries = before ++ entry :: shorter := by
  rcases List.eq_nil_or_concat after with rfl | ⟨shorter, last, rfl⟩
  · obtain ⟨rfl, same⟩ := List.append_inj' cut rfl
    exact .inl ⟨rfl, (List.singleton_inj.mp same).symm, rfl⟩
  · rw [List.concat_eq_append, ← List.cons_append, ← List.append_assoc] at cut
    obtain ⟨earlier, same⟩ := List.append_inj' cut rfl
    rw [List.concat_eq_append, ← List.singleton_inj.mp same]
    exact .inr ⟨shorter, rfl, earlier⟩

theorem forall_split_concat {fits : List α → α → Prop}
    (all : ∀ before entry after, entries = before ++ entry :: after → fits before entry)
    (next : fits entries latest) :
    ∀ before entry after, entries ++ [latest] = before ++ entry :: after → fits before entry := by
  intro before entry after cut
  rcases split_concat cut with ⟨rfl, rfl, -⟩ | ⟨shorter, -, earlier⟩
  · exact next
  · exact all before entry shorter earlier

end CachingProxy
