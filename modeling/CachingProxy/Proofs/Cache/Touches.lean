import CachingProxy.Proofs.Cache.Entries

/-!
# The order of a least recently used collection

The paths of a collection are read off the history of its touches: backwards, each path where it is
met first, as many as there is room for (`latest`).  A touch moves a path to the front of this list,
whether the path was held or not, so a hit and an insertion are the same to it.
-/

set_option autoImplicit false

namespace CachingProxy

/-! ## Distinct elements -/

section

variable {α : Type} [BEq α] [LawfulBEq α]

theorem eraseDups_filter (keep : α → Bool) (xs : List α) :
    (xs.filter keep).eraseDups = xs.eraseDups.filter keep := by
  match xs with
  | [] => rfl
  | x :: rest =>
      have inner := eraseDups_filter keep (rest.filter fun y => !y == x)
      rw [List.eraseDups_cons, List.filter_cons, List.filter_cons, ← inner]
      by_cases kept : keep x = true
      · rw [if_pos kept, if_pos kept, List.eraseDups_cons, List.filter_filter, List.filter_filter]
        simp only [Bool.and_comm]
      · -- What is dropped with `x` would be dropped again as a copy of `x`.
        rw [if_neg kept, if_neg kept, List.filter_filter]
        congr 1
        refine List.filter_congr fun y _ => ?_
        by_cases same : y = x
        · subst same
          simp [kept]
        · simp [same]
termination_by xs.length
decreasing_by exact Nat.lt_succ_of_le (List.length_filter_le _ _)

theorem nodup_eraseDups (xs : List α) : xs.eraseDups.Nodup := by
  match xs with
  | [] => exact List.nodup_nil
  | x :: rest =>
      rw [List.eraseDups_cons, List.nodup_cons]
      refine ⟨?_, nodup_eraseDups _⟩
      simp
termination_by xs.length
decreasing_by exact Nat.lt_succ_of_le (List.length_filter_le _ _)

/-- Without an element that is among the first of a list, one more of the others is among them. -/
theorem take_filter_of_mem {xs : List α} (nodup : xs.Nodup) {n : Nat} {x : α}
    (held : x ∈ xs.take (n + 1)) :
    (xs.filter fun y => y != x).take n = (xs.take (n + 1)).filter fun y => y != x := by
  induction xs generalizing n with
  | nil => simp
  | cons y rest ih =>
      obtain ⟨fresh, nodup⟩ := List.nodup_cons.mp nodup
      rw [List.take_succ_cons] at held ⊢
      by_cases here : y = x
      · subst here
        have others : ∀ z ∈ rest, (z != y) = true := by
          intro z member
          rw [bne_iff_ne]
          rintro rfl
          exact fresh member
        rw [List.filter_cons_of_neg (by simp), List.filter_cons_of_neg (by simp),
          List.filter_eq_self.mpr others]
        exact (List.filter_eq_self.mpr fun z member => others z (List.mem_of_mem_take member)).symm
      · have later := (List.mem_cons.mp held).resolve_left (Ne.symm here)
        rw [List.filter_cons_of_pos (by simpa using here),
          List.filter_cons_of_pos (by simpa using here)]
        cases n with
        | zero => cases later
        | succ n => rw [List.take_succ_cons, ih nodup later]

theorem take_filter_of_not_mem {xs : List α} {n : Nat} {x : α} (missing : x ∉ xs.take n) :
    (xs.filter fun y => y != x).take n = xs.take n := by
  induction xs generalizing n with
  | nil => simp
  | cons y rest ih =>
      cases n with
      | zero => rfl
      | succ n =>
          rw [List.take_succ_cons, List.mem_cons, not_or] at missing
          rw [List.filter_cons_of_pos (by simpa using Ne.symm missing.1), List.take_succ_cons,
            List.take_succ_cons, ih missing.2]

end

/-! ## The latest touches -/

/-- The last `capacity` distinct paths of a history of touches, the latest first. -/
def latest (capacity : Nat) (touches : List String) : List String :=
  touches.reverse.eraseDups.take capacity

example : latest 2 ["/a", "/b", "/a", "/c"] = ["/c", "/a"] := by decide

theorem length_latest_le (capacity : Nat) (touches : List String) :
    (latest capacity touches).length ≤ capacity := List.length_take_le _ _

theorem nodup_latest (capacity : Nat) (touches : List String) :
    (latest capacity touches).Nodup :=
  (nodup_eraseDups _).sublist (List.take_sublist _ _)

theorem latest_concat (capacity : Nat) (touches : List String) (path : String) :
    latest (capacity + 1) (touches ++ [path]) =
      path :: (touches.reverse.eraseDups.filter fun other => other != path).take capacity := by
  rw [latest, List.reverse_append, List.reverse_singleton, List.singleton_append,
    List.eraseDups_cons, List.take_succ_cons, eraseDups_filter]
  rfl

theorem latest_of_held {capacity : Nat} {touches : List String} {path : String}
    (held : path ∈ latest capacity touches) :
    latest capacity (touches ++ [path]) =
      path :: (latest capacity touches).filter fun other => other != path := by
  cases capacity with
  | zero => simp [latest] at held
  | succ capacity =>
      rw [latest_concat, latest, take_filter_of_mem (nodup_eraseDups _) held]

theorem latest_of_missing {capacity : Nat} {touches : List String} {path : String}
    (room : 0 < capacity) (missing : path ∉ latest capacity touches) :
    latest capacity (touches ++ [path]) = (path :: latest capacity touches).take capacity := by
  obtain ⟨capacity, rfl⟩ := Nat.exists_eq_add_of_lt room
  rw [Nat.zero_add] at missing ⊢
  have fewer : path ∉ touches.reverse.eraseDups.take capacity := by
    intro member
    exact missing (List.take_subset_take_left _ (Nat.le_succ capacity) member)
  rw [latest_concat, take_filter_of_not_mem fewer, List.take_succ_cons, latest, List.take_take,
    Nat.min_eq_left (Nat.le_succ capacity)]

/-! ## Collections -/

namespace Recency

variable {α : Type}

theorem keys_access_of_found {entries : Recency α} {path : String} {value : α}
    (found : Keyed.get? entries path = some value) :
    (access entries path).2.keys = path :: entries.keys.filter fun other => other != path := by
  rw [access, found]
  simp only [Keyed.keys, Keyed.erase, List.map_cons, List.filter_map]
  rfl

theorem keys_add (capacity : Nat) (entries : Recency α) (path : String) (value : α) :
    (add capacity entries path value).keys = (path :: entries.keys).take capacity := by
  rw [add, Keyed.keys, List.map_take]
  rfl

theorem add_eq {capacity : Nat} {entries : Recency α} (room : 0 < capacity)
    (bounded : entries.length ≤ capacity) (path : String) (value : α) :
    add capacity entries path value = (path, value) ::
      if entries.length < capacity then entries else entries.dropLast := by
  obtain ⟨capacity, rfl⟩ := Nat.exists_eq_add_of_lt room
  rw [Nat.zero_add] at bounded ⊢
  rw [add, List.take_succ_cons]
  split
  · rename_i few
    rw [List.take_of_length_le (Nat.le_of_lt_succ few)]
  · rename_i full
    have exactly : capacity = entries.length - 1 := by omega
    rw [List.dropLast_eq_take, ← exactly]

end Recency

end CachingProxy
