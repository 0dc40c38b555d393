import CachingProxy.Cache.Recency
import Mathlib.Data.List.Induction
import Mathlib.Data.List.Nodup

/-!
# Lookups in keyed and in least recently used collections

What a key finds after each operation.  No key is listed twice.  In a least recently used collection
a lookup changes the order alone, and an insertion into a list that has room loses nothing.
-/

set_option autoImplicit false

namespace CachingProxy

namespace Keyed

section

variable {κ α : Type} [BEq κ]

theorem get?_cons (entry : κ × α) (rest : Keyed κ α) (key : κ) :
    get? (entry :: rest) key = if entry.1 == key then some entry.2 else get? rest key := by
  rw [get?, List.find?_cons]
  split <;> rename_i found <;> simp [found, get?]

theorem keys_erase_sublist (entries : Keyed κ α) (key : κ) :
    List.Sublist (entries.erase key).keys entries.keys :=
  List.filter_sublist.map Prod.fst

theorem ofEntries_concat (entries : List (κ × α)) (entry : κ × α) :
    ofEntries (entries ++ [entry]) = (ofEntries entries).put entry.1 entry.2 := by
  rw [ofEntries, List.foldl_append]
  rfl

theorem has_eq_isSome (entries : Keyed κ α) (key : κ) :
    entries.has key = (entries.get? key).isSome := by
  induction entries with
  | nil => rfl
  | cons entry rest ih =>
      rw [get?_cons, has, List.any_cons]
      split
      · rename_i found
        rw [found, Bool.true_or, Option.isSome_some]
      · rename_i missed
        rw [← ih, Bool.eq_false_iff.mpr missed, Bool.false_or, has]

variable [LawfulBEq κ]

theorem mem_keys_iff (entries : Keyed κ α) (key : κ) :
    key ∈ entries.keys ↔ entries.has key = true := by
  simp [keys, has]

theorem get?_put (entries : Keyed κ α) (key : κ) (value : α) (other : κ) :
    (entries.put key value).get? other =
      if key == other then some value else entries.get? other := by
  induction entries with
  | nil => rw [put, get?_cons]
  | cons entry rest ih =>
      rw [put]
      by_cases here : entry.1 = key
      · subst here
        rw [if_pos BEq.rfl, get?_cons, get?_cons]
        split <;> rfl
      · rw [if_neg (by simpa using here), get?_cons, get?_cons, ih]
        by_cases found : entry.1 = other
        · subst found
          have apart : (key == entry.1) = false := by simpa using Ne.symm here
          simp [apart]
        · simp [found]

theorem has_put (entries : Keyed κ α) (key : κ) (value : α) (other : κ) :
    (entries.put key value).has other = (key == other || entries.has other) := by
  rw [has_eq_isSome, has_eq_isSome, get?_put]
  split <;> rename_i found <;> simp [found]

theorem get?_erase (entries : Keyed κ α) {key other : κ} (apart : key ≠ other) :
    (entries.erase key).get? other = entries.get? other := by
  induction entries with
  | nil => rfl
  | cons entry rest ih =>
      rw [erase, List.filter_cons]
      split
      · rw [get?_cons, get?_cons, ← ih, erase]
      · rename_i erased
        have here : entry.1 = key := by simpa using erased
        rw [get?_cons, if_neg (by simpa [here] using apart), ← ih, erase]

theorem not_mem_keys_erase (entries : Keyed κ α) (key : κ) : key ∉ (entries.erase key).keys := by
  simp [keys, erase]

theorem has_ofEntries (entries : List (κ × α)) (key : κ) :
    (ofEntries entries).has key = true ↔ key ∈ entries.map Prod.fst := by
  induction entries using List.reverseRecOn with
  | nil => simp [ofEntries, has]
  | append_singleton entries entry ih =>
      rw [ofEntries_concat, has_put, Bool.or_eq_true, ih, List.map_append, List.mem_append,
        List.map_singleton, List.mem_singleton, beq_iff_eq, or_comm, eq_comm]

theorem mem_of_get?_ofEntries (entries : List (κ × α)) {key : κ} {value : α}
    (found : (ofEntries entries).get? key = some value) : (key, value) ∈ entries := by
  induction entries using List.reverseRecOn with
  | nil => cases found
  | append_singleton entries entry ih =>
      rw [ofEntries_concat, get?_put] at found
      rw [List.mem_append, List.mem_singleton]
      split at found
      · rename_i here
        right
        rw [← Option.some.inj found, ← eq_of_beq here]
      · exact .inl (ih found)

/-! ## Distinct keys -/

theorem put_of_absent {entries : Keyed κ α} {key : κ} (absent : key ∉ entries.keys) (value : α) :
    entries.put key value = entries ++ [(key, value)] := by
  induction entries with
  | nil => rfl
  | cons entry rest ih =>
      rw [keys, List.map_cons, List.mem_cons, not_or] at absent
      rw [put, if_neg (by simpa using Ne.symm absent.1), ih absent.2, List.cons_append]

theorem keys_put_of_present {entries : Keyed κ α} {key : κ} (present : entries.has key = true)
    (value : α) : (entries.put key value).keys = entries.keys := by
  induction entries with
  | nil => cases present
  | cons entry rest ih =>
      rw [put]
      split
      · rename_i here
        rw [keys, List.map_cons, ← eq_of_beq here, keys, List.map_cons]
      · rename_i elsewhere
        rw [has, List.any_cons, Bool.eq_false_iff.mpr elsewhere, Bool.false_or, ← has] at present
        rw [keys, List.map_cons, ← keys, ih present, keys, keys, List.map_cons]

theorem ofEntries_of_nodup {entries : List (κ × α)} (nodup : (entries.map Prod.fst).Nodup) :
    ofEntries entries = entries := by
  induction entries using List.reverseRecOn with
  | nil => rfl
  | append_singleton entries entry ih =>
      rw [List.map_append, List.nodup_append] at nodup
      obtain ⟨before, -, apart⟩ := nodup
      have absent : entry.1 ∉ entries.map Prod.fst := by
        intro member
        exact apart _ member _ (List.mem_singleton_self _) rfl
      rw [ofEntries_concat, ih before, put_of_absent absent]

theorem get?_of_mem {entries : Keyed κ α} (nodup : entries.keys.Nodup) {key : κ} {value : α}
    (member : (key, value) ∈ entries) : entries.get? key = some value := by
  induction entries with
  | nil => cases member
  | cons entry rest ih =>
      rw [keys, List.map_cons, List.nodup_cons] at nodup
      rw [get?_cons]
      rcases List.mem_cons.mp member with rfl | later
      · rw [if_pos BEq.rfl]
      · have apart : entry.1 ≠ key := by
          rintro rfl
          exact nodup.1 (List.mem_map.mpr ⟨_, later, rfl⟩)
        rw [if_neg (by simpa using apart), ih nodup.2 later]

theorem mem_iff_get? {entries : Keyed κ α} (nodup : entries.keys.Nodup) {key : κ} {value : α} :
    (key, value) ∈ entries ↔ entries.get? key = some value := by
  refine ⟨get?_of_mem nodup, fun found => ?_⟩
  obtain ⟨entry, first, rfl⟩ := Option.map_eq_some_iff.mp found
  have here : entry.1 = key := by simpa using List.find?_some first
  rw [← here]
  exact List.mem_of_find?_eq_some first

theorem nodup_put {entries : Keyed κ α} (nodup : entries.keys.Nodup) (key : κ) (value : α) :
    (entries.put key value).keys.Nodup := by
  by_cases present : entries.has key = true
  · rw [keys_put_of_present present]
    exact nodup
  · rw [← mem_keys_iff] at present
    rw [put_of_absent present, keys, List.map_append, List.map_singleton, ← List.concat_eq_append]
    exact nodup.concat present

theorem nodup_ofEntries (entries : List (κ × α)) : (ofEntries entries).keys.Nodup := by
  induction entries using List.reverseRecOn with
  | nil => exact List.nodup_nil
  | append_singleton entries entry ih =>
      rw [ofEntries_concat]
      exact nodup_put ih entry.1 entry.2

end

end Keyed

namespace Recency

variable {α : Type}

theorem access_fst (entries : Recency α) (path : String) :
    (access entries path).1 = Keyed.get? entries path := by
  rw [access]
  split <;> rename_i found <;> rw [found]

theorem get?_access (entries : Recency α) (path other : String) :
    Keyed.get? (access entries path).2 other = Keyed.get? entries other := by
  rw [access]
  split
  · rename_i value found
    rw [Keyed.get?_cons]
    by_cases here : path = other
    · rw [if_pos (by simpa using here), ← here, found]
    · rw [if_neg (by simpa using here), Keyed.get?_erase entries here]
  · rfl

theorem nodup_access {entries : Recency α} (nodup : entries.keys.Nodup) (path : String) :
    (access entries path).2.keys.Nodup := by
  rw [access]
  split
  · exact List.nodup_cons.mpr ⟨Keyed.not_mem_keys_erase entries path,
      nodup.sublist (Keyed.keys_erase_sublist entries path)⟩
  · exact nodup

theorem nodup_add {entries : Recency α} (nodup : entries.keys.Nodup) (capacity : Nat)
    {path : String} (absent : Keyed.has entries path = false) (value : α) :
    (add capacity entries path value).keys.Nodup := by
  have fresh : path ∉ entries.keys := by
    rw [Keyed.mem_keys_iff, absent]
    exact Bool.false_ne_true
  have longer : Keyed.keys ((path, value) :: entries) = path :: entries.keys := rfl
  refine List.Nodup.sublist ((List.take_sublist _ _).map Prod.fst) ?_
  rw [← Keyed.keys, longer]
  exact List.nodup_cons.mpr ⟨fresh, nodup⟩

theorem get?_add {entries : Recency α} {capacity : Nat} (room : entries.length < capacity)
    (path : String) (value : α) (other : String) :
    Keyed.get? (add capacity entries path value) other =
      if path == other then some value else Keyed.get? entries other := by
  rw [add, List.take_of_length_le room, Keyed.get?_cons]

end Recency

end CachingProxy
