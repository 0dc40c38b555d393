import CachingProxy.Proofs.Cache.Residence

/-!
# What a path finds

A lookup changes nothing that is found.  An insertion may make entries leave, but it exchanges none.
So a path finds the same as long as it finds something (`serve_get_of_stays`).
-/

set_option autoImplicit false

namespace CachingProxy

namespace Recency

variable {α : Type}

/-- An insertion of another path leaves an entry as it is, or the entry leaves. -/
theorem get?_add_of_ne {capacity : Nat} {entries : Recency α} {path other : String}
    (apart : path ≠ other) (value : α) :
    Keyed.get? (add capacity entries path value) other = Keyed.get? entries other ∨
      Keyed.get? (add capacity entries path value) other = none := by
  have behind : Keyed.get? ((path, value) :: entries) other = Keyed.get? entries other := by
    rw [Keyed.get?_cons, beq_false_of_ne apart, if_neg Bool.false_ne_true]
  rw [← behind, add]
  generalize (path, value) :: entries = whole
  have parts := List.take_append_drop capacity whole
  cases found : (whole.take capacity).find? fun entry => entry.1 == other with
  | none => exact .inr (by rw [Keyed.get?, found, Option.map_none])
  | some entry =>
      left
      rw [Keyed.get?, Keyed.get?, ← parts, List.find?_append, parts, found, Option.some_or]

end Recency

namespace ContentCache

variable {cache next : ContentCache} {domain path : String} {route : Route} {access : Access}

theorem get_fst (cache : ContentCache) (domain path : String) :
    (cache.get domain path).1 =
      (cache.key? domain).bind fun key => Keyed.get? (cache.partition key) path := by
  cases known : cache.key? domain with
  | none => rw [get_of_unknown known, Option.bind_none]
  | some key => rw [get_of_known known, Option.bind_some]

theorem Accessed.key?_eq (accessed : Accessed cache access next) (domain : String) :
    next.key? domain = cache.key? domain := by
  simp only [key?, accessed.has_partition]

theorem Accessed.get_of_looked {asked other : String} {found : Option Route}
    (accessed : Accessed cache (.looked asked other found) next) (domain path : String) :
    (next.get domain path).1 = (cache.get domain path).1 := by
  rw [get_fst, get_fst, accessed.key?_eq]
  cases accessed with
  | missed => rfl
  | hit =>
      refine congrArg _ (funext fun name => ?_)
      rw [partition_exchanged]
      split
      · rename_i here
        rw [Recency.get?_access, here]
      · rfl

/-- What a path finds is never exchanged for something else. -/
theorem Accessed.get_of_found (accessed : Accessed cache access next)
    (found : (cache.get domain path).1 = some route) :
    (next.get domain path).1 = some route ∨ (next.get domain path).1 = none := by
  cases access with
  | looked => exact .inl ((accessed.get_of_looked domain path).trans found)
  | kept | refused =>
      cases accessed
      exact .inl found
  | inserted offer evicted =>
      have sameKey := accessed.key?_eq domain
      rw [get_fst] at found ⊢
      rw [sameKey]
      cases accessed with
      | @inserted offer key known absent =>
          obtain ⟨name, here, held⟩ := Option.bind_eq_some_iff.mp found
          rw [here, Option.bind_some, partition_exchanged]
          by_cases same : key = name
          · subst same
            have apart : offer.path ≠ path := by
              rintro rfl
              rw [Keyed.has_eq_isSome, held] at absent
              cases absent
            rw [if_pos rfl, ← held]
            exact Recency.get?_add_of_ne apart offer.route
          · rw [if_neg same]
            exact .inl held

theorem get_persist (cache : ContentCache) (added : Route) (domain path : String) :
    ((cache.persist added).2.get domain path).1 = (cache.get domain path).1 := by
  rw [get_fst, get_fst]
  simp only [key?, (cache.persist_partitions added).1, partition_persist]

theorem call_get_of_found (call : Call) (found : (cache.get domain path).1 = some route) :
    ((cache.call call).2.get domain path).1 = some route ∨
      ((cache.call call).2.get domain path).1 = none := by
  have kept := (cache.access_accessed call).get_of_found found
  rw [call_eq]
  split
  · rwa [get_persist]
  · exact kept

/-- Whether a path finds something after each of some calls. -/
def stays (cache : ContentCache) (domain path : String) : List Call → Bool
  | [] => true
  | call :: rest =>
      ((cache.call call).2.get domain path).1.isSome && (cache.call call).2.stays domain path rest

theorem serve_get_of_stays {calls : List Call} (found : (cache.get domain path).1 = some route)
    (stays : cache.stays domain path calls = true) :
    ((cache.serve calls).2.get domain path).1 = some route := by
  induction calls generalizing cache with
  | nil => exact found
  | cons call rest ih =>
      rw [ContentCache.stays, Bool.and_eq_true] at stays
      rw [serve_cons]
      refine ih ?_ stays.2
      rcases call_get_of_found call found with same | gone
      · exact same
      · rw [gone] at stays
        cases stays.1

end ContentCache

end CachingProxy
