import CachingProxy.Proofs.Cache.Accesses

/-!
# Calls on one name

A call is answered from the partition of its name alone, and changes no other partition
(`ContentCache.Canonical.call_answered`).  So two caches with the same partition of a name cannot be
told apart by calls on that name, and calls on other names do not bring them apart.
-/

set_option autoImplicit false

namespace CachingProxy

def Call.domain : Call → String
  | .get domain _ => domain
  | .put offer => offer.domain

def Call.name (call : Call) : String := Domain.normalize call.domain

def Call.answerFrom (capacity : Nat) (call : Call) :
    Option (Recency Route) → Access × Option (Recency Route)
  | none =>
      match call with
      | .get domain path => (.looked domain path none, none)
      | .put offer => (.refused offer, none)
  | some entries =>
      match call with
      | .get domain path =>
          let (found, entries) := Recency.access entries path
          (.looked domain path found, some entries)
      | .put offer =>
          if Keyed.has entries offer.path then (.kept offer, some entries)
          else (.inserted offer (Recency.leaving? capacity entries),
            some (Recency.add capacity entries offer.path offer.route))

namespace ContentCache

/-! ## The partition of a name -/

section

variable {cache : ContentCache}

theorem Canonical.key?_of_get? (canonical : Canonical cache) {domain : String}
    {entries : Recency Route}
    (known : cache.partitions.get? (Domain.normalize domain) = some entries) :
    cache.key? domain = some (Domain.normalize domain) := by
  have present : cache.partitions.has (Domain.normalize domain) = true := by
    rw [Keyed.has_eq_isSome, known, Option.isSome_some]
  rw [canonical.key?_eq, if_pos present]

theorem Canonical.key?_of_get?_eq_none (canonical : Canonical cache) {domain : String}
    (unknown : cache.partitions.get? (Domain.normalize domain) = none) :
    cache.key? domain = none := by
  have absent : ¬ cache.partitions.has (Domain.normalize domain) = true := by
    rw [Keyed.has_eq_isSome, unknown]
    exact Bool.false_ne_true
  rw [canonical.key?_eq, if_neg absent]

/-- A domain is looked up as it is given, and only then in canonical form; on canonical names this
finds what looking up the canonical form finds. -/
theorem Canonical.entries?_eq (canonical : Canonical cache) (domain : String) :
    cache.entries? domain = cache.partitions.get? (Domain.normalize domain) := by
  cases found : cache.partitions.get? (Domain.normalize domain) with
  | none => rw [entries?, canonical.key?_of_get?_eq_none found, Option.bind_none]
  | some entries => rw [entries?, canonical.key?_of_get? found, Option.bind_some, found]

theorem Canonical.key?_congr (canonical : Canonical cache) {one other : String}
    (same : Domain.normalize one = Domain.normalize other) : cache.key? one = cache.key? other := by
  rw [canonical.key?_eq, canonical.key?_eq, same]

theorem partition_of_get? {name : String} {entries : Recency Route}
    (known : cache.partitions.get? name = some entries) : cache.partition name = entries := by
  rw [partition, known, Option.getD_some]

end

/-! ## Calls -/

/-- A cache after a call: one partition may be exchanged, and the archive may be changed. -/
structure Exchanged (cache next : ContentCache) (name : String)
    (entries : Option (Recency Route)) : Prop where
  canonical : Canonical next
  room : next.maxEntries = cache.maxEntries
  get? : ∀ other, next.partitions.get? other =
    if name = other then entries else cache.partitions.get? other

section

variable {cache next : ContentCache} {name : String} {entries : Recency Route}

theorem Canonical.exchanged (canonical : Canonical cache)
    (known : ∃ before, cache.partitions.get? name = some before)
    (partitions : next.partitions = cache.partitions.put name entries)
    (room : next.maxEntries = cache.maxEntries) : Exchanged cache next name (some entries) := by
  obtain ⟨before, found⟩ := known
  have present : cache.partitions.has name = true := by
    rw [Keyed.has_eq_isSome, found, Option.isSome_some]
  refine ⟨canonical.put present partitions, room, fun other => ?_⟩
  rw [partitions, Keyed.get?_put]
  by_cases here : name = other
  · rw [if_pos (by simpa using here), if_pos here]
  · rw [if_neg (by simpa using here), if_neg here]

theorem Canonical.unexchanged (canonical : Canonical cache) (name : String) :
    Exchanged cache cache name (cache.partitions.get? name) := by
  refine ⟨canonical, rfl, fun other => ?_⟩
  split
  · rename_i here
    rw [here]
  · rfl

theorem Exchanged.persist {entries : Option (Recency Route)}
    (exchanged : Exchanged cache next name entries) (route : Route) :
    Exchanged cache (next.persist route).2 name entries := by
  obtain ⟨partitions, room⟩ := next.persist_partitions route
  refine ⟨?_, room.trans exchanged.room, fun other => ?_⟩
  · rw [Canonical, partitions]
    exact exchanged.canonical
  · rw [partitions]
    exact exchanged.get? other

theorem Canonical.get_answered (canonical : Canonical cache) (domain path : String) :
    let result := (Call.get domain path).answerFrom cache.maxEntries
      (cache.partitions.get? (Domain.normalize domain))
    .looked domain path (cache.get domain path).1 = result.1 ∧
      Exchanged cache (cache.get domain path).2 (Domain.normalize domain) result.2 := by
  intro result
  cases found : cache.partitions.get? (Domain.normalize domain) with
  | none =>
      have same := canonical.unexchanged (Domain.normalize domain)
      rw [get_of_unknown (canonical.key?_of_get?_eq_none found)]
      simp only [result, found] at same ⊢
      exact ⟨rfl, same⟩
  | some entries =>
      rw [get_of_known (canonical.key?_of_get? found), partition_of_get? found,
        ← Recency.access_fst]
      simp only [result, found]
      exact ⟨rfl, canonical.exchanged ⟨entries, found⟩ rfl rfl⟩

theorem Canonical.insert_answered (canonical : Canonical cache) (offer : Offer) :
    let result := (Call.put offer).answerFrom cache.maxEntries
      (cache.partitions.get? (Domain.normalize offer.domain))
    (cache.insert offer).1 = result.1 ∧
      Exchanged cache (cache.insert offer).2 (Domain.normalize offer.domain) result.2 := by
  intro result
  have same := canonical.unexchanged (Domain.normalize offer.domain)
  cases found : cache.partitions.get? (Domain.normalize offer.domain) with
  | none =>
      rw [insert, canonical.key?_of_get?_eq_none found]
      simp only [result, found] at same ⊢
      exact ⟨rfl, same⟩
  | some entries =>
      have known := canonical.key?_of_get? found
      rw [insert, leaving?, known]
      simp only [result, found, partition_of_get? found, Option.bind_some,
        Call.answerFrom] at same ⊢
      split
      · exact ⟨rfl, same⟩
      · exact ⟨rfl, canonical.exchanged ⟨entries, found⟩ rfl rfl⟩

/-- A call is answered from the partition of its name, and exchanges that partition alone. -/
theorem Canonical.call_answered (canonical : Canonical cache) (call : Call) :
    let result := call.answerFrom cache.maxEntries (cache.partitions.get? call.name)
    (cache.call call).1 = result.1 ∧ Exchanged cache (cache.call call).2 call.name result.2 := by
  intro result
  have accessed : (cache.access call).1 = result.1 ∧
      Exchanged cache (cache.access call).2 call.name result.2 := by
    cases call with
    | get domain path => exact canonical.get_answered domain path
    | put offer => exact canonical.insert_answered offer
  rw [call_eq]
  split
  · exact ⟨accessed.1, accessed.2.persist _⟩
  · exact accessed

end

/-! ## Two caches -/

/-- Two caches that have the same partition of a name. -/
structure AlikeOn (name : String) (one other : ContentCache) : Prop where
  canonical : Canonical one ∧ Canonical other
  room : one.maxEntries = other.maxEntries
  get? : one.partitions.get? name = other.partitions.get? name

namespace AlikeOn

variable {name : String} {one other : ContentCache}

theorem refl (name : String) {cache : ContentCache} (canonical : Canonical cache) :
    AlikeOn name cache cache := ⟨⟨canonical, canonical⟩, rfl, rfl⟩

theorem call (alike : AlikeOn name one other) {call : Call} (here : call.name = name) :
    (one.call call).1 = (other.call call).1 ∧
      AlikeOn name (one.call call).2 (other.call call).2 := by
  obtain ⟨answered, exchanged⟩ := alike.canonical.1.call_answered call
  obtain ⟨answered', exchanged'⟩ := alike.canonical.2.call_answered call
  rw [here, alike.room, alike.get?] at answered exchanged
  rw [here] at answered' exchanged'
  refine ⟨answered.trans answered'.symm, ⟨exchanged.canonical, exchanged'.canonical⟩, ?_, ?_⟩
  · rw [exchanged.room, exchanged'.room, alike.room]
  · rw [exchanged.get?, exchanged'.get?, if_pos rfl, if_pos rfl]

theorem elsewhere (alike : AlikeOn name one other) {call : Call} (apart : call.name ≠ name) :
    AlikeOn name (one.call call).2 other := by
  obtain ⟨-, exchanged⟩ := alike.canonical.1.call_answered call
  refine ⟨⟨exchanged.canonical, alike.canonical.2⟩, exchanged.room.trans alike.room, ?_⟩
  rw [exchanged.get?, if_neg apart, alike.get?]

theorem entries?_eq (alike : AlikeOn name one other) {domain : String}
    (here : Domain.normalize domain = name) : one.entries? domain = other.entries? domain := by
  rw [alike.canonical.1.entries?_eq, alike.canonical.2.entries?_eq, here, alike.get?]

theorem size_eq (alike : AlikeOn name one other) {domain : String}
    (here : Domain.normalize domain = name) : one.size domain = other.size domain := by
  rw [size, size, alike.entries?_eq here]

theorem assetHashes_eq (alike : AlikeOn name one other) {domain : String}
    (here : Domain.normalize domain = name) :
    one.assetHashes domain = other.assetHashes domain := by
  rw [assetHashes, assetHashes, alike.entries?_eq here]

end AlikeOn

end ContentCache

end CachingProxy
