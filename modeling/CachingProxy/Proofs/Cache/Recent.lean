import CachingProxy.Proofs.Cache.Accesses

/-!
# The least recently used path leaves

After any calls, a partition lists the paths that were touched last, and the next call changes it by
one entry at most.
-/

set_option autoImplicit false

namespace CachingProxy.ContentCache

/-- A put is refused, or keeps what is there, or adds one entry to one partition. -/
theorem put_cases (cache : ContentCache) (offer : Offer) :
    let result := cache.put offer.domain offer.path offer.content offer.headers
    (cache.key? offer.domain = none ∧ result = (.error (.unknownDomain offer.domain), cache)) ∨
    ∃ key, cache.key? offer.domain = some key ∧
      ((Keyed.has (cache.partition key) offer.path = true ∧
          result = (.ok .alreadyPresent, cache)) ∨
        (Keyed.has (cache.partition key) offer.path = false ∧
          (∃ persistence, result.1 = .ok (.inserted persistence)) ∧
          result.2.partitions = cache.partitions.put key
            (Recency.add cache.maxEntries (cache.partition key) offer.path offer.route))) := by
  intro result
  cases keyed : cache.key? offer.domain with
  | none =>
      left
      exact ⟨rfl, by rw [show result = _ from put.eq_def .., keyed]⟩
  | some key =>
      refine .inr ⟨key, rfl, ?_⟩
      cases present : Keyed.has (cache.partition key) offer.path with
      | true =>
          left
          refine ⟨rfl, ?_⟩
          rw [show result = _ from put.eq_def .., keyed]
          exact if_pos present
      | false =>
          right
          refine ⟨rfl, ?_, (storeIn_of_absent keyed present).1⟩
          have missed : ¬ Keyed.has ((cache.partitions.get? key).getD []) offer.path = true := by
            rw [← partition, present]
            exact Bool.false_ne_true
          rw [show result = _ from put.eq_def .., keyed]
          simp only [if_neg missed]
          exact ⟨_, rfl⟩

section Built

variable {domains : List String} {settings : CacheSettings} {volume : Volume}
  {first : ContentCache}

/-- Each partition lists the last distinct paths of its touches, as many as it has room for, each
with the body, the digest and the selected fields of what was last inserted for it.  A lookup that
misses and a put that finds its path change nothing; an insertion comes to the front of one
partition, from which the last path leaves if it was full. -/
theorem partitions_list_latest_touches (built : build domains settings volume = .ok first)
    (calls : List Call) :
    let accesses := (first.serve calls).1
    let cache := (first.serve calls).2
    (∀ name,
      (cache.partition name).keys = latest settings.maxEntries (touches name accesses) ∧
      (cache.partition name).length ≤ settings.maxEntries ∧
      (∀ path, Keyed.get? (cache.partition name) path =
        if path ∈ latest settings.maxEntries (touches name accesses) then
          (lastInsertion? name path accesses).map Offer.route
        else none) ∧
      ∀ path route, Keyed.get? (cache.partition name) path = some route →
        ∃ offer, lastInsertion? name path accesses = some offer ∧ offer.Kept route) ∧
    (∀ domain path, (cache.get domain path).1 = none → (cache.get domain path).2 = cache) ∧
    ∀ offer : Offer,
      let result := cache.put offer.domain offer.path offer.content offer.headers
      let name := Domain.normalize offer.domain
      (result.1 = .ok .alreadyPresent → result.2 = cache) ∧
      ∀ persistence, result.1 = .ok (.inserted persistence) →
        result.2.partition name = (offer.path, offer.route) ::
            (if (cache.partition name).length < settings.maxEntries then cache.partition name
            else (cache.partition name).dropLast) ∧
        ∀ other, other ≠ name → result.2.partition other = cache.partition other := by
  intro accesses cache
  have came : After first accesses cache := serve_after first calls
  have recorded := came.recorded built
  have size : cache.maxEntries = settings.maxEntries :=
    came.maxEntries.trans (build_partitions built).2
  rw [← size]
  refine ⟨fun name => ⟨recorded.keys name, recorded.length_le name, fun path => ?_,
    fun path route found => ?_⟩, fun domain path missed => ?_, fun offer => ?_⟩
  · simp only [← recorded.keys, Keyed.mem_keys_iff, Keyed.has_eq_isSome]
    cases found : Keyed.get? (cache.partition name) path with
    | none => rfl
    | some route =>
        rw [Option.isSome_some, if_pos rfl, recorded.routes name path route found]
  · obtain ⟨offer, last, rfl⟩ := Option.map_eq_some_iff.mp (recorded.routes name path route found)
    exact ⟨offer, last, offer.kept_route⟩
  · have accessed := cache.get_accessed domain path
    rw [missed] at accessed
    exact accessed.of_missed
  · intro result name
    rcases cache.put_cases offer with
      ⟨_, refused⟩ | ⟨key, known, ⟨_, kept⟩ | ⟨_, ⟨persistence, stored⟩, exchange⟩⟩
    · have same : result = _ := refused
      rw [same]
      exact ⟨fun _ => rfl, by simp⟩
    · have same : result = _ := kept
      rw [same]
      exact ⟨fun _ => rfl, by simp⟩
    · have own : name = key := recorded.canonical.eq_of_key? known
      have inserted : result.1 = _ := stored
      rw [inserted, own]
      refine ⟨by simp, fun _ _ => ⟨?_, fun other apart => ?_⟩⟩
      · rw [partition_put exchange, if_pos rfl]
        exact Recency.add_eq recorded.room (recorded.length_le key) _ _
      · rw [partition_put exchange, if_neg (Ne.symm apart)]

/-- A path that left and came back outlives a newer one by a lookup, with what came back. -/
theorem touched_path_outlives_newer :
    let page (path : String) (body : Bytes) : Offer :=
      ⟨"Example.com", path, body, [⟨"server", [97]⟩, ⟨"etag", body⟩, ⟨"etag", [98]⟩]⟩
    let first : ContentCache := ⟨[("example.com", [])], 2, none⟩
    let calls := [.put (page "/a" [1]), .put (page "/b" [2]), .put (page "/c" [3]),
      .put (page "/a" [4]), .put (page "/c" [5]), .get "example.com" "/c",
      .get "example.com" "/a", .put (page "/d" [6])]
    let entries := (first.serve calls).2.partition "example.com"
    build ["example.com"] { maxEntries := 2 } (.ok .empty) = .ok first ∧
      entries.keys = ["/d", "/a"] ∧
      ∃ route, Keyed.get? entries "/a" = some route ∧ route.content = [4] ∧
        route.headers.values "etag" = [[4], [98]] ∧ route.headers.values "server" = [] ∧
        route.hash = "e52d9c508c502347344d8c07ad91cbd6068afc75ff6292f062a09ca381c89e71" := by
  intro page first calls entries
  have built : build ["example.com"] { maxEntries := 2 } (.ok .empty) = .ok first := by rfl
  obtain ⟨keys, -, found, kept⟩ := (partitions_list_latest_touches built calls).1 "example.com"
  have last : lastInsertion? "example.com" "/a" (first.serve calls).1 = some (page "/a" [4]) := by
    decide
  have held : Keyed.get? entries "/a" = some (page "/a" [4]).route := by
    rw [found, if_pos (by decide), last, Option.map_some]
  obtain ⟨offer, inserted, content, fields, hash⟩ := kept "/a" _ held
  obtain rfl := Option.some.inj (last.symm.trans inserted)
  have digest : Sha256.hexDigest [4] =
      "e52d9c508c502347344d8c07ad91cbd6068afc75ff6292f062a09ca381c89e71" := by decide +kernel
  refine ⟨built, ?_, _, held, content, ?_, ?_, hash.trans digest⟩
  · rw [keys]
    decide
  · exact ((fields "etag").1 (by decide)).trans (by decide)
  · exact (fields "server").2 (by decide)

end Built

end CachingProxy.ContentCache
