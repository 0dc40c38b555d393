import CachingProxy.Cache.Content
import CachingProxy.Proofs.Cache.Entries
import CachingProxy.Proofs.Domain.Canonical
import CachingProxy.Proofs.Session.Stripping
import Mathlib.Data.Finset.Card

/-!
# The first offer is kept

A cache is only ever changed by lookups and by answers offered to it.  As long as a name is offered
no more paths than its partition has room for, the partition holds for each path what was offered
first (`Holds`).
-/

set_option autoImplicit false

namespace CachingProxy

/-- An answer that is to be stored. -/
structure Offer where
  domain : String
  path : String
  content : Bytes
  headers : Headers
  deriving DecidableEq

namespace Offer

def storeIn (offer : Offer) (cache : ContentCache) : ContentCache :=
  (cache.put offer.domain offer.path offer.content offer.headers).2

def route (offer : Offer) : Route :=
  .ofResponse offer.domain offer.path offer.content offer.headers

/-- A route has the body of an offer with its digest, and of its fields just those that are sent
again, each with all values in order. -/
structure Kept (offer : Offer) (route : Route) : Prop where
  content : route.content = offer.content
  fields : route.headers.KeepsOf offer.headers fun name =>
    name ∈ ["content-type", "cache-control", "etag", "expires", "last-modified"]
  hash : route.hash = Sha256.hexDigest offer.content

end Offer

namespace Headers

theorem values_append (first second : Headers) (name : String) :
    values (first ++ second) name = first.values name ++ second.values name := by
  rw [values, List.filter_append, List.map_append, values, values]

/-- The fields of some names, name by name, are the fields that these names have. -/
theorem values_select (headers : Headers) {names : List String} (nodup : names.Nodup)
    (name : String) :
    values (names.flatMap fun other => headers.filter fun field => field.name == other) name =
      if name ∈ names then headers.values name else [] := by
  induction names with
  | nil => rfl
  | cons first rest ih =>
      obtain ⟨apart, distinct⟩ := List.nodup_cons.mp nodup
      rw [List.flatMap_cons, values_append, ih distinct,
        values_filter headers (fun other => other == first)]
      by_cases same : name = first
      · subst same
        simp [apart]
      · simp [same]

theorem keepsOf_selectHeaders (headers : Headers) :
    (Route.selectHeaders headers).KeepsOf headers fun name =>
      name ∈ ["content-type", "cache-control", "etag", "expires", "last-modified"] := by
  have distinct : Route.replayed.Nodup := by decide
  intro name
  rw [Route.selectHeaders, values_select headers distinct]
  exact ⟨fun kept => if_pos kept, fun dropped => if_neg dropped⟩

end Headers

theorem Offer.kept_route (offer : Offer) : offer.Kept offer.route :=
  ⟨rfl, offer.headers.keepsOf_selectHeaders, rfl⟩

/-- The first of some offers for a canonical name and a path. -/
def firstOffer? (name path : String) (offers : List Offer) : Option Offer :=
  offers.find? fun offer => Domain.normalize offer.domain == name && offer.path == path

def offeredPaths (name : String) (offers : List Offer) : List String :=
  (offers.filter fun offer => Domain.normalize offer.domain == name).map Offer.path

theorem firstOffer?_concat (name path : String) (offers : List Offer) (offer : Offer) :
    firstOffer? name path (offers ++ [offer]) = (firstOffer? name path offers).or
      (if Domain.normalize offer.domain == name && offer.path == path then some offer
      else none) := by
  rw [firstOffer?, List.find?_append, List.find?_singleton, firstOffer?]

theorem offeredPaths_append (name : String) (first second : List Offer) :
    offeredPaths name (first ++ second) = offeredPaths name first ++ offeredPaths name second := by
  rw [offeredPaths, List.filter_append, List.map_append, offeredPaths, offeredPaths]

theorem mem_offeredPaths {name path : String} {offers : List Offer} {offer : Offer}
    (first : firstOffer? name path offers = some offer) : path ∈ offeredPaths name offers := by
  have fits := List.find?_some first
  rw [Bool.and_eq_true, beq_iff_eq] at fits
  refine List.mem_map.mpr ⟨offer, ?_, eq_of_beq fits.2⟩
  exact List.mem_filter.mpr ⟨List.mem_of_find?_eq_some first, by simpa using fits.1⟩

namespace ContentCache

/-! ## The partition of a name -/

def partition (cache : ContentCache) (name : String) : Recency Route :=
  (cache.partitions.get? name).getD []

def Canonical (cache : ContentCache) : Prop :=
  ∀ key, cache.partitions.has key = true → Domain.normalize key = key

theorem Canonical.key?_eq {cache : ContentCache} (canonical : Canonical cache) (domain : String) :
    cache.key? domain =
      if cache.partitions.has (Domain.normalize domain) then some (Domain.normalize domain)
      else none := by
  rw [key?]
  split
  · rename_i known
    rw [canonical domain known, if_pos known]
  · rfl

theorem has_of_key? {cache : ContentCache} {domain key : String}
    (known : cache.key? domain = some key) : cache.partitions.has key = true := by
  rw [key?] at known
  split at known
  · rename_i present
    rwa [← Option.some.inj known]
  · dsimp only at known
    split at known
    · rename_i present
      rwa [← Option.some.inj known]
    · cases known

theorem get_of_known {cache : ContentCache} {domain key : String}
    (known : cache.key? domain = some key) (path : String) :
    cache.get domain path = (Keyed.get? (cache.partition key) path,
      { cache with
        partitions :=
          cache.partitions.put key (Recency.access (cache.partition key) path).2 }) := by
  rw [get, known, ← Recency.access_fst]
  rfl

theorem get_of_unknown {cache : ContentCache} {domain : String} (unknown : cache.key? domain = none)
    (path : String) : cache.get domain path = (none, cache) := by
  rw [get, unknown]

theorem persist_partitions (cache : ContentCache) (route : Route) :
    (cache.persist route).2.partitions = cache.partitions ∧
      (cache.persist route).2.maxEntries = cache.maxEntries := by
  rw [persist]
  split <;> exact ⟨rfl, rfl⟩

theorem storeIn_of_present {cache : ContentCache} {offer : Offer} {key : String}
    (known : cache.key? offer.domain = some key)
    (present : Keyed.has (cache.partition key) offer.path = true) :
    offer.storeIn cache = cache := by
  rw [Offer.storeIn, put, known]
  exact congrArg Prod.snd (if_pos present)

theorem storeIn_of_unknown {cache : ContentCache} {offer : Offer}
    (unknown : cache.key? offer.domain = none) : offer.storeIn cache = cache := by
  rw [Offer.storeIn, put, unknown]

theorem storeIn_of_absent {cache : ContentCache} {offer : Offer} {key : String}
    (known : cache.key? offer.domain = some key)
    (absent : Keyed.has (cache.partition key) offer.path = false) :
    (offer.storeIn cache).partitions = cache.partitions.put key
        (Recency.add cache.maxEntries (cache.partition key) offer.path offer.route) ∧
      (offer.storeIn cache).maxEntries = cache.maxEntries := by
  have missed : ¬ Keyed.has ((cache.partitions.get? key).getD []) offer.path = true := by
    rw [← partition, absent]
    exact Bool.false_ne_true
  rw [Offer.storeIn, put, known]
  simp only [if_neg missed]
  exact persist_partitions _ _

theorem get_maxEntries (cache : ContentCache) (domain path : String) :
    (cache.get domain path).2.maxEntries = cache.maxEntries := by
  cases keyed : cache.key? domain with
  | none => rw [get_of_unknown keyed]
  | some key => rw [get_of_known keyed]

theorem storeIn_maxEntries (cache : ContentCache) (offer : Offer) :
    (offer.storeIn cache).maxEntries = cache.maxEntries := by
  cases keyed : cache.key? offer.domain with
  | none => rw [storeIn_of_unknown keyed]
  | some key =>
      cases present : Keyed.has (cache.partition key) offer.path with
      | true => rw [storeIn_of_present keyed present]
      | false => exact (storeIn_of_absent keyed present).2

/-! ## What a cache holds after some offers -/

/-- The partition of a name lists each path once, with what was offered first. -/
structure Holds (cache : ContentCache) (name : String) (offers : List Offer) : Prop where
  canonical : Canonical cache
  known : cache.partitions.has name = true
  nodup : (cache.partition name).keys.Nodup
  found : ∀ path, Keyed.get? (cache.partition name) path =
    (firstOffer? name path offers).map Offer.route

theorem build_partitions {domains : List String} {settings : CacheSettings} {volume : Volume}
    {cache : ContentCache} (built : ContentCache.build domains settings volume = .ok cache) :
    cache.partitions = Keyed.ofEntries (domains.map fun domain => (Domain.normalize domain, [])) ∧
      cache.maxEntries = settings.maxEntries := by
  rw [build] at built
  by_cases none : settings.maxEntries = 0
  · rw [if_pos none] at built
    cases built
  · rw [if_neg none] at built
    simp only [pure, Except.pure] at built
    split at built
    · rw [← Except.ok.inj built]
      exact ⟨rfl, rfl⟩
    · rw [← Except.ok.inj built]
      exact ⟨rfl, rfl⟩
    · split at built
      · cases built
      · rw [← Except.ok.inj built]
        exact ⟨rfl, rfl⟩

section Built

variable {domains : List String} {settings : CacheSettings} {volume : Volume}
  {cache : ContentCache}

theorem has_of_build (built : ContentCache.build domains settings volume = .ok cache)
    (key : String) :
    cache.partitions.has key = true ↔ key ∈ domains.map Domain.normalize := by
  rw [(build_partitions built).1, Keyed.has_ofEntries, List.map_map]
  rfl

theorem partition_of_build (built : ContentCache.build domains settings volume = .ok cache)
    (name : String) : cache.partition name = [] := by
  rw [partition, (build_partitions built).1]
  cases found : Keyed.get? (Keyed.ofEntries (domains.map fun domain =>
    (Domain.normalize domain, ([] : Recency Route)))) name with
  | none => rfl
  | some entries =>
      obtain ⟨domain, _, same⟩ := List.mem_map.mp (Keyed.mem_of_get?_ofEntries _ found)
      exact (congrArg Prod.snd same).symm

theorem canonical_of_build (built : ContentCache.build domains settings volume = .ok cache) :
    Canonical cache := by
  intro key present
  obtain ⟨domain, _, rfl⟩ := List.mem_map.mp ((has_of_build built key).mp present)
  exact Domain.normalize_normalize domain

theorem build_holds (built : ContentCache.build domains settings volume = .ok cache)
    {name : String} (known : name ∈ domains.map Domain.normalize) : Holds cache name [] := by
  refine ⟨canonical_of_build built, (has_of_build built name).mpr known, ?_, ?_⟩
  · rw [partition_of_build built]
    exact List.nodup_nil
  · intro path
    rw [partition_of_build built]
    rfl

end Built

namespace Holds

variable {cache : ContentCache} {name : String} {offers : List Offer}

theorem key?_eq_some_iff (holds : Holds cache name offers) (domain : String) :
    cache.key? domain = some name ↔ Domain.normalize domain = name := by
  rw [holds.canonical.key?_eq]
  constructor
  · intro keyed
    split at keyed
    · exact Option.some.inj keyed
    · cases keyed
  · rintro rfl
    rw [if_pos holds.known]

theorem exchanged (holds : Holds cache name offers) (next : ContentCache) {key : String}
    {entries : Recency Route} (present : cache.partitions.has key = true)
    (exchange : next.partitions = cache.partitions.put key entries) :
    Canonical next ∧ next.partitions.has name = true ∧
      next.partition name = if key = name then entries else cache.partition name := by
  have has_eq : ∀ other, next.partitions.has other = cache.partitions.has other := by
    intro other
    rw [exchange, Keyed.has_put]
    by_cases same : key = other
    · rw [← same, present, Bool.or_true]
    · rw [beq_eq_false_iff_ne.mpr same, Bool.false_or]
  refine ⟨fun other has => holds.canonical other (by rwa [← has_eq]), ?_, ?_⟩
  · rw [has_eq]
    exact holds.known
  · rw [partition, exchange, Keyed.get?_put]
    by_cases same : key = name
    · rw [if_pos (by simpa using same), if_pos same, Option.getD_some]
    · rw [if_neg (by simpa using same), if_neg same, partition]

theorem get (holds : Holds cache name offers) (domain path : String) :
    Holds (cache.get domain path).2 name offers := by
  cases keyed : cache.key? domain with
  | none =>
      rw [get_of_unknown keyed]
      exact holds
  | some key =>
      rw [get_of_known keyed]
      obtain ⟨canonical, known, same⟩ := holds.exchanged
        { cache with
          partitions := cache.partitions.put key (Recency.access (cache.partition key) path).2 }
        (has_of_key? keyed) rfl
      by_cases here : key = name
      · subst here
        rw [if_pos rfl] at same
        refine ⟨canonical, known, ?_, fun other => ?_⟩
        · rw [same]
          exact Recency.nodup_access holds.nodup path
        · rw [same, Recency.get?_access]
          exact holds.found other
      · rw [if_neg here] at same
        refine ⟨canonical, known, ?_, fun other => ?_⟩
        · rw [same]
          exact holds.nodup
        · rw [same]
          exact holds.found other

theorem get_fst (holds : Holds cache name offers) {domain : String}
    (here : Domain.normalize domain = name) (path : String) :
    (cache.get domain path).1 = (firstOffer? name path offers).map Offer.route := by
  rw [get_of_known ((holds.key?_eq_some_iff domain).mpr here)]
  exact holds.found path

/-- The paths that are held have been offered, so a path that is offered as well but not held finds
room. -/
theorem length_lt (holds : Holds cache name offers) {path : String} {capacity : Nat}
    {paths : List String} (absent : Keyed.has (cache.partition name) path = false)
    (offered : path ∈ paths) (more : ∀ other ∈ offeredPaths name offers, other ∈ paths)
    (room : paths.toFinset.card ≤ capacity) : (cache.partition name).length < capacity := by
  have fresh : path ∉ (cache.partition name).keys := by
    rw [Keyed.mem_keys_iff, absent]
    exact Bool.false_ne_true
  have inside : (path :: (cache.partition name).keys).toFinset ⊆ paths.toFinset := by
    intro other member
    rw [List.mem_toFinset] at member ⊢
    rcases List.mem_cons.mp member with rfl | held
    · exact offered
    · rw [Keyed.mem_keys_iff, Keyed.has_eq_isSome, holds.found, Option.isSome_map,
        Option.isSome_iff_exists] at held
      obtain ⟨offer, first⟩ := held
      exact more other (mem_offeredPaths first)
  have counted := Finset.card_le_card inside
  rw [List.toFinset_card_of_nodup (List.nodup_cons.mpr ⟨fresh, holds.nodup⟩), List.length_cons,
    Keyed.keys, List.length_map] at counted
  omega

theorem extended (holds : Holds cache name offers) (offer : Offer)
    (late : Domain.normalize offer.domain = name →
      Keyed.has (cache.partition name) offer.path = true) :
    Holds cache name (offers ++ [offer]) := by
  refine ⟨holds.canonical, holds.known, holds.nodup, fun path => ?_⟩
  rw [holds.found, firstOffer?_concat]
  split
  · rename_i fits
    rw [Bool.and_eq_true, beq_iff_eq, beq_iff_eq] at fits
    have held := late fits.1
    rw [fits.2, Keyed.has_eq_isSome, holds.found, Option.isSome_map,
      Option.isSome_iff_exists] at held
    obtain ⟨first, earlier⟩ := held
    rw [earlier, Option.some_or]
  · rw [Option.or_none]

theorem storeIn (holds : Holds cache name offers) (offer : Offer)
    (room : (offeredPaths name (offers ++ [offer])).toFinset.card ≤ cache.maxEntries) :
    Holds (offer.storeIn cache) name (offers ++ [offer]) := by
  cases keyed : cache.key? offer.domain with
  | none =>
      rw [storeIn_of_unknown keyed]
      refine holds.extended offer fun here => ?_
      rw [(holds.key?_eq_some_iff offer.domain).mpr here] at keyed
      cases keyed
  | some key =>
      have here : Domain.normalize offer.domain = name ↔ key = name := by
        rw [← holds.key?_eq_some_iff, keyed, Option.some.injEq]
      cases present : Keyed.has (cache.partition key) offer.path with
      | true =>
          rw [storeIn_of_present keyed present]
          exact holds.extended offer fun same => here.mp same ▸ present
      | false =>
          obtain ⟨exchange, _⟩ := storeIn_of_absent keyed present
          obtain ⟨canonical, known, same⟩ :=
            holds.exchanged (offer.storeIn cache) (has_of_key? keyed) exchange
          by_cases own : key = name
          · subst own
            rw [if_pos rfl] at same
            have offered : offer.path ∈ offeredPaths key (offers ++ [offer]) := by
              rw [offeredPaths_append, List.mem_append]
              right
              simp [offeredPaths, here]
            have free := holds.length_lt present offered
              (fun other earlier => by
                rw [offeredPaths_append, List.mem_append]
                exact .inl earlier) room
            refine ⟨canonical, known, ?_, fun path => ?_⟩
            · rw [same]
              exact Recency.nodup_add holds.nodup _ present _
            · rw [same, Recency.get?_add free, holds.found, firstOffer?_concat,
                here.mpr rfl, BEq.rfl, Bool.true_and]
              by_cases asked : offer.path = path
              · -- Nothing was offered for a path that is not held.
                subst asked
                have none : firstOffer? key offer.path offers = none := by
                  rw [Keyed.has_eq_isSome, holds.found, Option.isSome_map] at present
                  simpa using present
                rw [BEq.rfl, if_pos rfl, if_pos rfl, none, Option.none_or, Option.map_some]
              · rw [beq_eq_false_iff_ne.mpr asked, if_neg Bool.false_ne_true,
                  if_neg Bool.false_ne_true, Option.or_none]
          · rw [if_neg own] at same
            have unaffected := holds.extended offer fun fits => absurd (here.mp fits) own
            refine ⟨canonical, known, ?_, fun path => ?_⟩
            · rw [same]
              exact holds.nodup
            · rw [same]
              exact unaffected.found path

end Holds

end ContentCache

end CachingProxy
