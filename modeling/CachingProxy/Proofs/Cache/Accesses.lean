import CachingProxy.Proofs.Cache.FirstOffer
import CachingProxy.Proofs.Cache.Touches
import CachingProxy.Proofs.Histories

/-!
# Accesses to a cache

A lookup is one access to a partition.  A put is one as well, and behind it, if the offer was
stored, the route is handed to the disk (`ContentCache.call_eq`).  `ContentCache.Accessed` tells
what an access does to a cache, and `ContentCache.After` that a cache has come from another by some
accesses, with the routes handed over at any time behind them.  What the partitions hold by then can
be read off the accesses (`ContentCache.Recorded`).
-/

set_option autoImplicit false

namespace CachingProxy

inductive Call where
  | get (domain path : String)
  | put (offer : Offer)
  deriving DecidableEq

/-- What one access to a partition came to. -/
inductive Access where
  | looked (domain path : String) (found : Option Route)
  | inserted (offer : Offer) (evicted : Option String)
  | kept (offer : Offer)
  | refused (offer : Offer)
  deriving DecidableEq

def Offer.isFor (name path : String) (offer : Offer) : Bool :=
  Domain.normalize offer.domain == name && offer.path == path

/-- The path that an access touches in the partition of a name: a hit or an insertion is a touch. -/
def Access.touched? (name : String) : Access → Option String
  | .looked domain path (some _) => if Domain.normalize domain = name then some path else none
  | .inserted offer _ => if Domain.normalize offer.domain = name then some offer.path else none
  | _ => none

def Access.offer? : Access → Option Offer
  | .inserted offer _ => some offer
  | .looked .. | .kept _ | .refused _ => none

def touches (name : String) (accesses : List Access) : List String :=
  accesses.filterMap (Access.touched? name)

/-- The latest insertion for a canonical name and a path. -/
def lastInsertion? (name path : String) (accesses : List Access) : Option Offer :=
  (accesses.filterMap Access.offer?).reverse.find? (Offer.isFor name path)

theorem Offer.isFor_iff {name path : String} {offer : Offer} :
    offer.isFor name path = true ↔ Domain.normalize offer.domain = name ∧ offer.path = path := by
  rw [isFor, Bool.and_eq_true, beq_iff_eq, beq_iff_eq]

theorem touches_concat (name : String) (accesses : List Access) (access : Access) :
    touches name (accesses ++ [access]) =
      touches name accesses ++ (access.touched? name).toList := by
  rw [touches, List.filterMap_append, List.filterMap_cons, touches]
  cases access.touched? name <;> rfl

theorem lastInsertion?_concat (name path : String) (accesses : List Access) (access : Access) :
    lastInsertion? name path (accesses ++ [access]) =
      (access.offer?.filter (Offer.isFor name path)).or (lastInsertion? name path accesses) := by
  rw [lastInsertion?, List.filterMap_append, List.reverse_append, List.find?_append,
    lastInsertion?, List.filterMap_cons]
  congr 1
  cases access.offer? with
  | none => rfl
  | some offer => simp [Option.filter_some]

namespace Keyed

variable {κ α : Type} [BEq κ] [LawfulBEq κ]

theorem put_of_get? {entries : Keyed κ α} {key : κ} {value : α}
    (found : entries.get? key = some value) : entries.put key value = entries := by
  induction entries with
  | nil => cases found
  | cons entry rest ih =>
      rw [get?_cons] at found
      rw [put]
      split at found
      · rename_i here
        rw [if_pos here, ← Option.some.inj found, ← eq_of_beq here]
      · rename_i elsewhere
        rw [if_neg elsewhere, ih found]

end Keyed

/-- The path whose entry leaves when a new one is added. -/
def Recency.leaving? {α : Type} (capacity : Nat) (entries : Recency α) : Option String :=
  if entries.length < capacity then none else entries.keys.getLast?

namespace ContentCache

/-! ## Calls and accesses -/

def leaving? (cache : ContentCache) (offer : Offer) : Option String :=
  (cache.key? offer.domain).bind fun key =>
    Recency.leaving? cache.maxEntries (cache.partition key)

def insert (cache : ContentCache) (offer : Offer) : Access × ContentCache :=
  match cache.key? offer.domain with
  | none => (.refused offer, cache)
  | some key =>
      if Keyed.has (cache.partition key) offer.path then (.kept offer, cache)
      else
        (.inserted offer (cache.leaving? offer), { cache with
          partitions := cache.partitions.put key
            (Recency.add cache.maxEntries (cache.partition key) offer.path offer.route) })

def access (cache : ContentCache) : Call → Access × ContentCache
  | .get domain path =>
      let (found, next) := cache.get domain path
      (.looked domain path found, next)
  | .put offer => cache.insert offer

def call (cache : ContentCache) : Call → Access × ContentCache
  | .get domain path =>
      let (found, next) := cache.get domain path
      (.looked domain path found, next)
  | .put offer =>
      let (outcome, next) := cache.put offer.domain offer.path offer.content offer.headers
      match outcome with
      | .ok (.inserted _) => (.inserted offer (cache.leaving? offer), next)
      | .ok .alreadyPresent => (.kept offer, next)
      | .error _ => (.refused offer, next)

/-- Some calls in their order, with what their accesses came to. -/
def serve (cache : ContentCache) : List Call → List Access × ContentCache
  | [] => ([], cache)
  | call :: rest =>
      let (access, next) := cache.call call
      let (accesses, final) := next.serve rest
      (access :: accesses, final)

/-- A call is its access and, if that has stored an offer, the handing over of its route. -/
theorem call_eq (cache : ContentCache) (call : Call) :
    cache.call call =
      match (cache.access call).1.offer? with
      | some offer => ((cache.access call).1, ((cache.access call).2.persist offer.route).2)
      | none => cache.access call := by
  cases call with
  | get domain path => rfl
  | put offer =>
      rw [ContentCache.call, put, access, insert]
      cases cache.key? offer.domain with
      | none => rfl
      | some key =>
          have entries : (cache.partitions.get? key).getD [] = cache.partition key := rfl
          by_cases present : Keyed.has (cache.partition key) offer.path = true
          · simp only [entries, if_pos present, Access.offer?]
          · simp only [entries, if_neg present, Access.offer?]
            rfl

theorem serve_cons (cache : ContentCache) (call : Call) (rest : List Call) :
    cache.serve (call :: rest) =
      ((cache.call call).1 :: ((cache.call call).2.serve rest).1,
        ((cache.call call).2.serve rest).2) := rfl

theorem serve_append (cache : ContentCache) (first second : List Call) :
    cache.serve (first ++ second) =
      ((cache.serve first).1 ++ ((cache.serve first).2.serve second).1,
        ((cache.serve first).2.serve second).2) := by
  induction first generalizing cache with
  | nil => rfl
  | cons call rest ih =>
      rw [List.cons_append, serve_cons, ih, serve_cons]
      rfl

/-! ## What an access does -/

inductive Accessed (cache : ContentCache) : Access → ContentCache → Prop where
  | missed (domain path : String)
      (absent : ∀ key, cache.key? domain = some key →
        Keyed.get? (cache.partition key) path = none) :
      Accessed cache (.looked domain path none) cache
  | hit {domain key : String} (known : cache.key? domain = some key) {path : String} {route : Route}
      (found : Keyed.get? (cache.partition key) path = some route) :
      Accessed cache (.looked domain path (some route)) { cache with
        partitions := cache.partitions.put key (Recency.access (cache.partition key) path).2 }
  | refused (offer : Offer) (unknown : cache.key? offer.domain = none) :
      Accessed cache (.refused offer) cache
  | kept {offer : Offer} {key : String} (known : cache.key? offer.domain = some key)
      (present : Keyed.has (cache.partition key) offer.path = true) :
      Accessed cache (.kept offer) cache
  | inserted {offer : Offer} {key : String} (known : cache.key? offer.domain = some key)
      (absent : Keyed.has (cache.partition key) offer.path = false) :
      Accessed cache
        (.inserted offer (Recency.leaving? cache.maxEntries (cache.partition key))) { cache with
          partitions := cache.partitions.put key
            (Recency.add cache.maxEntries (cache.partition key) offer.path offer.route) }

theorem get_accessed (cache : ContentCache) (domain path : String) :
    Accessed cache (.looked domain path (cache.get domain path).1) (cache.get domain path).2 := by
  cases keyed : cache.key? domain with
  | none =>
      rw [get_of_unknown keyed]
      exact .missed domain path (by simp [keyed])
  | some key =>
      rw [get_of_known keyed]
      dsimp only
      cases found : Keyed.get? (cache.partition key) path with
      | some route => exact .hit keyed found
      | none =>
          -- The partition is put back as it was.
          have present := has_of_key? keyed
          rw [Keyed.has_eq_isSome, Option.isSome_iff_exists] at present
          obtain ⟨entries, held⟩ := present
          have same : cache.partition key = entries := by rw [partition, held, Option.getD_some]
          have back : cache.partitions.put key (Recency.access (cache.partition key) path).2 =
              cache.partitions := by
            rw [Recency.access, found, same]
            exact Keyed.put_of_get? held
          rw [back]
          refine .missed domain path fun other known => ?_
          rw [← Option.some.inj (keyed.symm.trans known)]
          exact found

theorem insert_accessed (cache : ContentCache) (offer : Offer) :
    Accessed cache (cache.insert offer).1 (cache.insert offer).2 := by
  rw [insert]
  cases keyed : cache.key? offer.domain with
  | none => exact .refused offer keyed
  | some key =>
      dsimp only
      split
      · rename_i present
        exact .kept keyed present
      · rename_i absent
        have leaves : cache.leaving? offer =
            Recency.leaving? cache.maxEntries (cache.partition key) := by
          rw [leaving?, keyed, Option.bind_some]
        rw [leaves]
        exact .inserted keyed (by simpa using absent)

theorem access_accessed (cache : ContentCache) (call : Call) :
    Accessed cache (cache.access call).1 (cache.access call).2 := by
  cases call with
  | get domain path => exact cache.get_accessed domain path
  | put offer => exact cache.insert_accessed offer

theorem Accessed.maxEntries {cache next : ContentCache} {access : Access}
    (accessed : Accessed cache access next) : next.maxEntries = cache.maxEntries := by
  cases accessed <;> rfl

theorem Accessed.of_missed {cache next : ContentCache} {domain path : String}
    (accessed : Accessed cache (.looked domain path none) next) : next = cache := by
  cases accessed
  rfl

theorem partition_put {cache : ContentCache} {next : ContentCache} {key : String}
    {entries : Recency Route} (exchange : next.partitions = cache.partitions.put key entries)
    (name : String) :
    next.partition name = if key = name then entries else cache.partition name := by
  rw [partition, exchange, Keyed.get?_put, partition]
  by_cases same : key = name
  · rw [if_pos (by simpa using same), if_pos same, Option.getD_some]
  · rw [if_neg (by simpa using same), if_neg same]

theorem partition_exchanged (cache : ContentCache) (key : String) (entries : Recency Route)
    (name : String) :
    ({ cache with partitions := cache.partitions.put key entries } : ContentCache).partition name =
      if key = name then entries else cache.partition name := partition_put rfl name

theorem partition_persist (cache : ContentCache) (route : Route) (name : String) :
    (cache.persist route).2.partition name = cache.partition name := by
  rw [partition, (cache.persist_partitions route).1, partition]

theorem Canonical.put {cache next : ContentCache} (canonical : Canonical cache) {key : String}
    {entries : Recency Route} (present : cache.partitions.has key = true)
    (exchange : next.partitions = cache.partitions.put key entries) : Canonical next := by
  intro other held
  rw [exchange, Keyed.has_put, Bool.or_eq_true, beq_iff_eq] at held
  rcases held with rfl | held
  · exact canonical _ present
  · exact canonical _ held

theorem Canonical.eq_of_key? {cache : ContentCache} (canonical : Canonical cache)
    {domain key : String} (known : cache.key? domain = some key) :
    Domain.normalize domain = key := by
  rw [canonical.key?_eq] at known
  split at known
  · exact Option.some.inj known
  · cases known

/-! ## Accesses one after another -/

/-- A cache has come from another by some accesses; routes were handed over in between. -/
inductive After (first : ContentCache) : List Access → ContentCache → Prop where
  | start : After first [] first
  | accessed {accesses : List Access} {cache next : ContentCache} {access : Access}
      (before : After first accesses cache) (accessed : Accessed cache access next) :
      After first (accesses ++ [access]) next
  | persisted {accesses : List Access} {cache : ContentCache} (before : After first accesses cache)
      (route : Route) : After first accesses (cache.persist route).2

theorem After.maxEntries {first cache : ContentCache} {accesses : List Access}
    (came : After first accesses cache) : cache.maxEntries = first.maxEntries := by
  induction came with
  | start => rfl
  | accessed _ accessed ih => exact accessed.maxEntries.trans ih
  | persisted _ route ih => exact (persist_partitions _ route).2.trans ih

theorem After.split {first final : ContentCache} {accesses before after : List Access}
    {access : Access} (came : After first accesses final)
    (listed : accesses = before ++ access :: after) :
    ∃ cache next, After first before cache ∧ Accessed cache access next ∧
      After first (before ++ [access]) next := by
  induction came generalizing after with
  | start => simp at listed
  | persisted _ _ ih => exact ih listed
  | @accessed earlier cache next latest came accessed ih =>
      rcases split_concat listed with ⟨rfl, rfl, rfl⟩ | ⟨shorter, -, listed⟩
      · exact ⟨cache, next, came, accessed, came.accessed accessed⟩
      · exact ih listed

theorem After.call {first cache : ContentCache} {accesses : List Access}
    (before : After first accesses cache) (call : Call) :
    After first (accesses ++ [(cache.call call).1]) (cache.call call).2 := by
  have accessed := before.accessed (cache.access_accessed call)
  rw [call_eq]
  split
  · exact accessed.persisted _
  · exact accessed

theorem serve_after (cache : ContentCache) (calls : List Call) :
    After cache (cache.serve calls).1 (cache.serve calls).2 := by
  induction calls using List.reverseRecOn with
  | nil => exact .start
  | append_singleton before call ih =>
      rw [serve_append, serve_cons, serve]
      exact ih.call call

/-! ## What the accesses tell of the partitions -/

/-- A partition lists the paths that were touched last, each with what was last inserted for it. -/
structure Recorded (cache : ContentCache) (accesses : List Access) : Prop where
  canonical : Canonical cache
  room : 0 < cache.maxEntries
  keys : ∀ name, (cache.partition name).keys = latest cache.maxEntries (touches name accesses)
  routes : ∀ name path route, Keyed.get? (cache.partition name) path = some route →
    (lastInsertion? name path accesses).map Offer.route = some route

namespace Recorded

variable {cache next : ContentCache} {accesses : List Access} {access : Access}

theorem nodup (recorded : Recorded cache accesses) (name : String) :
    (cache.partition name).keys.Nodup := by
  rw [recorded.keys]
  exact nodup_latest _ _

theorem length_le (recorded : Recorded cache accesses) (name : String) :
    (cache.partition name).length ≤ cache.maxEntries := by
  have bounded := length_latest_le cache.maxEntries (touches name accesses)
  rwa [← recorded.keys, Keyed.keys, List.length_map] at bounded

theorem unaffected (recorded : Recorded cache accesses)
    (untouched : ∀ name, access.touched? name = none) (kept : access.offer? = none) :
    Recorded cache (accesses ++ [access]) := by
  refine ⟨recorded.canonical, recorded.room, fun name => ?_, fun name path route found => ?_⟩
  · rw [touches_concat, untouched, Option.toList_none, List.append_nil]
    exact recorded.keys name
  · rw [lastInsertion?_concat, kept, Option.filter_none, Option.none_or]
    exact recorded.routes name path route found

theorem hit (recorded : Recorded cache accesses) {domain key path : String} {route : Route}
    (known : cache.key? domain = some key)
    (found : Keyed.get? (cache.partition key) path = some route) :
    Recorded { cache with
        partitions := cache.partitions.put key (Recency.access (cache.partition key) path).2 }
      (accesses ++ [.looked domain path (some route)]) := by
  have same := recorded.canonical.eq_of_key? known
  have held : path ∈ (cache.partition key).keys := by
    rw [Keyed.mem_keys_iff, Keyed.has_eq_isSome, found, Option.isSome_some]
  refine ⟨recorded.canonical.put (has_of_key? known) rfl, recorded.room, fun name => ?_,
    fun name other stored reads => ?_⟩
  · rw [partition_exchanged, touches_concat, Access.touched?, same]
    by_cases here : key = name
    · subst here
      rw [recorded.keys] at held
      rw [if_pos rfl, if_pos rfl, Option.toList_some, Recency.keys_access_of_found found,
        recorded.keys, latest_of_held held]
    · rw [if_neg here, if_neg here, Option.toList_none, List.append_nil]
      exact recorded.keys name
  · rw [lastInsertion?_concat, Access.offer?, Option.filter_none, Option.none_or]
    rw [partition_exchanged] at reads
    refine recorded.routes name other stored ?_
    split at reads
    · rename_i here
      rwa [Recency.get?_access, here] at reads
    · exact reads

theorem inserted (recorded : Recorded cache accesses) {offer : Offer} {key : String}
    {evicted : Option String} (known : cache.key? offer.domain = some key)
    (absent : Keyed.has (cache.partition key) offer.path = false) :
    Recorded { cache with
        partitions := cache.partitions.put key
          (Recency.add cache.maxEntries (cache.partition key) offer.path offer.route) }
      (accesses ++ [.inserted offer evicted]) := by
  have same := recorded.canonical.eq_of_key? known
  have missing : offer.path ∉ (cache.partition key).keys := by
    rw [Keyed.mem_keys_iff, absent]
    exact Bool.false_ne_true
  refine ⟨recorded.canonical.put (has_of_key? known) rfl, recorded.room, fun name => ?_,
    fun name path route found => ?_⟩
  · rw [partition_exchanged, touches_concat, Access.touched?, same]
    by_cases here : key = name
    · subst here
      rw [recorded.keys] at missing
      rw [if_pos rfl, if_pos rfl, Option.toList_some, Recency.keys_add, recorded.keys,
        latest_of_missing recorded.room missing]
    · rw [if_neg here, if_neg here, Option.toList_none, List.append_nil]
      exact recorded.keys name
  · rw [lastInsertion?_concat, Access.offer?, Option.filter_some]
    rw [partition_exchanged] at found
    by_cases here : key = name
    · subst here
      rw [if_pos rfl] at found
      rw [Recency.add] at found
      by_cases own : offer.path = path
      · -- The new entry is found first.
        rw [if_pos (Offer.isFor_iff.mpr ⟨same, own⟩), Option.some_or, Option.map_some]
        obtain ⟨capacity, size⟩ := Nat.exists_eq_add_of_lt recorded.room
        rw [size, List.take_succ_cons, Keyed.get?_cons, if_pos (by simpa using own)] at found
        exact found
      · have other : ¬ offer.isFor key path = true := by
          rw [Offer.isFor_iff]
          exact fun fits => own fits.2
        rw [if_neg other, Option.none_or]
        refine recorded.routes key path route ?_
        obtain ⟨entry, first, reads⟩ := Option.map_eq_some_iff.mp found
        have longer := List.IsPrefix.find?_eq_some (List.take_prefix _ _) first
        rw [List.find?_cons_of_neg (by simpa using own)] at longer
        rw [Keyed.get?, longer, ← reads, Option.map_some]
    · rw [if_neg here] at found
      have other : ¬ offer.isFor name path = true := by
        rw [Offer.isFor_iff, same]
        exact fun fits => here fits.1
      rw [if_neg other, Option.none_or]
      exact recorded.routes name path route found

theorem step (recorded : Recorded cache accesses) (accessed : Accessed cache access next) :
    Recorded next (accesses ++ [access]) := by
  cases accessed with
  | missed | refused | kept => exact recorded.unaffected (fun _ => rfl) rfl
  | hit known found => exact recorded.hit known found
  | inserted known absent => exact recorded.inserted known absent

theorem persist (recorded : Recorded cache accesses) (route : Route) :
    Recorded (cache.persist route).2 accesses := by
  obtain ⟨partitions, size⟩ := cache.persist_partitions route
  refine ⟨?_, ?_, fun name => ?_, fun name path stored found => ?_⟩
  · rw [Canonical, partitions]
    exact recorded.canonical
  · rw [size]
    exact recorded.room
  · rw [partition_persist, size]
    exact recorded.keys name
  · rw [partition_persist] at found
    exact recorded.routes name path stored found

end Recorded

theorem After.recorded {domains : List String} {settings : CacheSettings} {volume : Volume}
    {first cache : ContentCache} {accesses : List Access}
    (built : ContentCache.build domains settings volume = .ok first)
    (came : After first accesses cache) : Recorded cache accesses := by
  induction came with
  | start =>
      have empty := partition_of_build built
      refine ⟨canonical_of_build built, ?_, fun name => ?_, fun name path route found => ?_⟩
      · rw [(build_partitions built).2]
        refine Nat.pos_of_ne_zero fun none => ?_
        rw [build, if_pos none] at built
        cases built
      · rw [empty, touches, List.filterMap_nil, latest, List.reverse_nil, List.eraseDups_nil,
          List.take_nil]
        rfl
      · rw [empty] at found
        cases found
  | accessed _ accessed ih => exact ih.step accessed
  | persisted _ route ih => exact ih.persist route

end ContentCache

end CachingProxy
