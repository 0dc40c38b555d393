import CachingProxy.Proofs.Cache.Residence

/-!
# Callers of one cache

Any number of callers make their calls on one cache.  A caller's turn is one access to a partition,
or the handing over of the route that it stored at its last turn, so between the two halves of a put
others may have any number of turns (`ContentCache.call_eq`).
-/

set_option autoImplicit false

namespace CachingProxy

/-- A caller with the calls that it has yet to make. -/
structure Caller where
  calls : List Call
  /-- An offer that was stored but not yet handed to the disk: its put has not returned. -/
  hand : Option Offer := none

structure Callers where
  cache : ContentCache
  callers : List Caller
  accesses : List Access := []
  returned : List Offer := []

namespace Callers

def start (cache : ContentCache) (programs : List (List Call)) : Callers :=
  { cache, callers := programs.map fun calls => { calls } }

def step (now : Callers) (index : Nat) : Callers :=
  match now.callers[index]? with
  | none | some ⟨[], none⟩ => now
  | some ⟨calls, some offer⟩ =>
      { now with
        cache := (now.cache.persist offer.route).2
        callers := now.callers.set index { calls }
        returned := now.returned ++ [offer] }
  | some ⟨call :: rest, none⟩ =>
      let (access, next) := now.cache.access call
      { now with
        cache := next
        callers := now.callers.set index ⟨rest, access.offer?⟩
        accesses := now.accesses ++ [access] }

/-- The callers have their turns in the order of a schedule. -/
def run (now : Callers) (schedule : List Nat) : Callers := schedule.foldl step now

def held (now : Callers) : List Offer := now.callers.filterMap Caller.hand

theorem run_append (now : Callers) (first second : List Nat) :
    now.run (first ++ second) = (now.run first).run second := List.foldl_append

/-! ## What a turn does -/

theorem step_cases (now : Callers) (index : Nat) :
    now.step index = now ∨
    (∃ call rest, now.callers[index]? = some ⟨call :: rest, none⟩ ∧
      now.step index = { now with
        cache := (now.cache.access call).2
        callers := now.callers.set index ⟨rest, (now.cache.access call).1.offer?⟩
        accesses := now.accesses ++ [(now.cache.access call).1] }) ∨
    ∃ calls offer, now.callers[index]? = some ⟨calls, some offer⟩ ∧
      now.step index = { now with
        cache := (now.cache.persist offer.route).2
        callers := now.callers.set index { calls }
        returned := now.returned ++ [offer] } := by
  rw [step]
  split
  · exact .inl rfl
  · exact .inl rfl
  · rename_i calls offer present
    exact .inr (.inr ⟨calls, offer, present, rfl⟩)
  · rename_i call rest present
    exact .inr (.inl ⟨call, rest, present, rfl⟩)

theorem hands_set {callers : List Caller} {index : Nat} {caller : Caller}
    (present : callers[index]? = some caller) (next : Caller) :
    ∃ before after, callers.filterMap Caller.hand = before ++ (caller.hand.toList ++ after) ∧
      (callers.set index next).filterMap Caller.hand =
        before ++ (next.hand.toList ++ after) := by
  have parts : ∀ (before : List Caller) (one : Caller) (after : List Caller),
      (before ++ one :: after).filterMap Caller.hand =
        before.filterMap Caller.hand ++ (one.hand.toList ++ after.filterMap Caller.hand) := by
    intro before one after
    rw [List.filterMap_append, List.filterMap_cons]
    cases one.hand <;> rfl
  obtain ⟨within, rfl⟩ := List.getElem?_eq_some_iff.mp present
  obtain ⟨before, after, whole, _, replaced⟩ := List.exists_of_set within
  refine ⟨before.filterMap Caller.hand, after.filterMap Caller.hand, ?_, ?_⟩
  · rw [← parts, ← whole]
  · rw [← parts, replaced]

/-! ## Runs -/

theorem start_held (cache : ContentCache) (programs : List (List Call)) :
    (start cache programs).held = [] := by
  simp [start, held]

/-- However the callers take turns, the cache has come by their accesses. -/
theorem run_after (cache : ContentCache) (programs : List (List Call)) (schedule : List Nat) :
    let now := (start cache programs).run schedule
    ContentCache.After cache now.accesses now.cache := by
  induction schedule using List.reverseRecOn with
  | nil => exact .start
  | append_singleton before index ih =>
      rw [run_append]
      rcases step_cases ((start cache programs).run before) index with
        same | ⟨call, rest, _, stepped⟩ | ⟨calls, offer, _, stepped⟩
      · rw [run, List.foldl_cons, List.foldl_nil, same]
        exact ih
      · rw [run, List.foldl_cons, List.foldl_nil, stepped]
        exact ih.accessed (ContentCache.access_accessed _ call)
      · rw [run, List.foldl_cons, List.foldl_nil, stepped]
        exact ih.persisted offer.route

/-- Every insertion belongs to a put that has returned as one, or has yet to return. -/
theorem step_inserted (now : Callers) (name path : String) (index : Nat) :
    (now.step index).returned.countP (Offer.isFor name path) +
        (now.step index).held.countP (Offer.isFor name path) +
          now.accesses.countP (Access.inserts name path) =
      now.returned.countP (Offer.isFor name path) + now.held.countP (Offer.isFor name path) +
        (now.step index).accesses.countP (Access.inserts name path) := by
  rcases step_cases now index with
    same | ⟨call, rest, present, stepped⟩ | ⟨calls, offer, present, stepped⟩
  · rw [same]
  · obtain ⟨before, after, whole, replaced⟩ :=
      hands_set present ⟨rest, (now.cache.access call).1.offer?⟩
    have stored : (now.cache.access call).1.offer?.toList.countP (Offer.isFor name path) =
        [(now.cache.access call).1].countP (Access.inserts name path) := by
      cases (now.cache.access call).1 <;> rfl
    rw [stepped]
    simp only [held, whole, replaced, List.countP_append, stored, Option.toList_none,
      List.countP_nil]
    omega
  · obtain ⟨before, after, whole, replaced⟩ := hands_set present { calls }
    rw [stepped]
    simp only [held, whole, replaced, List.countP_append, Option.toList_none, Option.toList_some,
      List.countP_nil]
    omega

theorem run_inserted (cache : ContentCache) (programs : List (List Call)) (schedule : List Nat)
    (name path : String) :
    let now := (start cache programs).run schedule
    now.returned.countP (Offer.isFor name path) + now.held.countP (Offer.isFor name path) =
      now.accesses.countP (Access.inserts name path) := by
  induction schedule using List.reverseRecOn with
  | nil =>
      rw [run, List.foldl_nil]
      intro now
      rw [start_held]
      rfl
  | append_singleton before index ih =>
      have stepped := step_inserted ((start cache programs).run before) name path index
      rw [run_append, run, List.foldl_cons, List.foldl_nil]
      simp only at ih ⊢
      omega

theorem step_unstored (now : Callers) {index : Nat} {access : Access}
    (accessed : (now.step index).accesses = now.accesses ++ [access])
    (put : ∃ offer, access = .kept offer ∨ access = .refused offer) :
    (now.step index).cache = now.cache ∧ (now.step index).held = now.held := by
  obtain ⟨offer, unstored⟩ := put
  rcases step_cases now index with
    same | ⟨call, rest, present, stepped⟩ | ⟨calls, offer, present, stepped⟩
  · rw [same] at accessed
    simp at accessed
  · rw [stepped] at accessed ⊢
    have came := List.singleton_inj.mp (List.append_cancel_left accessed)
    have nothing : (now.cache.access call).1.offer? = none := by
      rw [came]
      rcases unstored with rfl | rfl <;> rfl
    have made := now.cache.access_accessed call
    refine ⟨?_, ?_⟩
    · rw [came] at made
      simp only
      generalize (now.cache.access call).2 = next at made ⊢
      rcases unstored with rfl | rfl <;> cases made <;> rfl
    · obtain ⟨before, after, whole, replaced⟩ :=
        hands_set present ⟨rest, (now.cache.access call).1.offer?⟩
      simp only [held, replaced, whole]
      rw [nothing]
  · rw [stepped] at accessed
    simp at accessed

section Built

variable {domains : List String} {settings : CacheSettings} {volume : ContentCache.Volume}
  {cache : ContentCache}

/-- However any number of callers take turns, a path of a name is inserted once more than it leaves
while it is held, and just as often otherwise.  Of the puts between two departures one is stored,
unless the path is held already, and all others keep what is there; whoever looks it up before it
leaves finds the body, the digest and the selected fields that were inserted. -/
theorem one_insertion_between_departures
    (built : ContentCache.build domains settings volume = .ok cache)
    (programs : List (List Call)) (schedule : List Nat) (name path : String) :
    let now := (start cache programs).run schedule
    let resident := Keyed.has (now.cache.partition name) path
    now.accesses.countP (Access.inserts name path) =
        now.accesses.countP (Access.evicts name path) + (if resident then 1 else 0) ∧
    now.returned.countP (Offer.isFor name path) + now.held.countP (Offer.isFor name path) =
      now.accesses.countP (Access.inserts name path) ∧
    (∀ later accesses, (now.run later).accesses = now.accesses ++ accesses →
      accesses.countP (Access.evicts name path) = 0 →
      name ∈ domains.map Domain.normalize →
      accesses.countP (Access.inserts name path) + accesses.countP (Access.keeps name path) =
          accesses.countP (Access.puts name path) ∧
        (0 < accesses.countP (Access.puts name path) →
          accesses.countP (Access.inserts name path) = if resident then 0 else 1)) ∧
    (∀ before offer evicted between domain found after,
      now.accesses =
        before ++ .inserted offer evicted :: (between ++ .looked domain path found :: after) →
      offer.isFor name path = true → Domain.normalize domain = name →
      between.countP (Access.evicts name path) = 0 →
        found = some offer.route ∧ offer.Kept offer.route) ∧
    ∀ index offer,
      ((now.step index).accesses = now.accesses ++ [.kept offer] ∨
        (now.step index).accesses = now.accesses ++ [.refused offer]) →
      (now.step index).cache = now.cache ∧ (now.step index).held = now.held := by
  intro now resident
  have came : ContentCache.After cache now.accesses now.cache := run_after cache programs schedule
  have counted := came.conserved built name path
  rw [toNat_eq_ite] at counted
  refine ⟨counted, run_inserted cache programs schedule name path, ?_, ?_, ?_⟩
  · intro later accesses extended stays known
    have ran : now.run later = (start cache programs).run (schedule ++ later) :=
      (run_append _ schedule later).symm
    have final : ContentCache.After cache (now.accesses ++ accesses) (now.run later).cache := by
      rw [← extended, ran]
      exact run_after cache programs (schedule ++ later)
    refine ⟨final.puts_sorted built known, fun offered => ?_⟩
    have counts := final.conserved built name path
    rw [List.countP_append, List.countP_append, stays] at counts
    have held : Keyed.has ((now.run later).cache.partition name) path = true :=
      final.held_of_puts built known stays offered
    rw [held, Bool.toNat_true] at counts
    by_cases there : resident = true
    · rw [if_pos there] at counted ⊢
      omega
    · rw [if_neg there] at counted ⊢
      omega
  · intro before offer evicted between domain found after listed fits here stays
    rw [listed] at came
    exact ⟨came.found built fits here stays, offer.kept_route⟩
  · intro index offer accessed
    rcases accessed with kept | refused
    · exact step_unstored now kept ⟨offer, .inl rfl⟩
    · exact step_unstored now refused ⟨offer, .inr rfl⟩

end Built

/-- Two puts race for one path: the second caller's is stored, the first one's keeps it, and a
third caller gets it. -/
theorem race_stored_once :
    let page (body : Bytes) : Offer := ⟨"Example.com", "/", body, [⟨"via", [97]⟩, ⟨"etag", body⟩]⟩
    let first : ContentCache := ⟨[("example.com", [])], 1, none⟩
    let race := (start first
      [[.put (page [1])], [.put (page [2])], [.get "EXAMPLE.com" "/"]]).run [1, 0, 1, 2]
    ContentCache.build ["example.com"] { maxEntries := 1 } (.ok .empty) = .ok first ∧
      race.accesses.countP (Access.inserts "example.com" "/") = 1 ∧
      ∃ route, race.accesses = [.inserted (page [2]) none, .kept (page [1]),
          .looked "EXAMPLE.com" "/" (some route)] ∧
        route.content = [2] ∧ route.headers.values "etag" = [[2]] ∧
        route.headers.values "via" = [] ∧
        route.hash = "dbc1b4c900ffe48d575b5da5c638040125f65db0fe3e24494b76ea986457d986" := by
  intro page first race
  let programs : List (List Call) :=
    [[.put (page [1])], [.put (page [2])], [.get "EXAMPLE.com" "/"]]
  have built : ContentCache.build ["example.com"] { maxEntries := 1 } (.ok .empty) =
      .ok first := by rfl
  have accessed : race.accesses = [.inserted (page [2]) none, .kept (page [1]),
      .looked "EXAMPLE.com" "/" (some (page [2]).route)] := by decide +kernel
  obtain ⟨-, -, segment, -⟩ := one_insertion_between_departures built programs [] "example.com" "/"
  have sorted := segment [1, 0, 1, 2] _ accessed (by decide) (by decide)
  obtain ⟨-, -, -, looked, -⟩ :=
    one_insertion_between_departures built programs [1, 0, 1, 2] "example.com" "/"
  obtain ⟨-, content, fields, hash⟩ := looked [] (page [2]) none [.kept (page [1])]
    "EXAMPLE.com" _ [] accessed (by decide) (by decide) (by decide)
  have digest : Sha256.hexDigest [2] =
      "dbc1b4c900ffe48d575b5da5c638040125f65db0fe3e24494b76ea986457d986" := by decide +kernel
  refine ⟨built, ?_, (page [2]).route, accessed, content, ?_, ?_, hash.trans digest⟩
  · rw [accessed]
    exact sorted.2 (by decide)
  · exact ((fields "etag").1 (by decide)).trans (by decide)
  · exact (fields "via").2 (by decide)

end Callers

end CachingProxy
