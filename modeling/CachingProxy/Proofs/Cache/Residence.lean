import CachingProxy.Proofs.Cache.Accesses

/-!
# How often a path was inserted

A path is inserted once more than it has left, or just as often.  So the number of its insertions
tells whether it is held, and between two departures there is one.
-/

set_option autoImplicit false

namespace CachingProxy

namespace Access

/-- Whether an offer was stored for a name and a path. -/
def inserts (name path : String) : Access → Bool
  | .inserted offer _ => offer.isFor name path
  | .looked .. | .kept _ | .refused _ => false

def evicts (name path : String) : Access → Bool
  | .inserted offer evicted => Domain.normalize offer.domain == name && evicted == some path
  | .looked .. | .kept _ | .refused _ => false

def keeps (name path : String) : Access → Bool
  | .kept offer => offer.isFor name path
  | .looked .. | .inserted .. | .refused _ => false

def puts (name path : String) : Access → Bool
  | .inserted offer _ | .kept offer | .refused offer => offer.isFor name path
  | .looked .. => false

end Access

theorem toNat_eq_ite (b : Bool) : b.toNat = if b then 1 else 0 := by cases b <;> rfl

theorem Recency.has_add {α : Type} {capacity : Nat} {entries : Recency α} (room : 0 < capacity)
    (bounded : entries.length ≤ capacity) (nodup : entries.keys.Nodup) {path other : String}
    (apart : path ≠ other) (value : α) :
    (Keyed.has entries other).toNat =
      (leaving? capacity entries == some other).toNat +
        (Keyed.has (add capacity entries path value) other).toNat := by
  have behind : ∀ rest : Recency α, Keyed.has ((path, value) :: rest) other =
      Keyed.has rest other := by
    intro rest
    rw [Keyed.has, List.any_cons, beq_false_of_ne apart, Bool.false_or, Keyed.has]
  rw [add_eq room bounded, behind, leaving?]
  split
  · exact (Nat.zero_add _).symm
  · rename_i full
    rcases List.eq_nil_or_concat entries with rfl | ⟨shorter, last, rfl⟩
    · exact absurd room full
    · -- The last entry leaves, and no other one has its path.
      rw [List.concat_eq_append] at nodup ⊢
      rw [Keyed.keys, List.map_append, List.map_singleton, List.getLast?_concat,
        List.dropLast_concat, Keyed.has, List.any_append, ← Keyed.has]
      by_cases here : last.1 = other
      · have fresh : Keyed.has shorter other = false := by
          rw [Bool.eq_false_iff, ne_eq, ← Keyed.mem_keys_iff, ← here]
          rw [Keyed.keys, List.map_append, List.map_singleton] at nodup
          intro member
          exact (List.nodup_append.mp nodup).2.2 _ member _ (List.mem_singleton_self _) rfl
        simp [fresh, here]
      · have apart : (last.1 == other) = false := beq_false_of_ne here
        simp [apart]

namespace ContentCache

section

variable {first cache next : ContentCache} {accesses : List Access} {access : Access}

theorem Accessed.has_partition (accessed : Accessed cache access next) (name : String) :
    next.partitions.has name = cache.partitions.has name := by
  have exchanged : ∀ {key : String} {entries : Recency Route},
      cache.partitions.has key = true →
        (cache.partitions.put key entries).has name = cache.partitions.has name := by
    intro key entries present
    rw [Keyed.has_put]
    by_cases same : key = name
    · rw [← same, BEq.rfl, Bool.true_or, present]
    · rw [beq_false_of_ne same, Bool.false_or]
  cases accessed with
  | missed | refused | kept => rfl
  | hit known => exact exchanged (has_of_key? known)
  | inserted known => exact exchanged (has_of_key? known)

theorem After.has_partition (came : After first accesses cache) (name : String) :
    cache.partitions.has name = first.partitions.has name := by
  induction came with
  | start => rfl
  | accessed _ accessed ih => exact (accessed.has_partition name).trans ih
  | persisted _ route ih =>
      rw [(persist_partitions _ route).1]
      exact ih

/-- An insertion brings its path, an eviction takes one away, and nothing else does either. -/
theorem Accessed.resident (recorded : Recorded cache accesses)
    (accessed : Accessed cache access next) (name path : String) :
    (access.inserts name path).toNat + (Keyed.has (cache.partition name) path).toNat =
      (access.evicts name path).toNat + (Keyed.has (next.partition name) path).toNat := by
  cases accessed with
  | missed | refused | kept => rfl
  | @hit domain key known other route found =>
      rw [Keyed.has_eq_isSome, Keyed.has_eq_isSome, partition_exchanged]
      split
      · rename_i same
        rw [Recency.get?_access, same]
        rfl
      · rfl
  | @inserted offer key known absent =>
      have own := recorded.canonical.eq_of_key? known
      rw [partition_exchanged, Access.inserts, Access.evicts, Offer.isFor, own]
      by_cases same : key = name
      · subst same
        rw [if_pos rfl, BEq.rfl, Bool.true_and, Bool.true_and]
        have bounded := recorded.length_le key
        by_cases here : offer.path = path
        · subst here
          have stays :
              Recency.leaving? cache.maxEntries (cache.partition key) ≠ some offer.path := by
            intro leaves
            rw [Recency.leaving?] at leaves
            split at leaves
            · cases leaves
            · have held := List.mem_of_getLast? leaves
              rw [Keyed.mem_keys_iff, absent] at held
              cases held
          rw [Recency.add_eq recorded.room bounded, absent, BEq.rfl, beq_false_of_ne stays]
          simp [Keyed.has]
        · rw [beq_false_of_ne here, Bool.toNat_false, Nat.zero_add,
            ← Recency.has_add recorded.room bounded (recorded.nodup key) here]
      · rw [if_neg same, beq_false_of_ne same]
        rfl

/-- A path has been inserted as often as it has left, and once more while it is held. -/
theorem After.conserved {domains : List String} {settings : CacheSettings} {volume : Volume}
    (built : build domains settings volume = .ok first) (came : After first accesses cache)
    (name path : String) :
    accesses.countP (Access.inserts name path) =
      accesses.countP (Access.evicts name path) +
        (Keyed.has (cache.partition name) path).toNat := by
  induction came with
  | start =>
      rw [partition_of_build built]
      rfl
  | @accessed earlier cache next access before accessed ih =>
      have changed := accessed.resident (before.recorded built) name path
      rw [List.countP_append, List.countP_append, List.countP_singleton, List.countP_singleton]
      simp only [toNat_eq_ite] at changed ih ⊢
      omega
  | persisted _ route ih =>
      rw [partition_persist]
      exact ih

end

/-! ## While a path is held -/

section Built

variable {domains : List String} {settings : CacheSettings} {volume : Volume}
  {first cache : ContentCache} {before after : List Access} {access : Access}
  {name path : String}

theorem Accessed.refused_unknown {next : ContentCache} {offer : Offer}
    (accessed : Accessed cache (.refused offer) next) : cache.key? offer.domain = none := by
  cases accessed
  assumption

theorem After.inserts_or_keeps (built : build domains settings volume = .ok first)
    (known : name ∈ domains.map Domain.normalize)
    (came : After first (before ++ access :: after) cache) :
    access.puts name path = (access.inserts name path || access.keeps name path) := by
  cases access with
  | looked | inserted | kept => simp [Access.puts, Access.inserts, Access.keeps]
  | refused offer =>
      obtain ⟨earlier, _, reached, accessed, _⟩ := came.split rfl
      rw [Access.puts, Access.inserts, Access.keeps, Bool.or_self, Bool.eq_false_iff, ne_eq,
        Offer.isFor_iff]
      rintro ⟨rfl, _⟩
      have present : earlier.partitions.has (Domain.normalize offer.domain) = true := by
        rw [reached.has_partition, has_of_build built]
        exact known
      have unknown := accessed.refused_unknown
      rw [(reached.recorded built).canonical.key?_eq, if_pos present] at unknown
      cases unknown

theorem Accessed.held_after {next : ContentCache} {accesses : List Access}
    (recorded : Recorded cache accesses) (accessed : Accessed cache access next)
    (stored : access.inserts name path = true ∨ access.keeps name path = true) :
    Keyed.has (next.partition name) path = true := by
  cases accessed with
  | missed | hit | refused => simp [Access.inserts, Access.keeps] at stored
  | @kept offer key known present =>
      have fits : offer.isFor name path = true := by
        simpa [Access.inserts, Access.keeps] using stored
      obtain ⟨here, rfl⟩ := Offer.isFor_iff.mp fits
      rwa [← here, recorded.canonical.eq_of_key? known]
  | @inserted offer key known absent =>
      have fits : offer.isFor name path = true := by
        simpa [Access.inserts, Access.keeps] using stored
      obtain ⟨here, rfl⟩ := Offer.isFor_iff.mp fits
      have same := recorded.canonical.eq_of_key? known
      rw [partition_exchanged, if_pos (same.symm.trans here),
        Recency.add_eq recorded.room (recorded.length_le key)]
      simp [Keyed.has]

/-- A path that was stored, or kept, is still held as long as it does not leave, and is not inserted
again. -/
theorem After.held (built : build domains settings volume = .ok first)
    (came : After first (before ++ access :: after) cache)
    (stored : access.inserts name path = true ∨ access.keeps name path = true)
    (stays : after.countP (Access.evicts name path) = 0) :
    Keyed.has (cache.partition name) path = true ∧
      after.countP (Access.inserts name path) = 0 := by
  obtain ⟨earlier, next, reached, accessed, later⟩ := came.split rfl
  have counted := later.conserved built name path
  have now := came.conserved built name path
  have parts : ∀ counts : Access → Bool, (before ++ access :: after).countP counts =
      (before ++ [access]).countP counts + after.countP counts := by
    intro counts
    rw [List.append_cons, List.countP_append]
  rw [accessed.held_after (reached.recorded built) stored] at counted
  rw [parts, parts, counted, stays] at now
  cases held : Keyed.has (cache.partition name) path with
  | false =>
      rw [held, Bool.toNat_true, Bool.toNat_false] at now
      omega
  | true =>
      rw [held] at now
      exact ⟨rfl, by omega⟩

theorem After.puts_sorted (built : build domains settings volume = .ok first)
    (known : name ∈ domains.map Domain.normalize) (came : After first (before ++ after) cache) :
    after.countP (Access.inserts name path) + after.countP (Access.keeps name path) =
      after.countP (Access.puts name path) := by
  induction after generalizing before with
  | nil => rfl
  | cons access rest ih =>
      have sorted : access.puts name path = (access.inserts name path || access.keeps name path) :=
        came.inserts_or_keeps built known
      have once : ¬ (access.inserts name path = true ∧ access.keeps name path = true) := by
        cases access <;> simp [Access.inserts, Access.keeps]
      rw [List.append_cons] at came
      have later := ih came
      rw [List.countP_cons, List.countP_cons, List.countP_cons, sorted]
      cases inserted : access.inserts name path <;> cases kept : access.keeps name path
      · simpa using later
      · simp only [Bool.false_or, Bool.false_eq_true, if_false, if_true]
        omega
      · simp only [Bool.or_false, Bool.false_eq_true, if_false, if_true]
        omega
      · exact absurd ⟨inserted, kept⟩ once

theorem After.held_of_puts (built : build domains settings volume = .ok first)
    (known : name ∈ domains.map Domain.normalize) (came : After first (before ++ after) cache)
    (stays : after.countP (Access.evicts name path) = 0)
    (offered : 0 < after.countP (Access.puts name path)) :
    Keyed.has (cache.partition name) path = true := by
  obtain ⟨access, member, put⟩ := List.countP_pos_iff.mp offered
  obtain ⟨earlier, later, rfl⟩ := List.append_of_mem member
  rw [← List.append_assoc] at came
  rw [came.inserts_or_keeps built known, Bool.or_eq_true] at put
  rw [List.countP_append, List.countP_cons] at stays
  exact (came.held built put (by omega)).1

theorem After.found (built : build domains settings volume = .ok first) {offer : Offer}
    {evicted : Option String} {between : List Access} {domain : String} {found : Option Route}
    (came : After first
      (before ++ .inserted offer evicted :: (between ++ .looked domain path found :: after)) cache)
    (fits : offer.isFor name path = true) (here : Domain.normalize domain = name)
    (stays : between.countP (Access.evicts name path) = 0) : found = some offer.route := by
  have listed : before ++ .inserted offer evicted :: (between ++ .looked domain path found :: after)
      = (before ++ .inserted offer evicted :: between) ++ .looked domain path found :: after := by
    rw [List.append_assoc, List.cons_append]
  obtain ⟨now, _, reached, accessed, _⟩ := came.split listed
  have recorded := reached.recorded built
  obtain ⟨held, once⟩ := reached.held built (.inl fits) stays
  rw [Keyed.has_eq_isSome, Option.isSome_iff_exists] at held
  obtain ⟨route, reads⟩ := held
  -- The latest insertion for the path is the one that is given.
  have last : lastInsertion? name path (before ++ .inserted offer evicted :: between) =
      some offer := by
    have later : (between.filterMap Access.offer?).reverse.find? (Offer.isFor name path) =
        none := by
      rw [List.find?_eq_none]
      intro other member
      obtain ⟨access, listed, offered⟩ := List.mem_filterMap.mp (List.mem_reverse.mp member)
      have apart := List.countP_eq_zero.mp once access listed
      cases access with
      | looked | kept | refused => cases offered
      | inserted =>
          rw [← Option.some.inj offered]
          exact apart
    rw [lastInsertion?, List.filterMap_append, List.filterMap_cons]
    simp [Access.offer?, List.find?_append, later, fits]
  have same : route = offer.route := by
    have written := recorded.routes name path route reads
    rw [last, Option.map_some] at written
    exact (Option.some.inj written).symm
  have present : now.partitions.has name = true := by
    rw [Keyed.has_eq_isSome]
    cases entries : now.partitions.get? name with
    | some _ => rfl
    | none =>
        rw [partition, entries] at reads
        cases reads
  have known : now.key? domain = some name := by
    rw [recorded.canonical.key?_eq, here, if_pos present]
  cases accessed with
  | missed _ _ absent =>
      rw [absent name known] at reads
      cases reads
  | hit keyed stored =>
      obtain rfl := Option.some.inj (keyed.symm.trans known)
      rw [← same, ← stored, reads]

end Built

end ContentCache

end CachingProxy
