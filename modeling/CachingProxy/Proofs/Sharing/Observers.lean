import CachingProxy.Proofs.Disk.Names
import CachingProxy.Proofs.Routing.Agreement

/-!
# Looking does not touch

Only a hit and an insertion change a cache.  Reports, counts, misses, refused and repeated offers
leave it exactly as it is, the order of its entries included.  So they can be put anywhere in a run
and nothing else in the run comes out differently, evictions far behind them neither.  What is
reported is what a lookup would find.
-/

set_option autoImplicit false

namespace CachingProxy

/-! ## Reports -/

namespace Keyed

variable {κ α β : Type}

theorem get?_map [BEq κ] (entries : Keyed κ α) (f : α → β) (key : κ) :
    get? (entries.map fun entry => (entry.1, f entry.2)) key = (entries.get? key).map f := by
  induction entries with
  | nil => rfl
  | cons entry rest ih =>
      rw [List.map_cons, get?_cons, get?_cons, ih]
      split <;> rfl

theorem keys_map (entries : Keyed κ α) (f : α → β) :
    keys (entries.map fun entry => (entry.1, f entry.2)) = entries.keys := by
  rw [keys, List.map_map, keys]
  rfl

theorem get?_of_perm [BEq κ] [LawfulBEq κ] {one other : Keyed κ α} (perm : List.Perm one other)
    (nodup : one.keys.Nodup) (key : κ) : one.get? key = other.get? key := by
  have nodup' : other.keys.Nodup := (perm.map Prod.fst).nodup_iff.mp nodup
  ext value
  rw [← mem_iff_get? nodup, ← mem_iff_get? nodup', perm.mem_iff]

end Keyed

theorem Hex.digit_mem : ∀ n < 16, digit n ∈ "0123456789abcdef".toList := by decide

theorem Hex.mem_of_mem_digits {bytes : Bytes} {c : Char} (member : c ∈ digits bytes) :
    c ∈ "0123456789abcdef".toList := by
  obtain ⟨n, small, rfl⟩ := exists_of_mem_digits member
  exact digit_mem n small

/-- Sixty-four lower-case digits. -/
theorem Sha256.digits_hexDigest (content : Bytes) : (hexDigest content).toList.length = 64 ∧
    ∀ c ∈ (hexDigest content).toList, c ∈ "0123456789abcdef".toList := by
  rw [hexDigest, Hex.encode, String.toList_ofList, Hex.length_digits, length_digest]
  exact ⟨rfl, fun c => Hex.mem_of_mem_digits⟩

namespace ContentCache

variable {cache : ContentCache}

/-- The report for a domain lists each path once, with the digest of what a lookup of the path would
find, and the count is that of the report. -/
structure Reported (cache : ContentCache) (domain : String) : Prop where
  apart : (cache.assetHashes domain).keys.Nodup
  found : ∀ path, (cache.assetHashes domain).get? path =
    (cache.get domain path).1.map fun route => Sha256.hexDigest route.content
  counted : cache.size domain = (cache.assetHashes domain).length
  written : ∀ hash ∈ (cache.assetHashes domain).map Prod.snd,
    hash.toList.length = 64 ∧ ∀ c ∈ hash.toList, c ∈ "0123456789abcdef".toList

theorem exists_entries (nodup : ∀ name, (cache.partition name).keys.Nodup) (domain : String) :
    ∃ entries : Recency Route, (cache.entries? domain).getD [] = entries ∧ entries.keys.Nodup ∧
      ∀ path, (cache.get domain path).1 = Keyed.get? entries path := by
  cases known : cache.key? domain with
  | none =>
      refine ⟨[], ?_, List.nodup_nil, fun path => ?_⟩
      · rw [entries?, known, Option.bind_none, Option.getD_none]
      · rw [get_of_unknown known]
        rfl
  | some key =>
      refine ⟨cache.partition key, ?_, nodup key, fun path => ?_⟩
      · rw [entries?, known, Option.bind_some, partition]
      · rw [get_of_known known]

theorem reported_of_nodup (nodup : ∀ name, (cache.partition name).keys.Nodup) (domain : String) :
    Reported cache domain := by
  obtain ⟨entries, listed, distinct, found⟩ := cache.exists_entries nodup domain
  have sorted : List.Perm (cache.assetHashes domain)
      (entries.map fun entry => (entry.1, entry.2.hash)) := by
    rw [assetHashes, listed]
    exact List.mergeSort_perm _ _
  have apart : (cache.assetHashes domain).keys.Nodup := by
    refine (sorted.map Prod.fst).nodup_iff.mpr ?_
    rwa [← Keyed.keys, Keyed.keys_map]
  refine ⟨apart, fun path => ?_, ?_, fun hash member => ?_⟩
  · rw [Keyed.get?_of_perm sorted apart, Keyed.get?_map, found]
    rfl
  · rw [size, listed, sorted.length_eq, List.length_map]
  · obtain ⟨⟨path, digits⟩, reported, rfl⟩ := List.mem_map.mp member
    obtain ⟨⟨other, route⟩, -, same⟩ := List.mem_map.mp (sorted.mem_iff.mp reported)
    obtain ⟨rfl, rfl⟩ := Prod.mk.inj same
    exact Sha256.digits_hexDigest route.content

end ContentCache

/-! ## Uses of a cache -/

inductive Usage where
  | ask (ask : Ask)
  | totalSize
  | hasDomain (domain : String)
  | request (router : Router) (edge : Option EdgeNodes) (secure : Bool) (head : RequestHead)
  | disk (change : Disk.Archive → Disk.Archive)

inductive Outcome where
  | answered (answer : Answer)
  | counted (count : Nat)
  | known (known : Bool)
  | handled (handler : Handler)
  | worked

/-- Uses that only look, by what they came to. -/
inductive Looks : Usage → Outcome → Prop where
  | hashes (domain : String) (outcome : Outcome) : Looks (.ask (.hashes domain)) outcome
  | size (domain : String) (outcome : Outcome) : Looks (.ask (.size domain)) outcome
  | totalSize (outcome : Outcome) : Looks .totalSize outcome
  | hasDomain (domain : String) (outcome : Outcome) : Looks (.hasDomain domain) outcome
  | missed (domain path : String) :
      Looks (.ask (.call (.get domain path))) (.answered (.found none))
  | kept (offer : Offer) (evicted : Option String) :
      Looks (.ask (.call (.put offer))) (.answered (.stored (.ok .alreadyPresent) evicted))
  | refused (offer : Offer) (domain : String) (evicted : Option String) :
      Looks (.ask (.call (.put offer)))
        (.answered (.stored (.error (.unknownDomain domain)) evicted))
  | direct (router : Router) (edge : Option EdgeNodes) (secure : Bool) (head : RequestHead)
      (report : DirectReport) :
      Looks (.request router edge secure head) (.handled (.direct report))

structure Entry where
  usage : Usage
  inserted : Bool

namespace ContentCache

variable {first cache other : ContentCache}

def use (cache : ContentCache) : Usage → Outcome × ContentCache
  | .ask ask =>
      let (answer, next) := cache.answer ask
      (.answered answer, next)
  | .totalSize => (.counted cache.totalSize, cache)
  | .hasDomain domain => (.known (cache.hasDomain domain), cache)
  | .request router edge secure head =>
      (.handled (router.dispatch cache edge secure head), cache)
  | .disk change => (.worked, cache.mapArchive change)

/-- What the uses of a run come to that were not put there besides, and the cache behind all of
them. -/
def told (cache : ContentCache) : List Entry → List Outcome × ContentCache
  | [] => ([], cache)
  | entry :: rest =>
      let (outcome, next) := cache.use entry.usage
      let (outcomes, final) := next.told rest
      (if entry.inserted then outcomes else outcome :: outcomes, final)

def Observed (cache : ContentCache) : List Entry → Prop
  | [] => True
  | entry :: rest =>
      (entry.inserted = true → Looks entry.usage (cache.use entry.usage).1) ∧
        (cache.use entry.usage).2.Observed rest

theorem told_cons (cache : ContentCache) (entry : Entry) (rest : List Entry) :
    cache.told (entry :: rest) =
      (if entry.inserted then ((cache.use entry.usage).2.told rest).1
        else (cache.use entry.usage).1 :: ((cache.use entry.usage).2.told rest).1,
        ((cache.use entry.usage).2.told rest).2) := rfl

theorem get_of_missed {domain path : String} (missed : (cache.get domain path).1 = none) :
    (cache.get domain path).2 = cache := by
  have accessed := cache.get_accessed domain path
  rw [missed] at accessed
  exact accessed.of_missed

theorem put_of_uninserted {offer : Offer}
    (uninserted : ∀ persistence,
      (cache.put offer.domain offer.path offer.content offer.headers).1 ≠
        .ok (.inserted persistence)) :
    (cache.put offer.domain offer.path offer.content offer.headers).2 = cache := by
  rcases cache.put_cases offer with ⟨-, same⟩ | ⟨key, -, ⟨-, same⟩ | ⟨-, ⟨tag, stored⟩, -⟩⟩
  · rw [same]
  · rw [same]
  · exact absurd stored (uninserted tag)

/-- What only looks leaves the cache exactly as it is. -/
theorem use_of_looks {usage : Usage} {outcome : Outcome} (looks : Looks usage outcome)
    (came : (cache.use usage).1 = outcome) : (cache.use usage).2 = cache := by
  cases looks with
  | hashes | size | totalSize | hasDomain | direct => rfl
  | missed domain path =>
      have missed : (cache.get domain path).1 = none :=
        Answer.found.inj (Outcome.answered.inj came)
      exact get_of_missed missed
  | kept offer evicted =>
      have stored : (cache.put offer.domain offer.path offer.content offer.headers).1 =
          .ok .alreadyPresent := (Answer.stored.inj (Outcome.answered.inj came)).1
      refine put_of_uninserted fun persistence inserted => ?_
      rw [inserted] at stored
      cases stored
  | refused offer domain evicted =>
      have stored : (cache.put offer.domain offer.path offer.content offer.headers).1 =
          .error (.unknownDomain domain) := (Answer.stored.inj (Outcome.answered.inj came)).1
      refine put_of_uninserted fun persistence inserted => ?_
      rw [inserted] at stored
      cases stored

theorem told_filter {entries : List Entry} (observed : cache.Observed entries) :
    cache.told entries = cache.told (entries.filter fun entry => !entry.inserted) := by
  induction entries generalizing cache with
  | nil => rfl
  | cons entry rest ih =>
      obtain ⟨looks, later⟩ := observed
      cases inserted : entry.inserted with
      | true =>
          have same := use_of_looks (looks inserted) rfl
          rw [same] at later
          rw [List.filter_cons_of_neg (by simp [inserted]), ← ih later, told_cons, same,
            if_pos inserted]
      | false =>
          rw [List.filter_cons_of_pos (by simp [inserted]), told_cons, told_cons, ih later]

/-! ## At every moment -/

theorem use_after {accesses : List Access} (came : After first accesses other)
    (same : cache.bare = other.bare) (usage : Usage) :
    ∃ accesses other, After first accesses other ∧ (cache.use usage).2.bare = other.bare := by
  have unchanged : ∃ accesses other, After first accesses other ∧ cache.bare = other.bare :=
    ⟨accesses, other, came, same⟩
  cases usage with
  | totalSize | hasDomain | request => exact unchanged
  | disk change => exact unchanged
  | ask ask =>
      cases ask with
      | hashes | size => exact unchanged
      | flush => exact unchanged
      | call call =>
          refine ⟨_, _, came.accessed (other.access_accessed call), ?_⟩
          have alike := congrArg Prod.snd (cache.access_bare call)
          rw [same, access_bare] at alike
          exact (cache.answer_call call).2.trans alike.symm

theorem told_after {accesses : List Access} (came : After first accesses other)
    (same : cache.bare = other.bare) (entries : List Entry) :
    ∃ accesses other, After first accesses other ∧ (cache.told entries).2.bare = other.bare := by
  induction entries generalizing cache accesses other with
  | nil => exact ⟨accesses, other, came, same⟩
  | cons entry rest ih =>
      obtain ⟨accesses, other, came, same⟩ := use_after came same entry.usage
      exact ih came same

/-- Uses that only look can be put anywhere in a run, and all others come to the same, with the same
cache behind them.  At every moment what is reported for a domain is what lookups would find. -/
theorem looking_unnoticed {domains : List String} {settings : CacheSettings} {volume : Volume}
    (built : build domains settings volume = .ok first) (entries : List Entry)
    (observed : first.Observed entries) :
    first.told entries = first.told (entries.filter fun entry => !entry.inserted) ∧
      ∀ moment domain, Reported (first.told (entries.take moment)).2 domain := by
  refine ⟨told_filter observed, fun moment => reported_of_nodup fun name => ?_⟩
  obtain ⟨accesses, other, came, same⟩ := told_after .start rfl (entries.take moment)
  rw [partition, partitions_of_bare same, ← partition]
  exact (came.recorded built).nodup name

/-- Whatever looks between two insertions, the entry that came first leaves for the third, and the
other two are reported. -/
theorem first_entry_leaves_when_looked_at :
    let first : ContentCache := { partitions := [("example.com", [])], maxEntries := 2 }
    let router : Router := { table := ⟨[("example.com", ⟨"10.0.0.1", 80⟩)]⟩ }
    let head : RequestHead :=
      { method := "GET", uri := .rooted "/" none
        headers := [⟨"host", Bytes.ofText "Example.COM"⟩, ⟨HopByHop.directName, [49]⟩] }
    let put (domain path : String) (body : Bytes) : Usage :=
      .ask (.call (.put ⟨domain, path, body, []⟩))
    let get (path : String) : Usage := .ask (.call (.get "example.com" path))
    let run : List Entry := [
      ⟨put "other.org" "/a" [1], true⟩, ⟨put "example.com" "/a" [1], false⟩, ⟨get "/b", true⟩,
      ⟨put "example.com" "/b" [2], false⟩, ⟨put "example.com" "/a" [3], true⟩,
      ⟨.ask (.hashes "example.com"), true⟩, ⟨.hasDomain "example.com", true⟩,
      ⟨.ask (.size "example.com"), true⟩, ⟨.totalSize, true⟩,
      ⟨.request router none false head, true⟩,
      ⟨put "example.com" "/c" [4], false⟩, ⟨get "/a", false⟩,
      ⟨.ask (.hashes "example.com"), false⟩]
    build ["Example.com"] { maxEntries := 2 } (.error .notFound) = .ok first ∧
      first.Observed run ∧
      (first.told run).1 = [
        .answered (.stored (.ok (.inserted .disabled)) none),
        .answered (.stored (.ok (.inserted .disabled)) none),
        .answered (.stored (.ok (.inserted .disabled)) (some "/a")), .answered (.found none),
        .answered (.hashes [
          ("/b", "dbc1b4c900ffe48d575b5da5c638040125f65db0fe3e24494b76ea986457d986"),
          ("/c", "e52d9c508c502347344d8c07ad91cbd6068afc75ff6292f062a09ca381c89e71")])] := by
  intro first router head put get run
  have built : build ["Example.com"] { maxEntries := 2 } (.error .notFound) = .ok first := by
    rfl
  have own {looked : Prop} (given : false = true) : looked := absurd given Bool.false_ne_true
  have observed : first.Observed run := by
    refine ⟨fun _ => ?refused, own, fun _ => ?missed, own, fun _ => ?kept, fun _ => .hashes _ _,
      fun _ => .hasDomain _ _, fun _ => .size _ _, fun _ => .totalSize _, fun _ => ?direct,
      own, own, own, trivial⟩
    case refused => exact .refused _ "other.org" none
    case missed => exact .missed _ _
    case kept => exact .kept _ none
    case direct => exact .direct _ _ _ _ _
  have second : Sha256.hexDigest [2] =
      "dbc1b4c900ffe48d575b5da5c638040125f65db0fe3e24494b76ea986457d986" := by decide +kernel
  have third : Sha256.hexDigest [4] =
      "e52d9c508c502347344d8c07ad91cbd6068afc75ff6292f062a09ca381c89e71" := by decide +kernel
  have sorted (one other : String) :
      Keyed.sorted [("/c", other), ("/b", one)] = [("/b", one), ("/c", other)] := by
    simp [Keyed.sorted, List.mergeSort, List.MergeSort.Internal.splitInTwo]
  refine ⟨built, observed, ?_⟩
  rw [(looking_unnoticed built run observed).1, ← second, ← third, ← sorted]
  rfl

end ContentCache

end CachingProxy
