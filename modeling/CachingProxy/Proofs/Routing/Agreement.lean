import CachingProxy.Proofs.Cache.Names
import CachingProxy.Proofs.Cache.Recent
import CachingProxy.Proofs.Cache.Residence
import CachingProxy.Proofs.Routing.Forwarded
import CachingProxy.Proofs.Sharing.Persistence
import CachingProxy.Proofs.Sharing.Separation
import CachingProxy.Server.Server

/-!
# What a server is made of fits together

A name is brought into canonical form in four places: where the configuration is checked, in the
table of origins, in the cache, and at a request.  For a valid configuration they agree: the table
and the cache have one key for each configured domain, the same ones, and whatever is dispatched to
a session has an origin and a partition.
-/

set_option autoImplicit false

namespace CachingProxy

/-! ## Valid configurations -/

namespace Config

def names (config : Config) : List String :=
  config.protectedDomains.map fun entry => Domain.normalize entry.domain

def origin (entry : Domain.Entry) : Endpoint := ⟨Text.trimmed entry.originHost, entry.originPort⟩

theorem validateEntries_apart {seen : List String} {entries : List Domain.Entry}
    (valid : validateEntries seen entries = .ok ()) :
    (entries.map fun entry => Domain.normalize entry.domain).Nodup ∧
      ∀ entry ∈ entries, Domain.normalize entry.domain ∉ seen := by
  induction entries generalizing seen with
  | nil => exact ⟨List.nodup_nil, by simp⟩
  | cons entry rest ih =>
      rw [validateEntries] at valid
      split at valid
      · cases valid
      split at valid
      · cases valid
      split at valid
      · cases valid
      · rename_i unseen
        obtain ⟨apart, later⟩ := ih valid
        have new : Domain.normalize entry.domain ∉ seen := by simpa using unseen
        rw [List.map_cons, List.nodup_cons]
        refine ⟨⟨fun again => ?_, apart⟩, fun other member => ?_⟩
        · obtain ⟨other, member, same⟩ := List.mem_map.mp again
          exact later other member (List.mem_cons.mpr (.inl same))
        · rcases List.mem_cons.mp member with rfl | member
          · exact new
          · exact fun before => later other member (List.mem_cons_of_mem _ before)

theorem entries_of_validate {config : Config} (valid : config.validate = .ok ()) :
    validateEntries [] config.protectedDomains = .ok () ∧ config.cache.maxEntries ≠ 0 := by
  rw [validate] at valid
  split at valid
  · cases valid
  · cases checked : validateEntries [] config.protectedDomains with
    | error cause =>
        rw [checked] at valid
        cases valid
    | ok =>
        refine ⟨rfl, fun none => ?_⟩
        rw [checked, if_pos none] at valid
        cases valid

theorem names_nodup {config : Config} (valid : config.validate = .ok ()) : config.names.Nodup :=
  (validateEntries_apart (entries_of_validate valid).1).1

theorem entry_unique {config : Config} (valid : config.validate = .ok ())
    {entry other : Domain.Entry} (member : entry ∈ config.protectedDomains)
    (member' : other ∈ config.protectedDomains)
    (same : Domain.normalize other.domain = Domain.normalize entry.domain) : other = entry :=
  List.inj_on_of_nodup_map (names_nodup valid) member' member same

theorem table_eq {config : Config} (valid : config.validate = .ok ()) :
    (Domain.Table.ofEntries config.protectedDomains).origins =
      config.protectedDomains.map fun entry => (Domain.normalize entry.domain, origin entry) := by
  refine Keyed.ofEntries_of_nodup ?_
  rw [List.map_map]
  exact names_nodup valid

end Config

/-! ## The cache of a server -/

namespace ContentCache

variable {first cache next : ContentCache} {accesses : List Access} {access : Access}

theorem Accessed.keys_partitions (accessed : Accessed cache access next) :
    next.partitions.keys = cache.partitions.keys := by
  cases accessed with
  | missed | refused | kept => rfl
  | hit known | inserted known => exact Keyed.keys_put_of_present (has_of_key? known) _

theorem After.keys_partitions (came : After first accesses cache) :
    cache.partitions.keys = first.partitions.keys := by
  induction came with
  | start => rfl
  | accessed _ accessed ih => exact accessed.keys_partitions.trans ih
  | persisted _ route ih =>
      rw [(persist_partitions _ route).1]
      exact ih

theorem build_of_opens {settings : CacheSettings} {volume : Volume} (domains : List String)
    (room : settings.maxEntries ≠ 0)
    (opens : settings.diskPath = none ∨ ∃ tree, volume = .ok tree) :
    ∃ cache, build domains settings volume = .ok cache := by
  rw [build, if_neg room]
  rcases opens with memory | ⟨tree, rfl⟩
  · rw [memory]
    exact ⟨_, rfl⟩
  · split <;> exact ⟨_, rfl⟩

theorem keys_of_build {settings : CacheSettings} {volume : Volume} {domains : List String}
    (built : build domains settings volume = .ok cache)
    (nodup : (domains.map Domain.normalize).Nodup) :
    cache.partitions.keys = domains.map Domain.normalize := by
  have same : (domains.map fun domain => (Domain.normalize domain, ([] : Recency Route))).map
      Prod.fst = domains.map Domain.normalize := by
    rw [List.map_map]
    rfl
  rw [(build_partitions built).1, Keyed.ofEntries_of_nodup (same.symm ▸ nodup), Keyed.keys, same]

theorem Canonical.get_fst (canonical : Canonical cache) {domain : String}
    (known : cache.partitions.has (Domain.normalize domain) = true) (path : String) :
    (cache.get domain path).1 = Keyed.get? (cache.partition (Domain.normalize domain)) path := by
  have keyed : cache.key? domain = some (Domain.normalize domain) := by
    rw [canonical.key?_eq, if_pos known]
  rw [get_of_known keyed]

theorem Canonical.mem_assetHashes_iff (canonical : Canonical cache) {domain : String}
    (known : cache.partitions.has (Domain.normalize domain) = true)
    (nodup : (cache.partition (Domain.normalize domain)).keys.Nodup) (path hash : String) :
    (path, hash) ∈ cache.assetHashes domain ↔
      ∃ route, (cache.get domain path).1 = some route ∧ route.hash = hash := by
  rw [assetHashes, Keyed.sorted, List.mem_mergeSort, canonical.entries?_eq, ← partition,
    List.mem_map, canonical.get_fst known]
  constructor
  · rintro ⟨⟨other, route⟩, member, same⟩
    obtain ⟨rfl, rfl⟩ := Prod.mk.inj same
    exact ⟨route, Keyed.get?_of_mem nodup member, rfl⟩
  · rintro ⟨route, found, rfl⟩
    exact ⟨(path, route), (Keyed.mem_iff_get? nodup).mpr found, rfl⟩

theorem partitions_of_bare {one other : ContentCache} (same : one.bare = other.bare) :
    one.partitions = other.partitions := by
  have bare : one.bare.partitions = other.bare.partitions := by rw [same]
  exact bare

theorem bare_call_congr {one other : ContentCache} (same : one.bare = other.bare) (call : Call) :
    (one.call call).2.bare = (other.call call).2.bare := by
  have accessed (cache : ContentCache) :
      (cache.call call).2.bare = (cache.bare.access call).2 := by
    rw [access_bare, call_eq]
    split
    · exact bare_persist _ _
    · rfl
  rw [accessed, accessed, same]

theorem Canonical.put_of_known (canonical : Canonical cache) {offer : Offer}
    (known : cache.partitions.has (Domain.normalize offer.domain) = true) :
    ∃ outcome, (cache.put offer.domain offer.path offer.content offer.headers).1 = .ok outcome := by
  rcases cache.put_cases offer with ⟨unknown, -⟩ | ⟨key, -, ⟨-, same⟩ | ⟨-, ⟨_, same⟩, -⟩⟩
  · rw [canonical.key?_eq, if_pos known] at unknown
    cases unknown
  · exact ⟨_, congrArg Prod.fst same⟩
  · exact ⟨_, same⟩

end ContentCache

namespace Server

/-- What the cache of a server comes to: sessions step on it, others call it, and its disk works. -/
inductive Reaches (server : Server) : ContentCache → Prop where
  | start : Reaches server server.cache
  | stepped {cache : ContentCache} (before : Reaches server cache) (session : Session)
      (event : Session.Event) : Reaches server (session.step cache event).1
  | called {cache : ContentCache} (before : Reaches server cache) (call : Call) :
      Reaches server (cache.call call).2
  | worked {cache : ContentCache} (before : Reaches server cache)
      (change : Disk.Archive → Disk.Archive) : Reaches server (cache.mapArchive change)

theorem Reaches.after {server : Server} {cache : ContentCache} (reached : server.Reaches cache) :
    ∃ accesses other, ContentCache.After server.cache accesses other ∧
      cache.bare = other.bare := by
  have called {cache : ContentCache} (call : Call)
      (came : ∃ accesses other, ContentCache.After server.cache accesses other ∧
        cache.bare = other.bare) :
      ∃ accesses other, ContentCache.After server.cache accesses other ∧
        (cache.call call).2.bare = other.bare := by
    obtain ⟨accesses, other, came, same⟩ := came
    exact ⟨_, _, came.call call, ContentCache.bare_call_congr same call⟩
  induction reached with
  | start => exact ⟨[], _, .start, rfl⟩
  | @stepped cache _ session event ih =>
      rcases session.step_cache cache event with
        kept | ⟨-, head, -, -, looked⟩ | ⟨offer, -, stored⟩
      · rwa [kept]
      · rw [looked]
        exact called (.get session.domain head.path) ih
      · rw [stored, World.storeIn_eq_call]
        exact called (.put offer) ih
  | called _ call ih => exact called call ih
  | worked _ change ih =>
      rw [ContentCache.bare_mapArchive]
      exact ih

/-- The parts of a server are those its configuration describes. -/
structure Made (config : Config) (workerFile : Except SystemError Bytes) (server : Server) :
    Prop where
  valid : config.validate = .ok ()
  built : ∃ volume, ContentCache.build (config.protectedDomains.map Domain.Entry.domain)
    config.cache.cacheSettings volume = .ok server.cache
  routed : server.router = Router.withWorkerFile config workerFile

theorem made_of_opens {config : Config} {volume : ContentCache.Volume}
    (workerFile : Except SystemError Bytes) (valid : config.validate = .ok ())
    (opens : config.cache.diskPath = "" ∨ ∃ tree, volume = .ok tree) :
    ∃ server, ofConfig config volume workerFile = .ok server ∧ Made config workerFile server := by
  have room : config.cache.cacheSettings.maxEntries ≠ 0 := fun none =>
    (Config.entries_of_validate valid).2 (UInt64.toNat_inj.mp none)
  have opened : config.cache.cacheSettings.diskPath = none ∨ ∃ tree, volume = .ok tree := by
    refine opens.imp_left fun memory => ?_
    rw [Config.StoreSettings.cacheSettings, memory]
    rfl
  obtain ⟨cache, built⟩ := ContentCache.build_of_opens
    (config.protectedDomains.map Domain.Entry.domain) room opened
  rw [ofConfig, valid, built]
  exact ⟨_, rfl, valid, ⟨volume, built⟩, rfl⟩

namespace Made

variable {config : Config} {workerFile : Except SystemError Bytes} {server : Server}
  {cache : ContentCache}

theorem keys_partitions (made : Made config workerFile server) (reached : server.Reaches cache) :
    cache.partitions.keys = config.names := by
  obtain ⟨volume, built⟩ := made.built
  obtain ⟨accesses, other, came, same⟩ := reached.after
  have partitions := ContentCache.partitions_of_bare same
  have names : (config.protectedDomains.map Domain.Entry.domain).map Domain.normalize =
      config.names := by
    rw [List.map_map]
    rfl
  rw [partitions, came.keys_partitions,
    ContentCache.keys_of_build built (names.symm ▸ Config.names_nodup made.valid), names]

theorem has_partition (made : Made config workerFile server) (reached : server.Reaches cache)
    {name : String} (known : name ∈ config.names) : cache.partitions.has name = true := by
  rwa [← Keyed.mem_keys_iff, made.keys_partitions reached]

theorem canonical (made : Made config workerFile server) (reached : server.Reaches cache) :
    ContentCache.Canonical cache ∧ ∀ name, (cache.partition name).keys.Nodup := by
  obtain ⟨volume, built⟩ := made.built
  obtain ⟨accesses, other, came, same⟩ := reached.after
  have partitions := ContentCache.partitions_of_bare same
  have recorded := came.recorded built
  refine ⟨?_, fun name => ?_⟩
  · rw [ContentCache.Canonical, partitions]
    exact recorded.canonical
  · rw [ContentCache.partition, partitions]
    exact recorded.nodup name

end Made

end Server

/-! ## What is dispatched -/

namespace Config

def worker? (config : Config) (workerFile : Except SystemError Bytes) : Option ServiceWorker :=
  if config.serviceWorker.enabled then
    workerFile.toOption.map fun payload => ⟨payload, config.serviceWorker.route⟩
  else none

/-- The request is for a configured domain. -/
def Protects (config : Config) (head : RequestHead) (domain : String) : Prop :=
  Domain.resolve head.uri head.headers = some domain ∧ Domain.normalize domain ∈ config.names

def Upgrades (config : Config) (secure : Bool) : Prop :=
  config.server.upgradeInsecure = true ∧ secure = false

def AsksWorker (config : Config) (workerFile : Except SystemError Bytes) (head : RequestHead) :
    Prop :=
  ∃ worker, config.worker? workerFile = some worker ∧ head.uri.pathText = worker.route

/-- The one entry a domain is configured by. -/
structure EntryOf (config : Config) (domain : String) (entry : Domain.Entry) : Prop where
  listed : entry ∈ config.protectedDomains
  named : Domain.normalize entry.domain = Domain.normalize domain
  unique : ∀ other ∈ config.protectedDomains,
    Domain.normalize other.domain = Domain.normalize domain → other = entry

/-- The kind of handler a request is given, each kind if and only if those before it do not fit. -/
structure Dispatches (config : Config) (workerFile : Except SystemError Bytes)
    (cache : ContentCache) (edge : Option EdgeNodes) (secure : Bool) (head : RequestHead)
    (handler : Handler) : Prop where
  rejected : (∃ status message, handler = .reject status message) ↔
    ∀ domain, ¬ config.Protects head domain
  redirected : ∀ domain, config.Protects head domain →
    ((∃ location, handler = .redirect location) ↔ config.Upgrades secure)
  reported : ∀ domain, config.Protects head domain → ¬ config.Upgrades secure →
    ((∃ report, handler = .direct report) ↔ head.headers.has HopByHop.directName = true)
  listed : ∀ domain report, config.Protects head domain → handler = .direct report →
    report.edgeNodes = edge.map EdgeNodes.nodes ∧ ∀ path hash, (path, hash) ∈ report.assetHashes ↔
      ∃ route, (cache.get domain path).1 = some route ∧ route.hash = hash
  served : ∀ domain, config.Protects head domain → ¬ config.Upgrades secure →
    ¬ head.headers.has HopByHop.directName = true →
    ((∃ payload contentType, handler = .payload payload contentType) ↔
      config.AsksWorker workerFile head)
  passed : ∀ domain, config.Protects head domain → ¬ config.Upgrades secure →
    ¬ head.headers.has HopByHop.directName = true → ¬ config.AsksWorker workerFile head →
    ∃ entry, config.EntryOf domain entry ∧ cache.hasDomain domain = true ∧
      handler = .proxy (Session.fresh domain (some (origin entry))
        ((config.worker? workerFile).map ServiceWorker.inject))

theorem entryOf_of_mem {config : Config} (valid : config.validate = .ok ()) {domain : String}
    (known : Domain.normalize domain ∈ config.names) : ∃ entry, config.EntryOf domain entry := by
  obtain ⟨entry, member, named⟩ := List.mem_map.mp known
  exact ⟨entry, member, named, fun other member' same =>
    entry_unique valid member member' (same.trans named.symm)⟩

end Config

namespace Router

theorem withWorkerFile_eq (config : Config) (workerFile : Except SystemError Bytes) :
    withWorkerFile config workerFile =
      { ofConfig config with worker := config.worker? workerFile } := by
  rw [withWorkerFile, Config.worker?]
  split
  · cases workerFile <;> rfl
  · rfl

/-- How a request for a domain of the table is handled. -/
inductive Handles (router : Router) (cache : ContentCache) (edge : Option EdgeNodes)
    (secure : Bool) (head : RequestHead) (domain : String) : Handler → Prop where
  | redirected (plain : router.upgradeInsecure = true ∧ secure = false) :
      Handles router cache edge secure head domain
        (.redirect (router.redirectLocation head domain))
  | reported (settled : ¬ (router.upgradeInsecure = true ∧ secure = false))
      (asked : head.headers.has HopByHop.directName = true) :
      Handles router cache edge secure head domain (.direct (report cache edge domain))
  | served (settled : ¬ (router.upgradeInsecure = true ∧ secure = false))
      (unasked : ¬ head.headers.has HopByHop.directName = true) {payload : Bytes}
      (found : router.payload? head.uri = some payload) :
      Handles router cache edge secure head domain (.payload payload ServiceWorker.payloadType)
  | passed (settled : ¬ (router.upgradeInsecure = true ∧ secure = false))
      (unasked : ¬ head.headers.has HopByHop.directName = true)
      (unserved : router.payload? head.uri = none) :
      Handles router cache edge secure head domain (.proxy (router.session domain))

theorem dispatch_handles {router : Router} {head : RequestHead} {domain : String}
    (resolved : Domain.resolve head.uri head.headers = some domain)
    (known : router.table.contains domain = true) (cache : ContentCache) (edge : Option EdgeNodes)
    (secure : Bool) :
    router.Handles cache edge secure head domain (router.dispatch cache edge secure head) := by
  rw [dispatch, resolved]
  simp only [known, Bool.not_true, Bool.false_eq_true, if_false]
  split
  · rename_i plain
    exact .redirected (by simpa using plain)
  rename_i settled
  replace settled : ¬ (router.upgradeInsecure = true ∧ secure = false) := by simpa using settled
  split
  · rename_i asked
    exact .reported settled asked
  rename_i unasked
  split
  · rename_i payload found
    exact .served settled unasked found
  · rename_i unserved
    exact .passed settled unasked unserved

theorem dispatch_of_missing {router : Router} {head : RequestHead}
    (missing : ∀ domain, Domain.resolve head.uri head.headers = some domain →
      router.table.contains domain = false) (cache : ContentCache) (edge : Option EdgeNodes)
    (secure : Bool) :
    ∃ status message, router.dispatch cache edge secure head = .reject status message := by
  rw [dispatch]
  cases resolved : Domain.resolve head.uri head.headers with
  | none => exact ⟨_, _, rfl⟩
  | some domain =>
      simp only [missing domain resolved, Bool.not_false, if_true]
      exact ⟨_, _, rfl⟩

end Router

namespace Server.Made

variable {config : Config} {workerFile : Except SystemError Bytes} {server : Server}
  {cache : ContentCache} {head : RequestHead} {domain : String}

theorem router_eq (made : Made config workerFile server) :
    server.router =
      { Router.ofConfig config with worker := config.worker? workerFile } :=
  made.routed.trans (Router.withWorkerFile_eq config workerFile)

theorem origins_eq (made : Made config workerFile server) :
    server.router.table.origins = config.protectedDomains.map fun entry =>
      (Domain.normalize entry.domain, Config.origin entry) := by
  rw [made.router_eq]
  exact Config.table_eq made.valid

theorem keys_origins (made : Made config workerFile server) :
    server.router.table.origins.keys = config.names := by
  rw [made.origins_eq, Keyed.keys, List.map_map]
  rfl

theorem contains_iff (made : Made config workerFile server) :
    server.router.table.contains domain = true ↔ Domain.normalize domain ∈ config.names := by
  rw [Domain.Table.contains, ← Keyed.mem_keys_iff, made.keys_origins]

theorem origin?_eq (made : Made config workerFile server) {entry : Domain.Entry}
    (configured : config.EntryOf domain entry) :
    server.router.table.origin? domain = some (Config.origin entry) := by
  rw [Domain.Table.origin?]
  refine Keyed.get?_of_mem ?_ ?_
  · rw [made.keys_origins]
    exact Config.names_nodup made.valid
  · rw [made.origins_eq, ← configured.named]
    exact List.mem_map_of_mem configured.listed

theorem payload?_eq_none_iff (made : Made config workerFile server) :
    server.router.payload? head.uri = none ↔ ¬ config.AsksWorker workerFile head := by
  rw [made.router_eq, Router.payload?, Config.AsksWorker]
  cases loaded : config.worker? workerFile with
  | none => simp
  | some worker => simp

theorem session_eq (made : Made config workerFile server) {entry : Domain.Entry}
    (configured : config.EntryOf domain entry) :
    server.router.session domain = Session.fresh domain (some (Config.origin entry))
      ((config.worker? workerFile).map ServiceWorker.inject) := by
  rw [Router.session, made.origin?_eq configured, made.router_eq, Session.fresh]

theorem hasDomain (made : Made config workerFile server) (reached : server.Reaches cache)
    (known : Domain.normalize domain ∈ config.names) : cache.hasDomain domain = true := by
  rw [ContentCache.hasDomain, (made.canonical reached).1.key?_eq,
    if_pos (made.has_partition reached known)]
  rfl

theorem handles (made : Made config workerFile server) (here : config.Protects head domain)
    (cache : ContentCache) (edge : Option EdgeNodes) (secure : Bool) :
    server.router.Handles cache edge secure head domain
      (server.router.dispatch cache edge secure head) :=
  Router.dispatch_handles here.1 (made.contains_iff.mpr here.2) cache edge secure

theorem upgrades_iff (made : Made config workerFile server) {secure : Bool} :
    (server.router.upgradeInsecure = true ∧ secure = false) ↔ config.Upgrades secure := by
  rw [made.router_eq, Config.Upgrades]
  rfl

theorem dispatches (made : Made config workerFile server) (reached : server.Reaches cache)
    (edge : Option EdgeNodes) (secure : Bool) (head : RequestHead) :
    config.Dispatches workerFile cache edge secure head
      (server.router.dispatch cache edge secure head) := by
  have handles := fun domain (here : config.Protects head domain) =>
    made.handles here cache edge secure
  have rejects (missing : ∀ domain, ¬ config.Protects head domain) :
      ∃ status message, server.router.dispatch cache edge secure head = .reject status message := by
    refine Router.dispatch_of_missing (fun domain resolved => ?_) cache edge secure
    rw [Bool.eq_false_iff, ne_eq, made.contains_iff]
    exact fun known => missing domain ⟨resolved, known⟩
  generalize server.router.dispatch cache edge secure head = handler at handles rejects ⊢
  constructor
  case rejected =>
    refine ⟨?_, rejects⟩
    rintro ⟨status, message, rfl⟩ domain here
    cases handles domain here
  case redirected =>
    intro domain here
    rw [← made.upgrades_iff]
    cases handles domain here with
    | redirected plain => exact ⟨fun _ => plain, fun _ => ⟨_, rfl⟩⟩
    | reported settled | served settled | passed settled => simp [settled]
  case reported =>
    intro domain here settled
    rw [← made.upgrades_iff] at settled
    cases handles domain here with
    | redirected plain => exact absurd plain settled
    | reported _ asked => exact ⟨fun _ => asked, fun _ => ⟨_, rfl⟩⟩
    | served _ unasked | passed _ unasked => simp [unasked]
  case listed =>
    rintro domain report here rfl
    cases handles domain here
    have canonical := made.canonical reached
    exact ⟨rfl, canonical.1.mem_assetHashes_iff (made.has_partition reached here.2)
      (canonical.2 _)⟩
  case served =>
    intro domain here settled unasked
    rw [← made.upgrades_iff] at settled
    cases handles domain here with
    | redirected plain => exact absurd plain settled
    | reported _ asked => exact absurd asked unasked
    | served _ _ found =>
        refine ⟨fun _ => ?_, fun _ => ⟨_, _, rfl⟩⟩
        by_contra elsewhere
        rw [made.payload?_eq_none_iff.mpr elsewhere] at found
        cases found
    | passed _ _ unserved => simp [made.payload?_eq_none_iff.mp unserved]
  case passed =>
    intro domain here settled unasked elsewhere
    rw [← made.upgrades_iff] at settled
    obtain ⟨entry, configured⟩ := Config.entryOf_of_mem made.valid here.2
    refine ⟨entry, configured, made.hasDomain reached here.2, ?_⟩
    rw [← made.session_eq configured]
    cases handles domain here with
    | redirected plain => exact absurd plain settled
    | reported _ asked => exact absurd asked unasked
    | served _ _ found =>
        rw [made.payload?_eq_none_iff.mpr elsewhere] at found
        cases found
    | passed => rfl

end Server.Made

/-! ## What cannot happen to a session -/

namespace Session

section

variable {cache : ContentCache} {session : Session} {event : Event}
  {result : Session × List Action}

theorem Moves.origin_eq (rule : Moves cache session event result) :
    result.1.origin = session.origin ∧ result.1.transform = session.transform := by
  cases rule with
  | unconnectedAlone =>
      rw [abortClient, releaseIfDone]
      split <;> exact ⟨rfl, rfl⟩
  | _ => exact ⟨rfl, rfl⟩

theorem play_origin (session : Session) (turns : List Turn) :
    (session.play turns).1.origin = session.origin ∧
      (session.play turns).1.transform = session.transform := by
  induction turns using List.reverseRecOn with
  | nil => exact ⟨rfl, rfl⟩
  | append_singleton turns turn ih =>
      rw [play_concat]
      rcases (session.play turns).1.take_cases turn with ⟨_, same⟩ | ⟨_, _, rule⟩
      · rw [same]
        exact ih
      · exact ⟨rule.origin_eq.1.trans ih.1, rule.origin_eq.2.trans ih.2⟩

end

theorem answered_at_request {session : Session} (supplied : session.origin ≠ none)
    (cache : ContentCache) (head : RequestHead) {response : Response}
    (answered : .respond response ∈ (session.step cache (.request head)).2.2) :
    ∃ route, (cache.get session.domain head.path).1 = some route ∧
      response = hitResponse session.transform route := by
  rcases session.take_cases ⟨cache, .request head⟩ with ⟨_, same⟩ | ⟨_, _, rule⟩
  · rw [take] at same
    rw [same] at answered
    cases answered
  · rw [take] at rule
    generalize (session.step cache (.request head)).2 = result at rule answered
    cases rule with
    | hit _ _ found =>
        obtain rfl := Action.respond.inj (List.mem_singleton.mp answered)
        exact ⟨_, found, rfl⟩
    | unserved _ _ nowhere => exact absurd nowhere supplied
    | asked => simp at answered

theorem status_hitResponse (transform : Option Transform) (route : Route) :
    (hitResponse transform route).head.status = 200 := by
  rw [hitResponse.eq_def]
  split
  · split
    · split <;> rfl
    · rfl
  · rfl

end Session

theorem Session.domain_of_offer {session : Session} {event : Session.Event} {offer : Offer}
    (offered : session.offer? event = some offer) : offer.domain = session.domain := by
  obtain ⟨rfl, -⟩ := Session.running_of_offer offered
  have calls : session.call? .originEom = some (.put offer) :=
    congrArg (Option.map Call.put) offered
  exact World.name_of_call? calls

namespace Server

/-- A session of a server has where to ask and where to store.  So it answers no request for want of
an origin, and none of its offers is refused as for an unknown domain. -/
structure Supplies (server : Server) (session : Session) : Prop where
  answered : ∀ turns cache head response,
    .respond response ∈ ((session.play turns).1.step cache (.request head)).2.2 →
      response.head.status = 200 ∧ ∃ route, (cache.get session.domain head.path).1 = some route ∧
        response = Session.hitResponse session.transform route
  stored : ∀ turns cache event offer, server.Reaches cache →
    (session.play turns).1.offer? event = some offer →
      ∃ outcome, (cache.put offer.domain offer.path offer.content offer.headers).1 = .ok outcome

theorem Made.supplies {config : Config} {workerFile : Except SystemError Bytes} {server : Server}
    (made : Made config workerFile server) {domain : String}
    (known : Domain.normalize domain ∈ config.names) (endpoint : Endpoint)
    (transform : Option Transform) :
    server.Supplies (Session.fresh domain (some endpoint) transform) := by
  refine ⟨fun turns cache head response answered => ?_,
    fun turns cache event offer reached offered => ?_⟩
  · obtain ⟨origin, change⟩ :=
      (Session.fresh domain (some endpoint) transform).play_origin turns
    have home := (Session.fresh domain (some endpoint) transform).play_domain turns
    have supplied : ((Session.fresh domain (some endpoint) transform).play turns).1.origin ≠
        none := by
      rw [origin]
      exact Option.some_ne_none endpoint
    obtain ⟨route, found, same⟩ := Session.answered_at_request supplied cache head answered
    rw [home] at found
    rw [change] at same
    exact ⟨same ▸ Session.status_hitResponse _ route, route, found, same⟩
  · have home : offer.domain = domain := by
      rw [Session.domain_of_offer offered, Session.play_domain, Session.fresh]
    refine (made.canonical reached).1.put_of_known (made.has_partition reached ?_)
    rwa [home]

theorem Made.supplies_dispatched {config : Config} {workerFile : Except SystemError Bytes}
    {server : Server} {cache : ContentCache} {edge : Option EdgeNodes} {secure : Bool}
    {head : RequestHead} {session : Session} (made : Made config workerFile server)
    (reached : server.Reaches cache)
    (routed : server.router.dispatch cache edge secure head = .proxy session) :
    server.Supplies session := by
  have known : ∃ domain, config.Protects head domain := by
    by_contra missing
    obtain ⟨_, _, rejected⟩ :=
      (made.dispatches reached edge secure head).rejected.mpr (not_exists.mp missing)
    rw [rejected] at routed
    cases routed
  obtain ⟨domain, here⟩ := known
  have handled := made.handles here cache edge secure
  rw [routed] at handled
  cases handled
  obtain ⟨entry, configured⟩ := Config.entryOf_of_mem made.valid here.2
  rw [made.session_eq configured]
  exact made.supplies here.2 _ _

/-- For a valid configuration whose disk opens, the table of origins and the cache have the
configured names as their keys, each once, and keep them whatever is done.  A request is then
handled by the first of the five ways that fits.  A session is given the origin of the one entry of
its domain, and that domain has a partition, so the session neither lacks an origin nor is refused
by the cache. -/
theorem components_agree (config : Config) (volume : ContentCache.Volume)
    (workerFile : Except SystemError Bytes) (valid : config.validate = .ok ())
    (opens : config.cache.diskPath = "" ∨ ∃ tree, volume = .ok tree) :
    ∃ server, ofConfig config volume workerFile = .ok server ∧ config.names.Nodup ∧
      (server.router.table.origins = config.protectedDomains.map fun entry =>
        (Domain.normalize entry.domain, Config.origin entry)) ∧
      ∀ cache, server.Reaches cache → cache.partitions.keys = config.names ∧
        ∀ edge secure head,
          config.Dispatches workerFile cache edge secure head
            (server.router.dispatch cache edge secure head) ∧
          ∀ session, server.router.dispatch cache edge secure head = .proxy session →
            server.Supplies session := by
  obtain ⟨server, opened, made⟩ := made_of_opens workerFile valid opens
  refine ⟨server, opened, Config.names_nodup valid, made.origins_eq, fun cache reached =>
    ⟨made.keys_partitions reached, fun edge secure head =>
      ⟨made.dispatches reached edge secure head, fun _ routed =>
        made.supplies_dispatched reached routed⟩⟩⟩

/-- A domain configured with capitals and blanks, whose host field comes with a port. -/
theorem written_differently_everywhere :
    let config : Config := {
      cache := { maxEntries := 1 }
      protectedDomains := [⟨" Example.COM ", " 10.0.0.1 ", 8080⟩, ⟨"other.org", "10.0.0.2", 80⟩] }
    let head : RequestHead :=
      { method := "GET", uri := .rooted "/page" none
        headers := [⟨"host", Bytes.ofText "EXAMPLE.com:8080"⟩] }
    config.validate = .ok () ∧ config.cache.diskPath = "" ∧
      ∃ server, ofConfig config (.error .notFound) (.error .notFound) = .ok server ∧
        server.cache.partitions.keys = ["example.com", "other.org"] ∧
        server.router.dispatch server.cache none false head =
          .proxy (Session.fresh "example.com" (some ⟨"10.0.0.1", 8080⟩) none) := by
  intro config head
  have valid : config.validate = .ok () := by decide
  obtain ⟨server, opened, -, -, agree⟩ :=
    components_agree config (.error .notFound) (.error .notFound) valid (.inl rfl)
  obtain ⟨keys, dispatched⟩ := agree server.cache .start
  have here : config.Protects head "example.com" := ⟨by decide, by decide⟩
  obtain ⟨entry, configured, -, routed⟩ :=
    (dispatched none false head).1.passed "example.com" here (by simp [Config.Upgrades, config])
      (by decide) (by simp [Config.AsksWorker, Config.worker?, config])
  have only := configured.unique ⟨" Example.COM ", " 10.0.0.1 ", 8080⟩ (by decide) (by decide)
  refine ⟨valid, rfl, server, opened, keys.trans (by decide), ?_⟩
  rw [routed, ← only]
  rfl

end Server

end CachingProxy
