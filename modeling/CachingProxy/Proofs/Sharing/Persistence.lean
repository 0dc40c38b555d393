import CachingProxy.Proofs.Cache.Accesses

/-!
# The disk is not noticed

A cache answers from its partitions and its capacity alone, and nothing that happens to its archive
changes these.  So whatever the writer and the disk do meanwhile, and whichever routes they lose,
any number of callers are answered as by a cache without a disk; only the tag of an insertion tells
of the disk.
-/

set_option autoImplicit false

namespace CachingProxy

inductive Ask where
  | call (call : Call)
  | hashes (domain : String)
  | size (domain : String)
  | flush
  deriving DecidableEq

inductive Answer where
  | found (route : Option Route)
  | stored (outcome : Except StorageError PutOutcome) (evicted : Option String)
  | hashes (hashes : Keyed String String)
  | size (count : Nat)
  | flushed
  deriving DecidableEq

/-- The same answer with another tag, if it is that of an insertion. -/
def Answer.retag (tag : Disk.Persistence) : Answer → Answer
  | .stored (.ok (.inserted _)) evicted => .stored (.ok (.inserted tag)) evicted
  | answer => answer

def Answer.untagged (answer : Answer) : Answer := answer.retag .disabled

theorem Answer.untagged_retag (tag : Disk.Persistence) (answer : Answer) :
    (answer.retag tag).untagged = answer.untagged := by
  cases answer with
  | stored outcome evicted =>
      cases outcome with
      | ok outcome => cases outcome <;> rfl
      | error => rfl
  | found | hashes | size | flushed => rfl

def Access.answer : Access → Answer
  | .looked _ _ found => .found found
  | .inserted _ evicted => .stored (.ok (.inserted .disabled)) evicted
  | .kept _ => .stored (.ok .alreadyPresent) none
  | .refused offer => .stored (.error (.unknownDomain offer.domain)) none

theorem Access.untagged_answer (access : Access) : access.answer.untagged = access.answer := by
  cases access <;> rfl

namespace ContentCache

/-- The cache without its disk. -/
def bare (cache : ContentCache) : ContentCache := { cache with archive := none }

def answer (cache : ContentCache) : Ask → Answer × ContentCache
  | .call (.get domain path) =>
      let (found, next) := cache.get domain path
      (.found found, next)
  | .call (.put offer) =>
      let (outcome, next) := cache.put offer.domain offer.path offer.content offer.headers
      let evicted :=
        match outcome with
        | .ok (.inserted _) => cache.leaving? offer
        | _ => none
      (.stored outcome evicted, next)
  | .hashes domain => (.hashes (cache.assetHashes domain), cache)
  | .size domain => (.size (cache.size domain), cache)
  | .flush => (.flushed, cache.flush)

def answers (cache : ContentCache) : List Ask → List Answer × ContentCache
  | [] => ([], cache)
  | ask :: rest =>
      let (answer, next) := cache.answer ask
      let (answers, final) := next.answers rest
      (answer :: answers, final)

theorem answers_concat (cache : ContentCache) (asks : List Ask) (ask : Ask) :
    cache.answers (asks ++ [ask]) =
      ((cache.answers asks).1 ++ [((cache.answers asks).2.answer ask).1],
        ((cache.answers asks).2.answer ask).2) := by
  induction asks generalizing cache with
  | nil => rfl
  | cons first rest ih =>
      simp only [List.cons_append, answers, ih]

/-! ## Without the disk -/

theorem bare_mapArchive (cache : ContentCache) (change : Disk.Archive → Disk.Archive) :
    (cache.mapArchive change).bare = cache.bare := rfl

theorem bare_persist (cache : ContentCache) (route : Route) :
    (cache.persist route).2.bare = cache.bare := by
  rw [persist]
  split <;> rfl

theorem access_bare (cache : ContentCache) (call : Call) :
    cache.bare.access call = ((cache.access call).1, (cache.access call).2.bare) := by
  cases call with
  | get domain path =>
      simp only [access, get, show cache.bare.key? domain = cache.key? domain from rfl]
      cases cache.key? domain <;> rfl
  | put offer =>
      simp only [access, insert, leaving?,
        show cache.bare.key? offer.domain = cache.key? offer.domain from rfl]
      cases cache.key? offer.domain with
      | none => rfl
      | some key =>
          simp only [show cache.bare.partition key = cache.partition key from rfl]
          split <;> rfl

theorem answer_call (cache : ContentCache) (call : Call) :
    (cache.answer (.call call)).1.untagged = (cache.access call).1.answer ∧
      (cache.answer (.call call)).2.bare = (cache.access call).2.bare := by
  cases call with
  | get domain path => exact ⟨rfl, rfl⟩
  | put offer =>
      rw [answer, put, access, insert]
      cases cache.key? offer.domain with
      | none => exact ⟨rfl, rfl⟩
      | some key =>
          have entries : (cache.partitions.get? key).getD [] = cache.partition key := rfl
          by_cases present : Keyed.has (cache.partition key) offer.path = true
          · simp only [entries, if_pos present, and_true]
            rfl
          · simp only [entries, if_neg present]
            exact ⟨rfl, bare_persist _ _⟩

theorem answer_congr {one other : ContentCache} (same : one.bare = other.bare) (ask : Ask) :
    (one.answer ask).1.untagged = (other.answer ask).1.untagged ∧
      (one.answer ask).2.bare = (other.answer ask).2.bare := by
  cases ask with
  | call call =>
      have alike : ((one.access call).1, (one.access call).2.bare) =
          ((other.access call).1, (other.access call).2.bare) := by
        rw [← access_bare, same, access_bare]
      obtain ⟨answered, left⟩ := Prod.mk.inj alike
      rw [(one.answer_call call).1, (one.answer_call call).2, (other.answer_call call).1,
        (other.answer_call call).2]
      exact ⟨congrArg Access.answer answered, left⟩
  | hashes domain =>
      have hashes : one.bare.assetHashes domain = other.bare.assetHashes domain := by rw [same]
      exact ⟨congrArg Answer.hashes hashes, same⟩
  | size domain =>
      have size : one.bare.size domain = other.bare.size domain := by rw [same]
      exact ⟨congrArg Answer.size size, same⟩
  | flush => exact ⟨rfl, same⟩

end ContentCache

/-! ## Callers and a disk -/

inductive Posture where
  | ready
  /-- A put has stored its route and is to hand it over; its answer has a place in the log. -/
  | handing (place : Nat) (route : Route)
  | sending (ticket : Nat)
  | awaiting (ticket : Nat)

structure Client where
  asks : List Ask
  posture : Posture := .ready

structure Served where
  client : Nat
  ask : Ask
  answer : Answer

def Served.retag (tag : Disk.Persistence) (served : Served) : Served :=
  { served with answer := served.answer.retag tag }

structure Service where
  cache : ContentCache
  clients : List Client
  tickets : Nat := 0
  log : List Served := []

inductive Service.Event where
  | client (index : Nat)
  | disk (change : Disk.Archive → Disk.Archive)

namespace Service

def start (cache : ContentCache) (programs : List (List Ask)) : Service where
  cache := cache
  clients := programs.map fun asks => { asks }

/-- A client has its answer and goes on. -/
def tell (service : Service) (index : Nat) (ask : Ask) (answer : Answer) (cache : ContentCache)
    (client : Client) : Service :=
  { service with
    cache
    clients := service.clients.set index client
    log := service.log ++ [⟨index, ask, answer⟩] }

def turn (service : Service) (index : Nat) : Service :=
  match service.clients[index]? with
  | some ⟨asks, .handing place route⟩ =>
      let (tag, cache) := service.cache.persist route
      { service with
        cache
        clients := service.clients.set index { asks }
        log := service.log.modify place (Served.retag tag) }
  | some ⟨.call call :: rest, .ready⟩ =>
      let (access, cache) := service.cache.access call
      let posture :=
        match access.offer? with
        | some offer => .handing service.log.length offer.route
        | none => .ready
      service.tell index (.call call) access.answer cache ⟨rest, posture⟩
  | some ⟨.hashes domain :: rest, .ready⟩ =>
      service.tell index (.hashes domain) (.hashes (service.cache.assetHashes domain)) service.cache
        { asks := rest }
  | some ⟨.size domain :: rest, .ready⟩ =>
      service.tell index (.size domain) (.size (service.cache.size domain)) service.cache
        { asks := rest }
  | some ⟨.flush :: rest, .ready⟩ =>
      match service.cache.archive with
      | none => service.tell index .flush .flushed service.cache { asks := rest }
      | some _ =>
          { service with
            clients := service.clients.set index ⟨.flush :: rest, .sending service.tickets⟩
            tickets := service.tickets + 1 }
  | some ⟨.flush :: rest, .sending ticket⟩ =>
      if service.cache.archive.any fun archive => archive.waiting.length < archive.capacity then
        { service with
          cache := service.cache.mapArchive (·.requestFlush ticket)
          clients := service.clients.set index ⟨.flush :: rest, .awaiting ticket⟩ }
      else service
  | some ⟨.flush :: rest, .awaiting ticket⟩ =>
      if service.cache.archive.any fun archive => archive.answered.contains ticket then
        service.tell index .flush .flushed service.cache { asks := rest }
      else service
  | _ => service

def step (service : Service) : Event → Service
  | .client index => service.turn index
  | .disk change => { service with cache := service.cache.mapArchive change }

def run (service : Service) (events : List Event) : Service := events.foldl step service

def asked (index : Nat) (log : List Served) : List Ask :=
  (log.filter fun served => served.client == index).map Served.ask

theorem run_concat (service : Service) (events : List Event) (event : Event) :
    service.run (events ++ [event]) = (service.run events).step event := by
  rw [run, List.foldl_append]
  rfl

/-! ## What a step does -/

/-- An answer is told, or nothing that a client could notice happens. -/
inductive Steps (service : Service) : Service → Prop where
  | told (index : Nat) (ask : Ask) (rest : List Ask) (before after : Posture)
      (present : service.clients[index]? = some ⟨ask :: rest, before⟩)
      (answer : Answer) (cache : ContentCache)
      (answered : answer.untagged = (service.cache.answer ask).1.untagged)
      (left : cache.bare = (service.cache.answer ask).2.bare) :
      Steps service (service.tell index ask answer cache ⟨rest, after⟩)
  | quiet (next : Service) (cache : next.cache.bare = service.cache.bare)
      (clients : next.clients.map Client.asks = service.clients.map Client.asks)
      (log : next.log.map (Served.retag .disabled) = service.log.map (Served.retag .disabled)) :
      Steps service next

theorem map_asks_set {clients : List Client} {index : Nat} {asks : List Ask} {before : Posture}
    (present : clients[index]? = some ⟨asks, before⟩) (after : Posture) :
    (clients.set index ⟨asks, after⟩).map Client.asks = clients.map Client.asks := by
  rw [List.map_set]
  apply List.ext_getElem?
  intro other
  by_cases own : index = other
  · subst own
    have within := (List.getElem?_eq_some_iff.mp present).1
    rw [List.getElem?_set_self (by simpa using within), List.getElem?_map, present, Option.map_some]
  · rw [List.getElem?_set_ne own]

theorem map_retag_modify (log : List Served) (place : Nat) (tag : Disk.Persistence) :
    (log.modify place (Served.retag tag)).map (Served.retag .disabled) =
      log.map (Served.retag .disabled) := by
  have forgets : ∀ served : Served,
      (served.retag tag).retag .disabled = served.retag .disabled := by
    intro served
    exact congrArg (Served.mk served.client served.ask)
      (Answer.untagged_retag tag served.answer)
  apply List.ext_getElem?
  intro index
  rw [List.getElem?_map, List.getElem?_map, List.getElem?_modify]
  cases log[index]? with
  | none => rfl
  | some served =>
      by_cases here : place = index
      · simp [here, forgets]
      · simp [here]

theorem step_steps (service : Service) (event : Event) : Steps service (service.step event) := by
  cases event with
  | disk change =>
      exact .quiet _ (ContentCache.bare_mapArchive _ _) rfl rfl
  | client index =>
      rw [step, turn]
      split
      · rename_i asks place route present
        exact .quiet _ (ContentCache.bare_persist _ _) (map_asks_set present .ready)
          (map_retag_modify service.log place _)
      · rename_i call rest present
        have answered := service.cache.answer_call call
        exact .told index (.call call) rest .ready _ present _ _
          ((Access.untagged_answer _).trans answered.1.symm) answered.2.symm
      · rename_i domain rest present
        exact .told index (.hashes domain) rest .ready .ready present _ _ rfl rfl
      · rename_i domain rest present
        exact .told index (.size domain) rest .ready .ready present _ _ rfl rfl
      · rename_i rest present
        split
        · exact .told index .flush rest .ready .ready present _ _ rfl rfl
        · exact .quiet _ rfl (map_asks_set present _) rfl
      · rename_i rest ticket present
        split
        · exact .quiet _ (ContentCache.bare_mapArchive _ _) (map_asks_set present _) rfl
        · exact .quiet _ rfl rfl rfl
      · rename_i rest ticket present
        split
        · exact .told index .flush rest (.awaiting ticket) .ready present _ _ rfl rfl
        · exact .quiet _ rfl rfl rfl
      · exact .quiet _ rfl rfl rfl

/-! ## Runs -/

/-- A service has answered as `memory` answers the same asks, and it has their programs' rest to
answer. -/
structure Unnoticed (memory : ContentCache) (programs : List (List Ask)) (service : Service) :
    Prop where
  answers : service.log.map (fun served => served.answer.untagged) =
    (memory.answers (service.log.map Served.ask)).1.map Answer.untagged
  bare : service.cache.bare = (memory.answers (service.log.map Served.ask)).2.bare
  asks : ∀ index, (service.clients.map Client.asks)[index]?.map (asked index service.log ++ ·) =
    programs[index]?

theorem congr_of_retag {log log' : List Served}
    (same : log'.map (Served.retag .disabled) = log.map (Served.retag .disabled)) :
    log'.map Served.ask = log.map Served.ask ∧
      log'.map (fun served => served.answer.untagged) =
        log.map (fun served => served.answer.untagged) ∧
      ∀ index, asked index log' = asked index log := by
  have asks : ∀ log : List Served,
      (log.map (Served.retag .disabled)).map Served.ask = log.map Served.ask := by
    intro log
    rw [List.map_map]
    rfl
  have answers : ∀ log : List Served, (log.map (Served.retag .disabled)).map Served.answer =
      log.map fun served => served.answer.untagged := by
    intro log
    rw [List.map_map]
    rfl
  have parts : ∀ (index : Nat) (log : List Served),
      asked index (log.map (Served.retag .disabled)) = asked index log := by
    intro index log
    rw [asked, List.filter_map, List.map_map]
    rfl
  refine ⟨?_, ?_, fun index => ?_⟩
  · rw [← asks, same, asks]
  · rw [← answers, same, answers]
  · rw [← parts, same, parts]

theorem asked_concat (index : Nat) (log : List Served) (served : Served) :
    asked index (log ++ [served]) =
      asked index log ++ if served.client = index then [served.ask] else [] := by
  rw [asked, List.filter_append, List.map_append, asked]
  by_cases own : served.client = index <;> simp [own]

theorem Unnoticed.step {memory : ContentCache} {programs : List (List Ask)}
    {service next : Service} (unnoticed : Unnoticed memory programs service)
    (step : Steps service next) : Unnoticed memory programs next := by
  obtain ⟨answers, bare, asks⟩ := unnoticed
  cases step with
  | quiet next cache clients log =>
      obtain ⟨sameAsks, sameAnswers, sameAsked⟩ := congr_of_retag log
      refine ⟨?_, ?_, fun index => ?_⟩
      · rw [sameAnswers, sameAsks, answers]
      · rw [cache, sameAsks, bare]
      · rw [clients, sameAsked]
        exact asks index
  | told index ask rest before after present answer cache answered left =>
      have same := ContentCache.answer_congr bare ask
      simp only [tell]
      refine ⟨?_, ?_, fun other => ?_⟩
      · simp only [List.map_append, List.map_cons, List.map_nil, ContentCache.answers_concat,
          answers, answered, same.1]
      · simp only [List.map_append, List.map_cons, List.map_nil, ContentCache.answers_concat, left,
          same.2]
      · rw [asked_concat, List.map_set, ← asks other]
        by_cases own : index = other
        · subst own
          have within := (List.getElem?_eq_some_iff.mp present).1
          rw [List.getElem?_set_self (by simpa using within), List.getElem?_map, present]
          simp
        · rw [List.getElem?_set_ne own]
          simp [own]

theorem run_unnoticed {cache memory : ContentCache} (same : cache.bare = memory.bare)
    (programs : List (List Ask)) (events : List Event) :
    Unnoticed memory programs ((start cache programs).run events) := by
  induction events using List.reverseRecOn with
  | nil =>
      refine ⟨rfl, same, fun index => ?_⟩
      simp [run, start, asked, Function.comp_def]
  | append_singleton events event ih =>
      rw [run_concat]
      exact ih.step (step_steps _ event)

/-- A service on any disk, with any writer and any failures: its callers are answered, but for the
tags of insertions, as another cache with the same names and capacity answers the same asks in the
same order, and both hold the same entries; the other one may have no disk at all.  Each caller has
asked what its program says. -/
theorem disk_unnoticed {domains : List String} {settings bareSettings : CacheSettings}
    {volume bareVolume : ContentCache.Volume} {cache memory : ContentCache}
    (built : ContentCache.build domains settings volume = .ok cache)
    (plain : ContentCache.build domains bareSettings bareVolume = .ok memory)
    (capacity : settings.maxEntries = bareSettings.maxEntries)
    (programs : List (List Ask)) (events : List Event) :
    let now := (start cache programs).run events
    let reference := memory.answers (now.log.map Served.ask)
    now.log.map (fun served => served.answer.untagged) = reference.1.map Answer.untagged ∧
      now.cache.bare = reference.2.bare ∧
      ∀ index, now.clients[index]?.map (fun client => asked index now.log ++ client.asks) =
        programs[index]? := by
  have partitions := ContentCache.build_partitions built
  have partitions' := ContentCache.build_partitions plain
  have same : cache.bare = memory.bare := by
    rw [ContentCache.bare, ContentCache.bare, partitions.1, partitions.2, partitions'.1,
      partitions'.2, capacity]
  obtain ⟨answers, bare, asks⟩ := run_unnoticed same programs events
  refine ⟨answers, bare, fun index => ?_⟩
  rw [← asks index, List.getElem?_map, Option.map_map]
  rfl

/-- The queue has room for one job: the first route is written in vain, the second one is dropped,
and a flush waits for the writer.  A cache without a disk answers the same. -/
theorem lost_routes_unnoticed :
    let page (path : String) : Offer := ⟨"Example.com", path, [1], []⟩
    let asks : List Ask := [.call (.put (page "/a")), .call (.put (page "/b")),
      .call (.get "example.com" "/a"), .size "example.com", .flush]
    let memory : ContentCache := ⟨[("example.com", [])], 1, none⟩
    let cache : ContentCache := { memory with archive := some { capacity := 1 } }
    let events : List Event := List.replicate 7 (.client 0) ++
      [.disk (·.take), .client 0, .disk (·.refuse (.other "no space")), .disk (·.take),
        .disk (·.finish), .client 0]
    let now := (start cache [asks]).run events
    now.log.map Served.ask = asks ∧
      now.log.map Served.answer = [
        .stored (.ok (.inserted .queued)) none,
        .stored (.ok (.inserted .dropped)) (some "/a"),
        .found none, .size 1, .flushed] ∧
      (memory.answers asks).1.map Answer.untagged = [
        .stored (.ok (.inserted .disabled)) none,
        .stored (.ok (.inserted .disabled)) (some "/a"),
        .found none, .size 1, .flushed] := by
  -- The run is computed only to tell what it came to.
  obtain ⟨run, is⟩ : ∃ run : List Event, List.replicate 7 (.client 0) ++
      [.disk (·.take), .client 0, .disk (·.refuse (.other "no space")), .disk (·.take),
        .disk (·.finish), .client 0] = run := ⟨_, rfl⟩
  rw [is]
  intro page asks memory cache events now
  have built : ContentCache.build ["example.com"]
      { maxEntries := 1, diskPath := some "disk", queueDepth := 0 } (.ok .empty) = .ok cache := by
    rfl
  have plain :
      ContentCache.build ["example.com"] { maxEntries := 1 } (.ok .empty) = .ok memory := by
    rfl
  have asked : now.log.map Served.ask = asks := by
    subst is
    decide +kernel
  have answered : now.log.map Served.answer = [.stored (.ok (.inserted .queued)) none,
      .stored (.ok (.inserted .dropped)) (some "/a"), .found none, .size 1, .flushed] := by
    subst is
    decide +kernel
  obtain ⟨same, -, -⟩ := disk_unnoticed built plain rfl [asks] events
  rw [asked, ← Function.comp_def Answer.untagged, ← List.map_map, answered] at same
  exact ⟨asked, answered, same.symm⟩

end Service

end CachingProxy
