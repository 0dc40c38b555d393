import CachingProxy.Proofs.Http.Targets
import CachingProxy.Proofs.Routing.Agreement

/-!
# Requests for the route of the worker

Pages register the worker at its whole route, but a request is compared with it by its path alone.
A route without a query and without a fragment is the path of its own target, so the worker is
served there.  Any other route is never the path of a target, and its requests are left to the
origin (`Router.worker_served_at_route_iff`).
-/

set_option autoImplicit false

namespace CachingProxy

/-! ## Routes as targets -/

namespace Uri

/-- A request target that is a route, by itself or behind an authority. -/
inductive Targets (route : String) : Uri → Prop where
  | alone {uri : Uri} (read : ofText? route = some uri) : Targets route uri
  | behind {scheme authority path : String} {query : Option String}
      (read : ofText? route = some (.rooted path query)) :
      Targets route (.absolute scheme authority path query)

/-- Neither a query nor a fragment is written. -/
def IsPath (route : String) : Prop := ∀ c ∈ route.toList, c ≠ '?' ∧ c ≠ '#'

instance (route : String) : Decidable (IsPath route) :=
  List.decidableBAll _ route.toList

theorem rooted_of_read {route : String} {uri : Uri} (root : route.toList.head? = some '/')
    (read : ofText? route = some uri) :
    ∃ path query, uri = .rooted path query ∧
      path.toList = route.toList.takeWhile fun c => !(c == '?' || c == '#') := by
  obtain ⟨rest, written⟩ := List.head?_eq_some_iff.mp root
  rw [ofText?, written] at read
  split at read
  · cases read
  · obtain ⟨⟨path, query⟩, behind, rfl⟩ := Option.map_eq_some_iff.mp read
    rw [written]
    exact ⟨path, query, rfl, (readable_of_pathQuery? behind).2.2⟩

theorem isPath_iff {route path : String}
    (upTo : path.toList = route.toList.takeWhile fun c => !(c == '?' || c == '#')) :
    path = route ↔ IsPath route := by
  rw [← String.toList_inj, upTo, List.takeWhile_eq_self_iff]
  refine forall₂_congr fun c _ => ?_
  simp

theorem nonempty_of_root {path : String} {cs : List Char}
    (upTo : path.toList = ('/' :: cs).takeWhile fun c => !(c == '?' || c == '#')) :
    path.isEmpty = false := by
  rw [Bool.eq_false_iff, ne_eq, String.isEmpty_iff]
  rintro rfl
  rw [List.takeWhile_cons_of_pos (by decide)] at upTo
  cases upTo

/-- The path of a target is the route exactly if the route is a path. -/
theorem Targets.pathText_eq_iff {route : String} {uri : Uri} (targets : Targets route uri)
    (root : route.toList.head? = some '/') : uri.pathText = route ↔ IsPath route := by
  cases targets with
  | alone read =>
      obtain ⟨path, query, rfl, upTo⟩ := rooted_of_read root read
      exact isPath_iff upTo
  | behind read =>
      obtain ⟨path, query, same, upTo⟩ := rooted_of_read root read
      obtain ⟨rfl, rfl⟩ := Uri.rooted.inj same
      obtain ⟨rest, written⟩ := List.head?_eq_some_iff.mp root
      rw [pathText, nonempty_of_root (written ▸ upTo)]
      exact isPath_iff upTo

end Uri

namespace Config

theorem route_of_validate {config : Config} (valid : config.validate = .ok ())
    (enabled : config.serviceWorker.enabled = true) :
    config.serviceWorker.route.toList.head? = some '/' := by
  obtain ⟨entries, filled⟩ := entries_of_validate valid
  rw [validate] at valid
  split at valid
  · cases valid
  · rw [entries] at valid
    replace valid : validateWorker config.serviceWorker = .ok () := valid
    rw [validateWorker, enabled] at valid
    simp only [Bool.not_true, Bool.false_eq_true, if_false] at valid
    split at valid
    · cases valid
    split at valid
    · cases valid
    · rename_i root
      simpa using root

theorem asksWorker_iff {config : Config} {payload : Bytes} {head : RequestHead}
    (valid : config.validate = .ok ()) (enabled : config.serviceWorker.enabled = true)
    (targets : Uri.Targets config.serviceWorker.route head.uri) :
    config.AsksWorker (.ok payload) head ↔ Uri.IsPath config.serviceWorker.route := by
  have loaded : config.worker? (.ok payload) = some ⟨payload, config.serviceWorker.route⟩ := by
    rw [worker?, if_pos enabled]
    rfl
  rw [← targets.pathText_eq_iff (route_of_validate valid enabled), AsksWorker, loaded]
  simp

end Config

/-! ## Who answers at the route -/

namespace Router

/-- A request for a protected domain whose target is the route of the worker, when no redirect and
no report is due, is given the payload exactly if the route is a path.  With a query or a fragment
in the route it is proxied to the origin of the domain. -/
theorem worker_served_at_route_iff (config : Config) (payload : Bytes)
    (valid : config.validate = .ok ()) (enabled : config.serviceWorker.enabled = true)
    (head : RequestHead) (targets : Uri.Targets config.serviceWorker.route head.uri)
    {domain : String} (here : config.Protects head domain) (cache : ContentCache)
    (edge : Option EdgeNodes) {secure : Bool} (settled : ¬ config.Upgrades secure)
    (unasked : ¬ head.headers.has HopByHop.directName = true) :
    let handler := (withWorkerFile config (.ok payload)).dispatch cache edge secure head
    let worker : ServiceWorker := ⟨payload, config.serviceWorker.route⟩
    (handler = .payload payload ServiceWorker.payloadType ↔ Uri.IsPath worker.route) ∧
    ((∃ session, handler = .proxy session) ↔ ¬ Uri.IsPath worker.route) ∧
    (¬ Uri.IsPath worker.route → ∃ entry, config.EntryOf domain entry ∧
      handler =
        .proxy (Session.fresh domain (some (Config.origin entry)) (some worker.inject))) := by
  dsimp only
  have asks : config.AsksWorker (.ok payload) head ↔ Uri.IsPath config.serviceWorker.route :=
    Config.asksWorker_iff valid enabled targets
  -- The router is the same on any disk, so it is that of a server.
  have opens : config.cache.diskPath = "" ∨ ∃ tree, (.ok [] : ContentCache.Volume) = .ok tree :=
    .inr ⟨[], rfl⟩
  obtain ⟨server, -, made⟩ := Server.made_of_opens (.ok payload) valid opens
  have handles := made.handles here cache edge secure
  have loaded : server.router.worker = some ⟨payload, config.serviceWorker.route⟩ := by
    rw [made.router_eq, Config.worker?, if_pos enabled]
    rfl
  rw [← made.upgrades_iff] at settled
  rw [← made.routed]
  generalize server.router.dispatch cache edge secure head = handler at handles ⊢
  cases handles with
  | redirected plain => exact absurd plain settled
  | reported _ asked => exact absurd asked unasked
  | @served _ _ content found =>
      have asked : Uri.IsPath config.serviceWorker.route := by
        by_contra elsewhere
        rw [made.payload?_eq_none_iff.mpr (asks.not.mpr elsewhere)] at found
        cases found
      have same : content = payload := by
        rw [payload?, loaded, Option.bind_some] at found
        split at found
        · exact (Option.some.inj found).symm
        · cases found
      simp [asked, same]
  | passed _ _ unserved =>
      have elsewhere := asks.not.mp (made.payload?_eq_none_iff.mp unserved)
      obtain ⟨entry, configured⟩ := Config.entryOf_of_mem valid here.2
      refine ⟨by simp [elsewhere], by simp [elsewhere], fun _ => ⟨entry, configured, ?_⟩⟩
      rw [made.session_eq configured, Config.worker?, if_pos enabled]
      rfl

/-- The default route, asked for in absolute form over a plain connection that needs no upgrade. -/
theorem payload_served_at_default_route :
    let config : Config := {
      protectedDomains := [⟨"example.com", "10.0.0.1", 80⟩]
      serviceWorker := { enabled := true, path := "worker.js" } }
    let cache : ContentCache := { partitions := [("example.com", [])], maxEntries := 1 }
    let head : RequestHead :=
      { method := "GET"
        uri := .absolute "http" "example.com" "/masternode-service-worker.js" none }
    config.validate = .ok () ∧
      (withWorkerFile config (.ok [1, 2])).dispatch cache none false head =
        .payload [1, 2] "application/javascript" := by
  intro config cache head
  have valid : config.validate = .ok () := by decide
  have targets : Uri.Targets config.serviceWorker.route head.uri := .behind (by decide)
  have here : config.Protects head "example.com" := ⟨by decide, by decide⟩
  have settled : ¬ config.Upgrades false := by simp [Config.Upgrades, config]
  obtain ⟨served, -, -⟩ := worker_served_at_route_iff config [1, 2] valid rfl head targets here
    cache none settled (by decide)
  exact ⟨valid, served.mpr (by decide)⟩

/-- A route with a query: pages register it and the reader takes it as a target, but the request for
it is proxied. -/
theorem route_with_query_proxied :
    let config : Config := {
      protectedDomains := [⟨"example.com", "10.0.0.1", 80⟩]
      serviceWorker := { enabled := true, path := "worker.js", route := "/sw.js?v=1" } }
    let worker : ServiceWorker := ⟨[1, 2], "/sw.js?v=1"⟩
    let cache : ContentCache := { partitions := [("example.com", [])], maxEntries := 1 }
    let head : RequestHead :=
      { method := "GET", uri := .rooted "/sw.js" (some "v=1")
        headers := [⟨"host", Bytes.ofText "example.com"⟩] }
    config.validate = .ok () ∧ Uri.ofText? config.serviceWorker.route = some head.uri ∧
      config.Protects head "example.com" ∧ ¬ config.Upgrades false ∧
      ¬ head.headers.has HopByHop.directName = true ∧
      (withWorkerFile config (.ok worker.payload)).dispatch cache none false head =
        .proxy (Session.fresh "example.com" (some ⟨"10.0.0.1", 80⟩) (some worker.inject)) := by
  intro config worker cache head
  have here : config.Protects head "example.com" := ⟨by decide, by decide⟩
  have resolved : Domain.resolve head.uri head.headers = some "example.com" := here.1
  have unserved : (withWorkerFile config (.ok worker.payload)).payload? head.uri = none := by decide
  have known :
      (withWorkerFile config (.ok worker.payload)).table.contains "example.com" = true := by
    decide
  have passed : (withWorkerFile config (.ok worker.payload)).dispatch cache none false head =
      .proxy ((withWorkerFile config (.ok worker.payload)).session "example.com") := by
    rw [dispatch, resolved]
    simp only [known, unserved]
    rfl
  refine ⟨by decide, by decide, here, by simp [Config.Upgrades, config], by decide, passed.trans ?_⟩
  have origin : (withWorkerFile config (.ok worker.payload)).table.origin? "example.com" =
      some ⟨"10.0.0.1", 80⟩ := by decide
  rw [session, origin]
  rfl

end Router

end CachingProxy
