import CachingProxy.Config.Settings
import CachingProxy.Peers.Nodes
import CachingProxy.Routing.Handler
import CachingProxy.Session.HopByHop

/-!
# Routing

A request must name a protected domain.  Then, in this order: a plain connection is redirected when
that is wanted, a direct report is given when it is asked for, the worker is served at its route,
and everything else is a session.
-/

set_option autoImplicit false

namespace CachingProxy

structure Router where
  table : Domain.Table
  worker : Option ServiceWorker := none
  upgradeInsecure : Bool := false
  securePort : UInt16 := 443

namespace Router

def ofConfig (config : Config) : Router :=
  { table := .ofEntries config.protectedDomains
    upgradeInsecure := config.server.upgradeInsecure
    securePort := config.server.securePort }

/-- A router with the worker the configuration names; a payload that cannot be read disables it. -/
def withWorkerFile (config : Config) (content : Except SystemError Bytes) : Router :=
  let router := ofConfig config
  if config.serviceWorker.enabled then
    match ServiceWorker.ofFile content config.serviceWorker.route with
    | .ok worker => { router with worker := some worker }
    | .error _ => router
  else router

/-- The host a plain request is redirected to: that of its field `host`, else the domain. -/
def redirectHost (headers : Headers) (domain : String) : String :=
  let asked := (headers.text? "host").map Domain.stripPort
  let host := match asked with
    | some host => if host.isEmpty then domain else host
    | none => domain
  if host.toList.contains ':' then "[" ++ host ++ "]" else host

def redirectLocation (router : Router) (head : RequestHead) (domain : String) : String :=
  "https://" ++ redirectHost head.headers domain ++ ":" ++ toString router.securePort.toNat ++
    head.path

def report (cache : ContentCache) (edge : Option EdgeNodes) (domain : String) : DirectReport :=
  { assetHashes := cache.assetHashes domain, edgeNodes := edge.map EdgeNodes.nodes }

def session (router : Router) (domain : String) : Session :=
  { domain
    origin := router.table.origin? domain
    transform := router.worker.map ServiceWorker.inject }

def payload? (router : Router) (uri : Uri) : Option Bytes :=
  router.worker.bind fun worker => if uri.pathText = worker.route then some worker.payload else none

def dispatch (router : Router) (cache : ContentCache) (edge : Option EdgeNodes) (secure : Bool)
    (head : RequestHead) : Handler :=
  match Domain.resolve head.uri head.headers with
  | none => .reject 400 "Bad Request: missing host"
  | some domain =>
      if !router.table.contains domain then .reject 400 "Bad Request: unknown domain"
      else if router.upgradeInsecure && !secure then
        .redirect (router.redirectLocation head domain)
      else if head.headers.has HopByHop.directName then .direct (report cache edge domain)
      else
        match router.payload? head.uri with
        | some payload => .payload payload ServiceWorker.payloadType
        | none => .proxy (router.session domain)

def describe (router : Router) (network : Bool) : String :=
  Text.record "Router" [
    ("domains", toString router.table.size),
    ("service_worker", Text.optionText (router.worker.map fun worker => Text.quoted worker.route)),
    ("network", Text.boolText network),
    ("upgrade_insecure", Text.boolText router.upgradeInsecure),
    ("secure_port", toString router.securePort.toNat)]

end Router

end CachingProxy
