import CachingProxy.Cache.Content
import CachingProxy.Domain.Table
import CachingProxy.Net.Address

/-!
# Configuration

Every setting has a default, so a configuration only has to name the protected domains.  `validate`
refuses the settings that a server cannot run with.
-/

set_option autoImplicit false

namespace CachingProxy

namespace Config

structure ServerSettings where
  ip : IpAddress := .unspecified
  port : UInt16 := 80
  threads : UInt64 := 0
  idleTimeoutMs : UInt64 := 20000
  connectTimeoutMs : UInt64 := 5000
  upgradeInsecure : Bool := false
  securePort : UInt16 := 443
  deriving DecidableEq

structure StoreSettings where
  maxEntries : UInt64 := 1024
  diskPath : String := ""
  writeQueueDepth : UInt64 := 256
  deriving DecidableEq

structure WorkerSettings where
  enabled : Bool := false
  path : String := ""
  route : String := "/masternode-service-worker.js"
  deriving DecidableEq

structure PeerSettings where
  enabled : Bool := false
  gatewayHost : String := "127.0.0.1"
  gatewayPort : UInt16 := 3001
  pollIntervalSecs : UInt64 := 5
  deriving DecidableEq

end Config

structure Config where
  server : Config.ServerSettings := {}
  cache : Config.StoreSettings := {}
  protectedDomains : List Domain.Entry := []
  serviceWorker : Config.WorkerSettings := {}
  peerNetwork : Config.PeerSettings := {}
  deriving DecidableEq

inductive ConfigError where
  | noDomains
  | emptyDomain
  | emptyOrigin (domain : String)
  | duplicateDomain (domain : String)
  | noEntries
  | workerWithoutPath
  | relativeWorkerRoute
  deriving DecidableEq

def ConfigError.message : ConfigError → String
  | .noDomains => "at least one protected domain is required"
  | .emptyDomain => "protected domain name is empty"
  | .emptyOrigin domain => "origin host for " ++ domain ++ " is empty"
  | .duplicateDomain domain => "duplicate protected domain " ++ domain
  | .noEntries => "cache.max_entries must be at least 1"
  | .workerWithoutPath => "service_worker.path is required when the service worker is enabled"
  | .relativeWorkerRoute => "service_worker.route must start with '/'"

namespace Config

/-! ## Derived settings -/

def ServerSettings.address (settings : ServerSettings) : SocketAddress :=
  ⟨settings.ip, settings.port⟩

/-- The settings the cache is built with; an empty path means memory only. -/
def StoreSettings.cacheSettings (settings : StoreSettings) : CacheSettings :=
  { maxEntries := settings.maxEntries.toNat
    diskPath := if settings.diskPath.isEmpty then none else some settings.diskPath
    queueDepth := settings.writeQueueDepth.toNat }

def PeerSettings.interval (settings : PeerSettings) : Nat := max settings.pollIntervalSecs.toNat 1

/-! ## Validation -/

/-- Checks the entries in order; `seen` holds the canonical names before them. -/
def validateEntries (seen : List String) : List Domain.Entry → Except ConfigError Unit
  | [] => .ok ()
  | entry :: rest =>
      let name := Domain.normalize entry.domain
      if name.isEmpty then .error .emptyDomain
      else if (Text.trimmed entry.originHost).isEmpty then .error (.emptyOrigin name)
      else if seen.contains name then .error (.duplicateDomain name)
      else validateEntries (name :: seen) rest

def validateWorker (settings : WorkerSettings) : Except ConfigError Unit :=
  if !settings.enabled then .ok ()
  else if settings.path.isEmpty then .error .workerWithoutPath
  else if settings.route.toList.head? != some '/' then .error .relativeWorkerRoute
  else .ok ()

def validate (config : Config) : Except ConfigError Unit := do
  if config.protectedDomains.isEmpty then .error .noDomains
  validateEntries [] config.protectedDomains
  if config.cache.maxEntries = 0 then .error .noEntries
  validateWorker config.serviceWorker

/-! ## Building -/

def ofDomain (entry : Domain.Entry) : Config := { protectedDomains := [entry] }

def withPort (config : Config) (port : UInt16) : Config :=
  { config with server := { config.server with port } }

def withAddress (config : Config) (address : SocketAddress) : Config :=
  { config with server := { config.server with ip := address.ip, port := address.port } }

def withDomain (config : Config) (entry : Domain.Entry) : Config :=
  { config with protectedDomains := config.protectedDomains ++ [entry] }

def withSecureUpgrade (config : Config) (securePort : UInt16) : Config :=
  { config with server := { config.server with upgradeInsecure := true, securePort } }

def withCacheDirectory (config : Config) (path : String) : Config :=
  { config with cache := { config.cache with diskPath := path } }

def withMaxEntries (config : Config) (maxEntries : Nat) : Config :=
  { config with cache := { config.cache with maxEntries := UInt64.ofNat maxEntries } }

def withServiceWorker (config : Config) (path : String) : Config :=
  { config with serviceWorker := { config.serviceWorker with enabled := true, path } }

def withWorkerRoute (config : Config) (route : String) : Config :=
  { config with serviceWorker := { config.serviceWorker with route } }

/-- Sets the connect timeout to the whole milliseconds of a duration, in a word of 64 bits. -/
def withConnectTimeout (config : Config) (seconds nanoseconds : Nat) : Config :=
  let milliseconds := UInt64.ofNat (seconds * 1000 + nanoseconds / 1000000)
  { config with server := { config.server with connectTimeoutMs := milliseconds } }

end Config

end CachingProxy
