import CachingProxy.Config.Settings
import CachingProxy.Json.Reader
import CachingProxy.Json.Record

/-!
# Configuration documents

A configuration is read from a JSON document in which any setting may be left out, and is written
with all of them.
-/

set_option autoImplicit false

namespace CachingProxy.Config

open CachingProxy.Json

/-! ## Reading -/

def serverMembers : List (Member ServerSettings) := [
  .of "ip" (readVia IpAddress.ofText?) fun s ip => { s with ip },
  .of "port" readUInt16 fun s port => { s with port },
  .of "threads" readUInt64 fun s threads => { s with threads },
  .of "idle_timeout_ms" readUInt64 fun s idleTimeoutMs => { s with idleTimeoutMs },
  .of "connect_timeout_ms" readUInt64 fun s connectTimeoutMs => { s with connectTimeoutMs },
  .of "upgrade_insecure" readBool fun s upgradeInsecure => { s with upgradeInsecure },
  .of "secure_port" readUInt16 fun s securePort => { s with securePort }]

def storeMembers : List (Member StoreSettings) := [
  .of "max_entries" readUInt64 fun s maxEntries => { s with maxEntries },
  .of "disk_path" readText fun s diskPath => { s with diskPath },
  .of "write_queue_depth" readUInt64 fun s writeQueueDepth => { s with writeQueueDepth }]

def entryMembers : List (Member Domain.Entry) := [
  .of "domain" readText (fun e domain => { e with domain }) true,
  .of "origin_host" readText (fun e originHost => { e with originHost }) true,
  .of "origin_port" readUInt16 fun e originPort => { e with originPort }]

def workerMembers : List (Member WorkerSettings) := [
  .of "enabled" readBool fun s enabled => { s with enabled },
  .of "path" readText fun s path => { s with path },
  .of "route" readText fun s route => { s with route }]

def peerMembers : List (Member PeerSettings) := [
  .of "enabled" readBool fun s enabled => { s with enabled },
  .of "gateway_host" readText fun s gatewayHost => { s with gatewayHost },
  .of "gateway_port" readUInt16 fun s gatewayPort => { s with gatewayPort },
  .of "poll_interval_secs" readUInt64 fun s pollIntervalSecs => { s with pollIntervalSecs }]

def readEntry : Reader Domain.Entry := readRecord entryMembers { domain := "", originHost := "" }

def members : List (Member Config) := [
  .of "server" (readRecord serverMembers {}) fun c server => { c with server },
  .of "cache" (readRecord storeMembers {}) fun c cache => { c with cache },
  .of "protected_domains" (readList readEntry) fun c protectedDomains =>
    { c with protectedDomains },
  .of "service_worker" (readRecord workerMembers {}) fun c serviceWorker =>
    { c with serviceWorker },
  .of "peer_network" (readRecord peerMembers {}) fun c peerNetwork => { c with peerNetwork }]

/-- Reads a document, without looking at what the settings mean. -/
def parse (document : Bytes) : Except JsonError Config := do
  finish (← readRecord members {} document)

def ofJson (document : Bytes) : Except ProxyError Config :=
  match parse document with
  | .error cause => .error (.json cause)
  | .ok config =>
      match config.validate with
      | .error cause => .error (.config cause.message)
      | .ok _ => .ok config

def ofFile (content : Except SystemError Bytes) : Except ProxyError Config :=
  match content with
  | .error cause => .error (.io cause)
  | .ok bytes => if (Utf8.chars? bytes).isSome then ofJson bytes else .error (.io .notUtf8)

/-! ## Writing -/

def ServerSettings.json (s : ServerSettings) : Value := .object [
  ("ip", .text s.ip.text),
  ("port", .nat s.port.toNat),
  ("threads", .nat s.threads.toNat),
  ("idle_timeout_ms", .nat s.idleTimeoutMs.toNat),
  ("connect_timeout_ms", .nat s.connectTimeoutMs.toNat),
  ("upgrade_insecure", .bool s.upgradeInsecure),
  ("secure_port", .nat s.securePort.toNat)]

def StoreSettings.json (s : StoreSettings) : Value := .object [
  ("max_entries", .nat s.maxEntries.toNat),
  ("disk_path", .text s.diskPath),
  ("write_queue_depth", .nat s.writeQueueDepth.toNat)]

def entryJson (e : Domain.Entry) : Value := .object [
  ("domain", .text e.domain),
  ("origin_host", .text e.originHost),
  ("origin_port", .nat e.originPort.toNat)]

def WorkerSettings.json (s : WorkerSettings) : Value := .object [
  ("enabled", .bool s.enabled),
  ("path", .text s.path),
  ("route", .text s.route)]

def PeerSettings.json (s : PeerSettings) : Value := .object [
  ("enabled", .bool s.enabled),
  ("gateway_host", .text s.gatewayHost),
  ("gateway_port", .nat s.gatewayPort.toNat),
  ("poll_interval_secs", .nat s.pollIntervalSecs.toNat)]

def json (config : Config) : Value := .object [
  ("server", config.server.json),
  ("cache", config.cache.json),
  ("protected_domains", .list (config.protectedDomains.map entryJson)),
  ("service_worker", config.serviceWorker.json),
  ("peer_network", config.peerNetwork.json)]

end CachingProxy.Config
