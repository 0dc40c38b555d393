import CachingProxy.Routing.Router
import CachingProxy.Text.Duration

/-!
# The server

A server is made from a valid configuration: its router, its cache, and the address it listens on.
-/

set_option autoImplicit false

namespace CachingProxy

structure Server where
  address : SocketAddress
  idleTimeoutMs : Nat
  router : Router
  cache : ContentCache
  edge : Option EdgeNodes := none

namespace Server

def ofConfig (config : Config) (volume : ContentCache.Volume)
    (workerFile : Except SystemError Bytes) : Except ProxyError Server :=
  match config.validate with
  | .error cause => .error (.config cause.message)
  | .ok _ =>
      match ContentCache.build (config.protectedDomains.map Domain.Entry.domain)
          config.cache.cacheSettings volume with
      | .error cause => .error (.storage cause)
      | .ok cache => .ok {
          address := config.server.address
          idleTimeoutMs := config.server.idleTimeoutMs.toNat
          router := Router.withWorkerFile config workerFile
          cache }

def describe (server : Server) : String :=
  Text.record "ProxyServer" [
    ("addr", server.address.text),
    ("idle_timeout", Text.milliseconds server.idleTimeoutMs),
    ("router", server.router.describe server.edge.isSome)]

end Server

/-! ## Listening -/

abbrev Listeners := List SocketAddress

namespace Listeners

/-- Only an address of the machine itself can be listened on, and a fixed port only once. -/
def bind (listeners : Listeners) (address : SocketAddress) : Except SystemError Listeners :=
  if !(address.ip.isLoopback || address.ip.isUnspecified) then .error .addressUnavailable
  else if address.port != 0 && listeners.contains address then .error .addressInUse
  else .ok (address :: listeners)

/-- A running server, with the text for its port: `free` stands for a port chosen by the system. -/
def describe (address : SocketAddress) (free : String) : String :=
  let port := if address.port = 0 then free else toString address.port.toNat
  Text.record "ProxyHandle" [("addr", SocketAddress.hostText address.ip ++ ":" ++ port)]

end Listeners

end CachingProxy
