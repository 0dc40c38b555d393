import CachingProxy.Config.Settings
import CachingProxy.Http.Head
import CachingProxy.Peers.Nodes

/-!
# Polling the gateway

A poll asks the gateway for its document and applies it.  Only an answer with a status of success
counts; whatever goes wrong leaves the nodes as they were.
-/

set_option autoImplicit false

namespace CachingProxy.Gateway

def statePath : String := "/api/p2p/state"

def url (settings : Config.PeerSettings) : String :=
  "http://" ++ settings.gatewayHost ++ ":" ++ toString settings.gatewayPort.toNat ++ statePath

/-- What came back from a gateway: a head, and a body unless the connection broke while it came. -/
structure Reply where
  status : Status
  body : Except String Bytes

def isLost : Except String Reply → Bool
  | .error _ => true
  | .ok reply =>
      reply.status.isSuccess &&
        match reply.body with
        | .error _ => true
        | .ok _ => false

def poll (edge : EdgeNodes) (answer : Except String Reply) : Except ProxyError Nat × EdgeNodes :=
  match answer with
  | .error text => (.error (.gateway text), edge)
  | .ok reply =>
      if !reply.status.isSuccess then
        (.error (.gateway ("gateway returned " ++ reply.status.line)), edge)
      else
        match reply.body with
        | .error text => (.error (.gateway text), edge)
        | .ok body => edge.apply (Bytes.ofText (Utf8.lenient body))

end CachingProxy.Gateway
