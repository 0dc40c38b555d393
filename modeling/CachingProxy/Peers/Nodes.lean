import CachingProxy.Json.Reader
import CachingProxy.Text.Quoted

/-!
# Edge nodes

The peer gateway publishes a document with the nodes that serve content.  A document is applied as a
whole: either the list becomes what it says, or nothing changes.
-/

set_option autoImplicit false

namespace CachingProxy

structure EdgeNodes where
  nodes : List String := []
  deriving DecidableEq

namespace EdgeNodes

def describe (edge : EdgeNodes) : String :=
  Text.record "NetworkState" [("edge_nodes", toString edge.nodes.length)]

def address? (node : Json.Value) : Option String := do
  let ip ← (node.find? ["ip_address", "data"]).bind Json.Value.text?
  let port ← (node.find? ["content_port", "data"]).bind Json.Value.text?
  return ip ++ ":" ++ port

def nodeMap? (document : Json.Value) : Option (List (String × Json.Value)) :=
  (document.find? ["response", "node_data_map"]).bind Json.Value.members?

/-- The addresses in a gateway document, in the order of its keys.  Malformed nodes are left out. -/
def readState (document : Bytes) : Except ProxyError (List String) :=
  match Json.parse document with
  | .error cause => .error (.json cause)
  | .ok value =>
      match nodeMap? value with
      | none => .error (.gateway "state has no response.node_data_map")
      | some members => .ok (members.filterMap fun entry => address? entry.2)

def apply (edge : EdgeNodes) (document : Bytes) : Except ProxyError Nat × EdgeNodes :=
  match readState document with
  | .error cause => (.error cause, edge)
  | .ok nodes => (.ok nodes.length, ⟨nodes⟩)

end EdgeNodes

end CachingProxy
