import CachingProxy.Json.Value
import CachingProxy.Session.State

/-!
# Handlers

Every request is given one handler.  All but the session answer at once, without the origin.
-/

set_option autoImplicit false

namespace CachingProxy

structure DirectReport where
  assetHashes : Keyed String String
  edgeNodes : Option (List String)
  deriving DecidableEq

namespace DirectReport

def json (report : DirectReport) : Json.Value :=
  let hashes := report.assetHashes.map fun entry => (entry.1, Json.Value.text entry.2)
  let nodes := match report.edgeNodes with
    | none => []
    | some nodes => [("edgeNodes", Json.Value.texts nodes)]
  .object (("assetHashes", .object hashes) :: nodes)

end DirectReport

inductive Handler where
  | redirect (location : String)
  | direct (report : DirectReport)
  | payload (content : Bytes) (contentType : String)
  | reject (status : Status) (message : String)
  | proxy (session : Session)

namespace Handler

def kind : Handler → String
  | .redirect _ => "redirect"
  | .direct _ => "direct"
  | .payload _ _ => "static"
  | .reject _ _ => "reject"
  | .proxy _ => "proxy"

def describe : Handler → String
  | .redirect location => Text.record "Redirect" [("location", Text.quoted location)]
  | .direct report => Text.applied "Direct" (toString report.assetHashes.length)
  | .payload content _ => Text.applied "StaticPayload" (toString content.length)
  | .reject status _ => Text.applied "Reject" (toString status)
  | .proxy session => Text.applied "Proxy" session.describe

def typed (status : Status) (contentType : String) (body : Bytes) : Response :=
  ⟨⟨status, [⟨"content-type", Bytes.ofText contentType⟩]⟩, body⟩

/-- The answer of a handler that needs no origin; none for a session. -/
def response? : Handler → Option (Except ProxyError Response)
  | .redirect location =>
      let value := Bytes.ofText location
      some (if Http.isValue value then .ok ⟨⟨307, [⟨"location", value⟩]⟩, []⟩
        else .error (.http "invalid redirect location: failed to parse header value"))
  | .direct report =>
      some (.ok (typed 200 "application/json" (Bytes.ofText (Json.print report.json))))
  | .payload content contentType => some (.ok (typed 200 contentType content))
  | .reject status message => some (.ok (.plain status message))
  | .proxy _ => none

end Handler

end CachingProxy
