import CachingProxy.Failure
import CachingProxy.Worker.Injection

/-!
# The service worker

A script that is served at a route of its own and that cached pages register.
-/

set_option autoImplicit false

namespace CachingProxy

/-- Changes stored content of a content type before it is served.  An empty result stands for
unchanged content. -/
abbrev Transform := Bytes → String → Bytes

structure ServiceWorker where
  payload : Bytes
  route : String
  deriving DecidableEq

namespace ServiceWorker

def payloadType : String := "application/javascript"

def ofFile (content : Except SystemError Bytes) (route : String) :
    Except ProxyError ServiceWorker :=
  match content with
  | .error cause => .error (.io cause)
  | .ok payload => .ok { payload, route }

def script (worker : ServiceWorker) : Bytes :=
  Bytes.ofText (Worker.registrationScript worker.route)

def inject (worker : ServiceWorker) : Transform := Worker.injectScript worker.script

end ServiceWorker

end CachingProxy
