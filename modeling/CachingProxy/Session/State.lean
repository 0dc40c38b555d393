import CachingProxy.Cache.Content
import CachingProxy.Domain.Authority
import CachingProxy.Text.Quoted
import CachingProxy.Worker.ServiceWorker

/-!
# The state of a session

A session decides what happens to one request.  It is told what happens at the client and at the
origin, and answers with the actions to take.
-/

set_option autoImplicit false

namespace CachingProxy

namespace Session

inductive State where
  | new
  | cacheCheck
  | cacheHitRespond
  | connecting
  | connected
  | streaming
  | originComplete
  | originError
  | clientAborted
  | terminal
  deriving DecidableEq

def State.text : State → String
  | .new => "New"
  | .cacheCheck => "CacheCheck"
  | .cacheHitRespond => "CacheHitRespond"
  | .connecting => "Connecting"
  | .connected => "Connected"
  | .streaming => "Streaming"
  | .originComplete => "OriginComplete"
  | .originError => "OriginError"
  | .clientAborted => "ClientAborted"
  | .terminal => "Terminal"

inductive Progress where
  | none
  | streaming
  | sent
  deriving DecidableEq

inductive Action where
  | respond (response : Response)
  | sendHeaders (head : ResponseHead)
  | sendBody (chunk : Bytes)
  | sendEom
  | connect (origin : Endpoint)
  | sendOriginRequest (head : RequestHead)
  | forwardBody (chunk : Bytes)
  | forwardEom
  | pauseIngress
  | resumeIngress
  | abortOrigin
  | abortClient
  | release
  deriving DecidableEq

inductive Event where
  | request (head : RequestHead)
  | connectSuccess
  | connectError (cause : ProxyError)
  | clientBody (chunk : Bytes)
  | clientEom
  | clientComplete
  | clientError
  | originHeaders (head : ResponseHead)
  | originBody (chunk : Bytes)
  | originEom
  | originError (cause : ProxyError)
  | originDetached
  | egressPaused
  | egressResumed
  deriving DecidableEq

end Session

structure Session where
  domain : String
  origin : Option Endpoint
  transform : Option Transform := none
  state : Session.State := .new
  clientTerminated : Bool := false
  originAttached : Bool := false
  released : Bool := false
  method : String := "GET"
  path : String := "/"
  request : Option RequestHead := none
  responseHead : Option ResponseHead := none
  responseBody : Option Bytes := none
  pendingBody : List Bytes := []
  pendingEom : Bool := false
  originDone : Bool := false
  progress : Session.Progress := .none

namespace Session

/-- The origin is attached and its answer has not ended. -/
def originOpen (session : Session) : Bool := session.originAttached && !session.originDone

def describe (session : Session) : String :=
  Text.record "ProxySession" [
    ("domain", Text.quoted session.domain),
    ("method", session.method),
    ("path", Text.quoted session.path),
    ("state", session.state.text),
    ("lifecycle", Text.record "Lifecycle" [
      ("client_terminated", Text.boolText session.clientTerminated),
      ("origin_attached", Text.boolText session.originAttached),
      ("released", Text.boolText session.released)])]

end Session

end CachingProxy
