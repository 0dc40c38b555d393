import CachingProxy.Session.HopByHop
import CachingProxy.Session.State

/-!
# What a session does

Each handler takes the session at one event to the session after it and the actions to take.  A
session is released when its client is gone and no origin is attached; whatever changes one of the
two looks at both.
-/

set_option autoImplicit false

namespace CachingProxy.Session

def releaseIfDone (session : Session) (actions : List Action) : Session × List Action :=
  if !session.released && session.clientTerminated && !session.originAttached then
    ({ session with released := true, state := .terminal }, actions ++ [.release])
  else (session, actions)

/-- Breaks the answer off, and the origin's answer if it has not ended. -/
def abortClient (session : Session) : Session × List Action :=
  let session := { session with clientTerminated := true }
  session.releaseIfDone
    (if session.originOpen then [.abortClient, .abortOrigin] else [.abortClient])

def failure (status : Status) : Response :=
  .plain status ((Status.reason? status).getD "Error")

def failBeforeResponse (session : Session) (status : Status) : Session × List Action :=
  ({ session with state := .originError, progress := .sent }, [.respond (failure status)])

/-- The answer that is replayed for a stored route.  A changed body loses the validators of the
stored one. -/
def hitResponse (transform : Option Transform) (route : Route) : Response :=
  let plain : Response := ⟨⟨200, route.headers⟩, route.content⟩
  match transform, route.contentType? with
  | some change, some contentType =>
      if Worker.isHtml contentType then
        match change route.content contentType with
        | [] => plain
        | body => ⟨⟨200, (route.headers.erase "etag").erase "last-modified"⟩, body⟩
      else plain
  | _, _ => plain

/-- The head that is sent on.  A request without a host is given that of the domain. -/
def forwardedHead (domain : String) (head : RequestHead) : RequestHead :=
  let headers := head.headers.stripRequest
  let host := Bytes.ofText domain
  if !headers.has "host" && Http.isValue host then
    { head with headers := headers.set "host" host }
  else { head with headers }

def forward (session : Session) (head : RequestHead) : Session × List Action :=
  let session := { session with request := some (forwardedHead session.domain head) }
  match session.origin with
  | none => session.failBeforeResponse 502
  | some origin => ({ session with state := .connecting }, [.pauseIngress, .connect origin])

def onRequest (cache : ContentCache) (session : Session) (head : RequestHead) :
    ContentCache × Session × List Action :=
  if session.released || session.state != .new then (cache, session, [])
  else
    let session := { session with method := head.method, path := head.path }
    if session.method = "GET" then
      let session := { session with state := .cacheCheck }
      match cache.get session.domain session.path with
      | (some route, cache) =>
          (cache, { session with state := .cacheHitRespond, progress := .sent },
            [.respond (hitResponse session.transform route)])
      | (none, cache) => (cache, session.forward head)
    else (cache, session.forward head)

def onConnectSuccess (session : Session) : Session × List Action :=
  if session.released || session.state != .connecting then (session, [])
  else
    match session.request with
    | none => (session, [])
    | some request =>
        ({ session with
            request := none, originAttached := true, state := .connected, pendingBody := [] },
          .sendOriginRequest request :: session.pendingBody.map .forwardBody ++
            (if session.pendingEom then [.forwardEom] else []) ++ [.resumeIngress])

def onConnectError (session : Session) (cause : ProxyError) : Session × List Action :=
  if session.released || session.state != .connecting then (session, [])
  else
    let session := { session with state := .originError, pendingBody := [] }
    if session.clientTerminated then session.abortClient
    else session.failBeforeResponse cause.gatewayStatus

def onClientBody (session : Session) (chunk : Bytes) : Session × List Action :=
  if session.released || session.clientTerminated then (session, [])
  else if session.state = .connecting then
    ({ session with pendingBody := session.pendingBody ++ [chunk] }, [])
  else if session.originOpen then (session, [.forwardBody chunk])
  else (session, [])

def onClientEom (session : Session) : Session × List Action :=
  if session.released || session.clientTerminated then (session, [])
  else if session.state = .connecting then ({ session with pendingEom := true }, [])
  else if session.originOpen then (session, [.forwardEom])
  else (session, [])

def onClientComplete (session : Session) : Session × List Action :=
  if session.released || session.clientTerminated then (session, [])
  else
    let session := { session with
      clientTerminated := true
      state := if session.originAttached then session.state else .terminal }
    session.releaseIfDone []

def onClientError (session : Session) : Session × List Action :=
  if session.released || session.clientTerminated then (session, [])
  else
    let session := { session with
      clientTerminated := true
      state := .clientAborted
      responseBody := none
      pendingBody := [] }
    session.releaseIfDone (if session.originAttached then [.abortOrigin] else [])

def onOriginHeaders (session : Session) (head : ResponseHead) : Session × List Action :=
  if session.released || !session.originOpen then (session, [])
  else
    let session := { session with state := .streaming }
    let head := { head with headers := head.headers.stripResponse }
    if session.method = "GET" then
      ({ session with responseHead := some head, responseBody := some [] }, [])
    else if session.clientTerminated then (session, [])
    else ({ session with progress := .streaming }, [.sendHeaders head])

def onOriginBody (session : Session) (chunk : Bytes) : Session × List Action :=
  if session.released || session.state != .streaming then (session, [])
  else
    match session.responseBody with
    | some body => ({ session with responseBody := some (body ++ chunk) }, [])
    | none =>
        if session.progress = .streaming && !session.clientTerminated then
          (session, [.sendBody chunk])
        else (session, [])

/-- Stores a complete answer.  Nothing that comes of it changes the session. -/
def store (cache : ContentCache) (session : Session) (head : ResponseHead) (body : Bytes) :
    ContentCache :=
  if session.method = "GET" && head.status == 200 then
    (cache.put session.domain session.path body head.headers).2
  else cache

def onOriginEom (cache : ContentCache) (session : Session) :
    ContentCache × Session × List Action :=
  if session.released || session.state != .streaming then (cache, session, [])
  else
    let session := { session with state := .originComplete, originDone := true }
    if session.clientTerminated then (cache, session, [])
    else if session.progress = .streaming then
      (cache, { session with progress := .sent }, [.sendEom])
    else
      let emptied := { session with responseHead := none, responseBody := none }
      match session.responseHead, session.responseBody with
      | some head, some body =>
          (session.store cache head body, { emptied with progress := .sent },
            [.respond ⟨{ head with headers := head.headers.erase "content-length" }, body⟩])
      | _, _ => (cache, emptied.failBeforeResponse 502)

def failOrigin (session : Session) (status : Status) : Session × List Action :=
  match session.progress with
  | .none => session.failBeforeResponse status
  | _ => session.abortClient

def onOriginError (session : Session) (cause : ProxyError) : Session × List Action :=
  if session.released || session.originDone || !session.originAttached then (session, [])
  else
    let session := { session with
      state := .originError
      originDone := true
      responseHead := none
      responseBody := none }
    if session.clientTerminated then (session, [])
    else session.failOrigin cause.gatewayStatus

def onOriginDetached (session : Session) : Session × List Action :=
  if session.released || !session.originAttached then (session, [])
  else
    let session := { session with originAttached := false }
    let (session, actions) :=
      if !session.originDone && !session.clientTerminated then
        { session with
          originDone := true
          state := .originError
          responseHead := none
          responseBody := none }.failOrigin 502
      else (session, [])
    let session :=
      if session.clientTerminated then { session with state := .terminal } else session
    session.releaseIfDone actions

def onEgressPaused (session : Session) : Session × List Action :=
  if session.released || session.clientTerminated || !session.originOpen then (session, [])
  else (session, [.pauseIngress])

def onEgressResumed (session : Session) : Session × List Action :=
  if session.released || session.clientTerminated || !session.originOpen then (session, [])
  else (session, [.resumeIngress])

def step (cache : ContentCache) (session : Session) : Event → ContentCache × Session × List Action
  | .request head => session.onRequest cache head
  | .connectSuccess => (cache, session.onConnectSuccess)
  | .connectError cause => (cache, session.onConnectError cause)
  | .clientBody chunk => (cache, session.onClientBody chunk)
  | .clientEom => (cache, session.onClientEom)
  | .clientComplete => (cache, session.onClientComplete)
  | .clientError => (cache, session.onClientError)
  | .originHeaders head => (cache, session.onOriginHeaders head)
  | .originBody chunk => (cache, session.onOriginBody chunk)
  | .originEom => session.onOriginEom cache
  | .originError cause => (cache, session.onOriginError cause)
  | .originDetached => (cache, session.onOriginDetached)
  | .egressPaused => (cache, session.onEgressPaused)
  | .egressResumed => (cache, session.onEgressResumed)

def run (cache : ContentCache) (session : Session) :
    List Event → ContentCache × Session × List Action
  | [] => (cache, session, [])
  | event :: rest =>
      let (cache, session, actions) := session.step cache event
      let (cache, session, more) := session.run cache rest
      (cache, session, actions ++ more)

end CachingProxy.Session
