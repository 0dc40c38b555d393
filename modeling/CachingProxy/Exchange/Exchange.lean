import CachingProxy.Exchange.Outlet
import CachingProxy.Session.Step
import CachingProxy.Wire.Response

/-!
# Exchanges

An exchange carries one request between its client and its origin.  It tells the session what
happens and performs the actions of the session, whose consequences may be further actions.  Around
it stand the two connections: they read the bodies and drop them, and may do so at any time.
-/

set_option autoImplicit false

namespace CachingProxy

namespace Exchange

def chunkCapacity : Nat := 8

def eventCapacity : Nat := 8

inductive ClientFrame where
  | data (chunk : Bytes)
  | other
  | failed
  | ended
  deriving DecidableEq

inductive OriginEvent where
  | headers (head : ResponseHead)
  | body (chunk : Bytes)
  | eom
  | error (cause : ProxyError)
  deriving DecidableEq

inductive Reading where
  | idle
  | awaitingHead
  | inBody
  | finished
  deriving DecidableEq

structure Reader where
  reading : Reading := .idle
  queue : List OriginEvent := []
  deriving DecidableEq

/-- Whether a reader may report an event now: a head first, then chunks, then one end. -/
def Reader.mayReport (reader : Reader) (event : OriginEvent) : Bool :=
  decide (reader.queue.length < eventCapacity) &&
    match reader.reading, event with
    | .awaitingHead, .headers _ => true
    | .awaitingHead, .error _ => true
    | .inBody, .body chunk => !chunk.isEmpty
    | .inBody, .eom => true
    | .inBody, .error _ => true
    | _, _ => false

def Reader.report (reader : Reader) (event : OriginEvent) : Reader :=
  { queue := reader.queue ++ [event]
    reading := match event with
      | .headers _ | .body _ => .inBody
      | .eom | .error _ => .finished }

end Exchange

structure Exchange where
  cache : ContentCache
  session : Session
  method : String := "GET"
  clientOpen : Bool
  ingressPaused : Bool := false
  replyPending : Bool := true
  clientWaiting : Bool := true
  awaitingDelivery : Bool := false
  downloadOutlet : Option Outlet := none
  connecting : Option Endpoint := none
  connected : Bool := false
  uploadOutlet : Option Outlet := none
  receiving : Bool := false
  released : Bool := false
  /-- The body of the request to the origin, when it is streamed. -/
  upload : Option Body := none
  answer : Option ResponseHead := none
  download : Option Body := none
  report : Option Delivery := none
  originRequest : Option RequestHead := none
  reader : Exchange.Reader := {}

namespace Exchange

open Session (Action)

def tell (x : Exchange) (event : Session.Event) : Exchange × List Action :=
  let (cache, session, actions) := x.session.step x.cache event
  ({ x with cache, session }, actions)

/-! ## Performing actions -/

def closeUpload (x : Exchange) : Exchange :=
  match x.uploadOutlet with
  | none => x
  | some _ => { x with uploadOutlet := none, upload := x.upload.map Body.dropSender }

def closeDownload (x : Exchange) : Exchange :=
  match x.downloadOutlet with
  | none => x
  | some _ => { x with downloadOutlet := none, download := x.download.map Body.dropSender }

def abortDownload (x : Exchange) : Exchange :=
  match x.downloadOutlet with
  | none => x
  | some _ => { x with downloadOutlet := none, download := x.download.map Body.abort }

/-- Hands an answer to the client.  One that nobody waits for is dropped at once. -/
def sendResponse (x : Exchange) (head : ResponseHead) (body : Body) : Exchange :=
  if !x.replyPending then { x with download := some { body with dropped := true } }
  else if x.clientWaiting then
    { x with
      replyPending := false
      awaitingDelivery := true
      answer := some head
      download := some body }
  else
    let (report, body) := body.drop
    { x with replyPending := false, awaitingDelivery := true, download := some body, report }

def readLength (value : Bytes) : Option Nat :=
  (Bytes.asText? value).bind fun text =>
    match text.toList with
    | '+' :: digits => Wire.length? digits
    | digits => Wire.length? digits

def isBodiless (method : String) (status : Status) : Bool :=
  method == "HEAD" || Wire.isBodiless status

/-- How much of a streamed answer the client's connection will read. -/
def declaredLength (method : String) (head : ResponseHead) : Option Nat :=
  if isBodiless method head.status then some 0
  else (head.headers.get? "content-length").bind readLength

def streamedBody (method : String) (head : ResponseHead) : Body :=
  match declaredLength method head with
  | some length => (Body.ofCapacity chunkCapacity).withLength length
  | none => Body.ofCapacity chunkCapacity

/-- What is wrong with a target that has a query and no path.  A single octet can only be an
authority, and the mark of a query is no octet of one. -/
def targetFault (target : String) : String :=
  if target == "?" then "invalid uri character" else "invalid format"

def originRequest? (head : RequestHead) : Except ProxyError RequestHead :=
  match Uri.ofText? head.path with
  | some uri => .ok { head with uri, version := .http11 }
  | none =>
      .error (.http ("invalid request target " ++ head.path ++ ": " ++ targetFault head.path))

def openUpload (x : Exchange) : Exchange :=
  if x.clientOpen then
    { x with uploadOutlet := some {}, upload := some (Body.ofCapacity chunkCapacity) }
  else x

/-- A target that cannot be sent is a failure of the origin. -/
def refuseTarget (x : Exchange) (cause : ProxyError) : Exchange × List Action :=
  let failed := { x with uploadOutlet := none, upload := none }.tell (.originError cause)
  let detached := failed.1.tell .originDetached
  (detached.1, failed.2 ++ detached.2)

def startOrigin (x : Exchange) (head : RequestHead) : Exchange × List Action :=
  if !x.connected then (x, [])
  else
    let x := { x with connected := false }.openUpload
    match originRequest? head with
    | .error cause => x.refuseTarget cause
    | .ok request =>
        ({ x with
            originRequest := some request
            receiving := true
            reader := { reading := .awaitingHead } }, [])

def abortOrigin (x : Exchange) : Exchange :=
  { x.closeUpload with
    connecting := none, connected := false, receiving := false, reader := {} }

def forwardBody (x : Exchange) (chunk : Bytes) : Exchange × List Action :=
  match x.uploadOutlet, x.upload with
  | some outlet, some body =>
      match outlet.push body chunk with
      | (none, body) => ({ x with upload := some body }.closeUpload, [])
      | (some pushed, body) =>
          let x := { x with uploadOutlet := some pushed, upload := some body }
          if !outlet.isBlocked && pushed.isBlocked then x.tell .egressPaused else (x, [])
  | _, _ => (x, [])

def sendBody (x : Exchange) (chunk : Bytes) : Exchange :=
  match x.downloadOutlet, x.download with
  | some outlet, some body =>
      match outlet.push body chunk with
      | (none, body) => { x with download := some body }.closeDownload
      | (some pushed, body) => { x with downloadOutlet := some pushed, download := some body }
  | _, _ => x

def forwardEom (x : Exchange) : Exchange :=
  match x.uploadOutlet with
  | none => x
  | some outlet =>
      let closing := { outlet with closing := true }
      if closing.isFinished then x.closeUpload else { x with uploadOutlet := some closing }

def sendEom (x : Exchange) : Exchange :=
  match x.downloadOutlet with
  | none => x
  | some outlet =>
      let closing := { outlet with closing := true }
      if closing.isFinished then x.closeDownload else { x with downloadOutlet := some closing }

/-- Performs one action.  What the session says to its consequences is done after the others. -/
def perform (x : Exchange) : Action → Exchange × List Action
  | .respond response => (x.sendResponse response.head (.full response.body), [])
  | .sendHeaders head =>
      ({ x with downloadOutlet := some {} }.sendResponse head (streamedBody x.method head), [])
  | .sendBody chunk => (x.sendBody chunk, [])
  | .sendEom => (x.sendEom, [])
  | .connect origin => ({ x with connecting := some origin }, [])
  | .sendOriginRequest head => x.startOrigin head
  | .forwardBody chunk => x.forwardBody chunk
  | .forwardEom => (x.forwardEom, [])
  | .pauseIngress => ({ x with ingressPaused := true }, [])
  | .resumeIngress => ({ x with ingressPaused := false }, [])
  | .abortOrigin => x.abortOrigin.tell .originDetached
  | .abortClient =>
      ({ x with replyPending := false, awaitingDelivery := false }.abortDownload, [])
  | .release => ({ x with released := true }, [])

/-! ## Carrying out the actions of the session -/

/-- A bound on what an action may lead to, itself included. -/
def weight : Action → Nat
  | .sendOriginRequest _ => 6
  | .abortOrigin => 4
  | .forwardBody _ => 2
  | _ => 1

def totalWeight : List Action → Nat
  | [] => 0
  | action :: rest => weight action + totalWeight rest

theorem totalWeight_append (xs ys : List Action) :
    totalWeight (xs ++ ys) = totalWeight xs + totalWeight ys := by
  induction xs with
  | nil => simp [totalWeight]
  | cons action rest ih =>
      rw [List.cons_append, totalWeight, totalWeight, ih, Nat.add_assoc]

theorem totalWeight_egressPaused (x : Exchange) :
    totalWeight (x.tell .egressPaused).2 ≤ 1 := by
  simp only [tell, Session.step, Session.onEgressPaused]
  split <;> simp [totalWeight, weight]

theorem totalWeight_originError (x : Exchange) (cause : ProxyError) :
    totalWeight (x.tell (.originError cause)).2 ≤ 2 := by
  simp only [tell, Session.step, Session.onOriginError, Session.failOrigin,
    Session.failBeforeResponse, Session.abortClient, Session.releaseIfDone, Session.originOpen]
  repeat' split
  all_goals simp_all [totalWeight, weight]

theorem totalWeight_originDetached (x : Exchange) :
    totalWeight (x.tell .originDetached).2 ≤ 3 := by
  simp only [tell, Session.step, Session.onOriginDetached, Session.failOrigin,
    Session.failBeforeResponse, Session.abortClient, Session.releaseIfDone, Session.originOpen]
  repeat' split
  all_goals simp_all [totalWeight, weight]

theorem totalWeight_refuseTarget (x : Exchange) (cause : ProxyError) :
    totalWeight (x.refuseTarget cause).2 ≤ 5 := by
  have failed := totalWeight_originError { x with uploadOutlet := none, upload := none } cause
  have detached := totalWeight_originDetached
    ({ x with uploadOutlet := none, upload := none }.tell (.originError cause)).1
  simp only [refuseTarget, totalWeight_append]
  omega

theorem totalWeight_perform (x : Exchange) (action : Action) :
    totalWeight (x.perform action).2 < weight action := by
  cases action with
  | sendOriginRequest head =>
      simp only [perform, startOrigin, weight]
      split
      · simp [totalWeight]
      · split
        · exact Nat.lt_succ_of_le (totalWeight_refuseTarget _ _)
        · simp [totalWeight]
  | forwardBody chunk =>
      simp only [perform, forwardBody, weight]
      split
      · split
        · simp [totalWeight]
        · split
          · exact Nat.lt_succ_of_le (totalWeight_egressPaused _)
          · simp [totalWeight]
      · simp [totalWeight]
  | abortOrigin =>
      simp only [perform, weight]
      exact Nat.lt_succ_of_le (totalWeight_originDetached _)
  | _ => simp [perform, weight, totalWeight]

/-- Performs actions in order, and then what they led to.  The actions that were performed are
listed. -/
def apply (x : Exchange) (actions : List Action) : Exchange × List Action :=
  match actions with
  | [] => (x, [])
  | action :: rest =>
      let done := (x.perform action).1.apply (rest ++ (x.perform action).2)
      (done.1, action :: done.2)
termination_by totalWeight actions
decreasing_by
  rw [totalWeight_append]
  have := totalWeight_perform x action
  simp only [totalWeight] at *
  omega

/-- A released exchange lets go of all it holds: both streams, the origin and the client. -/
def dispose (x : Exchange) : Exchange :=
  { x.abortOrigin.closeDownload with replyPending := false, awaitingDelivery := false }

def notify (x : Exchange) (event : Session.Event) : Exchange × List Action :=
  let (x, actions) := x.tell event
  let (x, done) := x.apply actions
  (if x.released then x.dispose else x, done)

/-! ## What may happen -/

def readsClient (x : Exchange) : Bool := !x.released && !x.ingressPaused && x.clientOpen

def isBlocked (outlet : Option Outlet) : Bool :=
  match outlet with
  | some outlet => outlet.isBlocked
  | none => false

def readsOrigin (x : Exchange) : Bool := !x.released && x.receiving && !isBlocked x.downloadOutlet

inductive Event where
  | clientFrame (frame : ClientFrame)
  | connected (result : Except ProxyError Unit)
  | originReports (event : OriginEvent)
  | originReceived
  | uploadReady
  | downloadReady
  | deliveryReported
  | clientGone
  | replyClosed
  | pollUpload
  | dropUpload
  | pollDownload
  | dropDownload

inductive Observation where
  | performed (action : Action)
  | uploaded (frame : Body.Frame)
  | downloaded (frame : Body.Frame)
  | delivered (report : Delivery)
  deriving DecidableEq

def hasRoom : Option Body → Bool
  | some body => body.room != .full
  | none => true

def enabled (x : Exchange) : Event → Bool
  | .clientFrame _ => x.readsClient
  | .connected _ => !x.released && x.connecting.isSome
  | .originReports event => x.receiving && x.reader.mayReport event
  | .originReceived =>
      x.readsOrigin && (!x.reader.queue.isEmpty || x.reader.reading == .finished)
  | .uploadReady => !x.released && isBlocked x.uploadOutlet && hasRoom x.upload
  | .downloadReady => !x.released && isBlocked x.downloadOutlet && hasRoom x.download
  | .deliveryReported => !x.released && x.awaitingDelivery && x.report.isSome
  | .clientGone => x.clientWaiting && x.answer.isNone
  | .replyClosed => !x.released && x.replyPending && !x.clientWaiting
  | .pollUpload | .dropUpload => x.upload.any fun body => !body.dropped
  | .pollDownload | .dropDownload =>
      x.answer.isSome && x.download.any fun body => !body.dropped

def onClientFrame (x : Exchange) : ClientFrame → Exchange × List Action
  | .data chunk => if chunk.isEmpty then (x, []) else x.notify (.clientBody chunk)
  | .other => (x, [])
  | .failed => { x with clientOpen := false }.notify .clientError
  | .ended => { x with clientOpen := false }.notify .clientEom

def onConnected (x : Exchange) : Except ProxyError Unit → Exchange × List Action
  | .ok _ => { x with connecting := none, connected := true }.notify .connectSuccess
  | .error cause => { x with connecting := none }.notify (.connectError cause)

def onOriginReceived (x : Exchange) : Exchange × List Action :=
  match x.reader.queue with
  | event :: rest =>
      let x := { x with reader := { x.reader with queue := rest } }
      match event with
      | .headers head => x.notify (.originHeaders head)
      | .body chunk => x.notify (.originBody chunk)
      | .eom => x.notify .originEom
      | .error cause => x.notify (.originError cause)
  | [] => { x.closeUpload with receiving := false, reader := {} }.notify .originDetached

def onUploadReady (x : Exchange) : Exchange × List Action :=
  match x.uploadOutlet, x.upload with
  | some outlet, some body =>
      let (drained, body) := outlet.drain body
      let x := { x with upload := some body }
      let x := match drained with
        | none => x.closeUpload
        | some outlet =>
            if outlet.isFinished then x.closeUpload else { x with uploadOutlet := some outlet }
      if isBlocked x.uploadOutlet then (x, []) else x.notify .egressResumed
  | _, _ => (x, [])

def onDownloadReady (x : Exchange) : Exchange :=
  match x.downloadOutlet, x.download with
  | some outlet, some body =>
      let (drained, body) := outlet.drain body
      let x := { x with download := some body }
      match drained with
      | none => x.closeDownload
      | some outlet =>
          if outlet.isFinished then x.closeDownload else { x with downloadOutlet := some outlet }
  | _, _ => x

def onDelivery (x : Exchange) (report : Delivery) : Exchange × List Action :=
  let x := { x with awaitingDelivery := false }
  match report with
  | .complete => x.notify .clientComplete
  | .aborted => x.notify .clientError

def pollBody (body : Option Body) : Body.Frame × Option Body :=
  match body with
  | none => (.pending, none)
  | some body =>
      let (frame, body) := body.poll
      (frame, some body)

def performed (result : Exchange × List Action) : Exchange × List Observation :=
  (result.1, result.2.map .performed)

/-- One event.  What cannot happen changes nothing. -/
def step (x : Exchange) (event : Event) : Exchange × List Observation :=
  if !x.enabled event then (x, [])
  else
    match event with
    | .clientFrame frame => performed (x.onClientFrame frame)
    | .connected result => performed (x.onConnected result)
    | .originReports event => ({ x with reader := x.reader.report event }, [])
    | .originReceived => performed x.onOriginReceived
    | .uploadReady => performed x.onUploadReady
    | .downloadReady => (x.onDownloadReady, [])
    | .deliveryReported =>
        match x.report with
        | some report => performed (x.onDelivery report)
        | none => (x, [])
    | .clientGone => ({ x with clientWaiting := false }, [])
    | .replyClosed => performed ({ x with replyPending := false }.notify .clientError)
    | .pollUpload =>
        let (frame, upload) := pollBody x.upload
        ({ x with upload }, [.uploaded frame])
    | .dropUpload => ({ x with upload := x.upload.map fun body => body.drop.2 }, [])
    | .pollDownload =>
        let (frame, download) := pollBody x.download
        ({ x with download }, [.downloaded frame])
    | .dropDownload =>
        match x.download with
        | none => (x, [])
        | some body =>
            let (report, body) := body.drop
            ({ x with download := some body, report },
              (report.toList).map .delivered)

def run (x : Exchange) : List Event → Exchange × List Observation
  | [] => (x, [])
  | event :: rest =>
      let (x, seen) := x.step event
      let (x, more) := x.run rest
      (x, seen ++ more)

/-- Starts the exchange for a request.  `bodyDone` says that the client sends no body. -/
def start (cache : ContentCache) (session : Session) (bodyDone : Bool) (head : RequestHead) :
    Exchange × List Observation :=
  let x : Exchange := { cache, session, clientOpen := !bodyDone, method := head.method }
  let (x, actions) := x.notify (.request head)
  let (x, more) := if bodyDone then x.notify .clientEom else (x, [])
  (x, (actions ++ more).map .performed)

end Exchange

end CachingProxy
