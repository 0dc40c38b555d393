import CachingProxy.Bytes
import CachingProxy.Failure
import CachingProxy.Text.Quoted

/-!
# Bodies

A body is a complete buffer, or a stream of chunks through a channel of bounded size.  Dropping the
sender ends a stream, aborting it makes the stream fail, in both cases behind the chunks that were
accepted.  When a body is dropped it reports whether it was delivered in full.
-/

set_option autoImplicit false

namespace CachingProxy

inductive Delivery where
  | complete
  | aborted
  deriving DecidableEq

namespace Body

/-- The chunks of a stream that wait to be read, and the state of its sender. -/
structure Channel where
  capacity : Nat
  queue : List Bytes := []
  sending : Bool := true
  aborted : Bool := false
  deriving DecidableEq

inductive Content where
  | full (bytes : Option Bytes)
  | stream (channel : Channel)
  deriving DecidableEq

inductive Frame where
  | data (bytes : Bytes)
  | pending
  | ended
  | failed (cause : ProxyError)
  deriving DecidableEq

inductive Sent where
  | accepted
  | full
  | closed
  deriving DecidableEq

end Body

structure Body where
  content : Body.Content
  finished : Bool := false
  remaining : Option Nat := none
  dropped : Bool := false
  deriving DecidableEq

namespace Body

/-- A complete body.  An empty one is finished from the start. -/
def full (bytes : Bytes) : Body :=
  if bytes.isEmpty then { content := .full none, finished := true }
  else { content := .full (some bytes) }

def ofCapacity (capacity : Nat) : Body := { content := .stream { capacity := max capacity 1 } }

/-- Declares the length of a stream.  It counts as delivered once so much was read. -/
def withLength (body : Body) (length : Nat) : Body :=
  match body.content with
  | .stream _ => { body with remaining := some length, finished := length == 0 }
  | .full _ => body

def channel? (body : Body) : Option Channel :=
  match body.content with
  | .stream channel => some channel
  | .full _ => none

def hasSender (body : Body) : Bool :=
  match body.content with
  | .stream channel => channel.sending
  | .full _ => false

/-! ## Sending -/

def room (body : Body) : Sent :=
  match body.content with
  | .full _ => .closed
  | .stream channel =>
      if body.dropped then .closed
      else if channel.queue.length < channel.capacity then .accepted
      else .full

def trySend (body : Body) (chunk : Bytes) : Sent × Body :=
  match body.content, body.room with
  | .stream channel, .accepted =>
      (.accepted, { body with
        content := .stream { channel with queue := channel.queue ++ [chunk] } })
  | _, sent => (sent, body)

def dropSender (body : Body) : Body :=
  match body.content with
  | .stream channel => { body with content := .stream { channel with sending := false } }
  | .full _ => body

def abort (body : Body) : Body :=
  match body.content with
  | .stream channel =>
      { body with content := .stream { channel with sending := false, aborted := true } }
  | .full _ => body

/-! ## Reading -/

def aborted : ProxyError := .origin "response stream aborted"

def countDown (body : Body) (size : Nat) : Body :=
  match body.remaining with
  | none => body
  | some remaining =>
      { body with remaining := some (remaining - size), finished := remaining - size == 0 }

def poll (body : Body) : Frame × Body :=
  match body.content with
  | .full none => (.ended, { body with finished := true })
  | .full (some bytes) => (.data bytes, { body with content := .full none, finished := true })
  | .stream channel =>
      match channel.queue with
      | chunk :: rest =>
          (.data chunk,
            { body with content := .stream { channel with queue := rest } }.countDown chunk.length)
      | [] =>
          if channel.sending then (.pending, body)
          else if channel.aborted then (.failed Body.aborted, body)
          else (.ended, { body with finished := true })

def isEndStream (body : Body) : Bool :=
  match body.content with
  | .full bytes => bytes.isNone
  | .stream _ => body.finished

def sizeHint (body : Body) : Nat × Option Nat :=
  match body.content with
  | .full (some bytes) => (bytes.length, some bytes.length)
  | .full none => (0, some 0)
  | .stream _ => (0, none)

/-- A stream that was closed, read to the end and not aborted. -/
def isDrained (body : Body) : Bool :=
  match body.content with
  | .stream channel => !channel.sending && channel.queue.isEmpty && !channel.aborted
  | .full _ => false

/-- Drops the body.  The first time it reports how it was delivered. -/
def drop (body : Body) : Option Delivery × Body :=
  if body.dropped then (none, body)
  else
    (some (if body.finished || body.isDrained then .complete else .aborted),
      { body with dropped := true })

/-! ## Runs -/

inductive Event where
  | trySend (chunk : Bytes)
  | send (chunk : Bytes)
  | ready
  | dropSender
  | abort
  | poll
  | drop
  deriving DecidableEq

inductive Outcome where
  | sent (result : Sent)
  /-- What a sender that is ready to wait finds. -/
  | awaited (result : Sent)
  | frame (frame : Frame)
  | delivered (report : Option Delivery)
  | done
  | gone
  deriving DecidableEq

def Outcome.report? : Outcome → Option Delivery
  | .delivered report => report
  | _ => none

def step (body : Body) : Event → Outcome × Body
  | .trySend chunk =>
      if body.hasSender then
        let (sent, body) := body.trySend chunk
        (.sent sent, body)
      else (.gone, body)
  | .send chunk =>
      if body.hasSender then
        let (sent, body) := body.trySend chunk
        (.awaited sent, body)
      else (.gone, body)
  | .ready => if body.hasSender then (.awaited body.room, body) else (.gone, body)
  | .dropSender => if body.hasSender then (.done, body.dropSender) else (.gone, body)
  | .abort => if body.hasSender then (.done, body.abort) else (.gone, body)
  | .poll =>
      if body.dropped then (.gone, body)
      else
        let (frame, body) := body.poll
        (.frame frame, body)
  | .drop =>
      if body.dropped then (.gone, body)
      else
        let (report, body) := body.drop
        (.delivered report, body)

def run (body : Body) : List Event → List Outcome × Body
  | [] => ([], body)
  | event :: rest =>
      let (outcome, body) := body.step event
      let (more, body) := body.run rest
      (outcome :: more, body)

def describe (body : Body) : String :=
  let kind := match body.content with
    | .full (some bytes) => "Full(" ++ toString bytes.length ++ " bytes)"
    | .full none => "Full(taken)"
    | .stream _ => "Stream"
  Text.record "SessionBody" [
    ("kind", Text.quoted kind), ("finished", Text.boolText body.finished)]

end Body

end CachingProxy
