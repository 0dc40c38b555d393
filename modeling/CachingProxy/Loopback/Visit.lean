import CachingProxy.Exchange.Exchange

/-!
# Scripted clients

A visit is one request of a client of the in-memory network: its head, the chunks of its body and
their end, and how the client treats the answer.
-/

set_option autoImplicit false

namespace CachingProxy.Loopback

inductive Access where
  | direct
  | connection
  deriving DecidableEq

inductive BodyEnd where
  | plain
  | failed
  | trailers
  deriving DecidableEq

inductive Reading where
  | all
  | nothing
  /-- The body is left alone until nothing else can happen, and then read. -/
  | late
  | lateNothing
  deriving DecidableEq

structure Visit where
  head : RequestHead
  chunks : List Bytes := []
  bodyEnd : BodyEnd := .plain
  slow : Bool := false
  reading : Reading := .all
  leaves : Bool := false
  accepted : Bool := true

inductive Outcome where
  | answered (head : ResponseHead) (body : Option (Bytes × Option String))
  | cancelled
  | failed (cause : ProxyError)
  | closed

def Outcome.isCancelled : Outcome → Bool
  | .cancelled => true
  | _ => false

namespace Visit

def hasBody (visit : Visit) : Bool := !visit.chunks.isEmpty || visit.bodyEnd != .plain

def frames (visit : Visit) : List Exchange.ClientFrame :=
  visit.chunks.map .data ++
    match visit.bodyEnd with
    | .plain => [.ended]
    | .failed => [.failed]
    | .trailers => [.other, .ended]

def readsBody (visit : Visit) : Bool := visit.reading == .all || visit.reading == .late

end Visit

/-- The frames that a server reads of a body that is sent in a framing.  What goes beyond a declared
length is not sent; a body that ends before it has failed. -/
def carried (framing : Framing) : List Exchange.ClientFrame → List Exchange.ClientFrame
  | [] => []
  | .data chunk :: rest =>
      let (part, framing) := framing.pass chunk
      if framing.isComplete then [.data part, .ended] else .data part :: carried framing rest
  | .other :: rest => carried framing rest
  | .failed :: _ => [.failed]
  | .ended :: _ => [if framing.endsHere then .ended else .failed]

end CachingProxy.Loopback
