import CachingProxy.Loopback.Conversation
import CachingProxy.Server.Server

/-!
# The in-memory network

Clients of the network visit a server whose origins answer by a script.  A visit is answered by the
router, or by a session in a conversation with the origin; over a connection it also crosses the
wire in both directions.
-/

set_option autoImplicit false

namespace CachingProxy.Loopback

inductive Reach where
  | up
  | refused
  | timedOut
  deriving DecidableEq

/-- Whether there is a network at all, and how it reaches the origins. -/
structure Network where
  isUp : Bool := false
  origins : Reach := .up

namespace Network

def connects (network : Network) (authority : String) : Except ProxyError Unit :=
  let refused := ProxyError.originConnect authority "Connection refused (os error 111)"
  if !network.isUp then .error refused
  else
    match network.origins with
    | .up => .ok ()
    | .refused => .error refused
    | .timedOut => .error (.originTimeout authority)

end Network

structure Arrival where
  head : RequestHead
  bodyDone : Bool
  frames : List Exchange.ClientFrame

namespace Visit

def arrival (visit : Visit) : Arrival :=
  { head := visit.head, bodyDone := !visit.hasBody, frames := visit.frames }

/-- The visit behind its connection, or the status with which the server refuses it. -/
def carriedArrival (visit : Visit) : Except Status Arrival :=
  let (sent, framing) := Wire.sentRequest visit.head visit.hasBody
  match Wire.receivedRequest sent with
  | .error status => .error status
  | .ok (head, expected) => .ok {
      head
      bodyDone := expected.isComplete
      frames := if framing.isComplete then [] else carried framing visit.frames }

end Visit

structure Visited where
  outcome : Outcome
  asked : Option (RequestHead × Bytes) := none
  originClosed : Bool := false

def deliver (access : Access) (request : RequestHead) (reading : Bool) (response : Response) :
    Outcome :=
  let size := if response.body.isEmpty then .none else .known response.body.length
  match access with
  | .direct => .answered response.head (if reading then some (response.body, none) else none)
  | .connection =>
      match Wire.sentResponse? request response.head size with
      | none => .closed
      | some (head, framing) =>
          let body := (framing.pass response.body).1
          .answered { head with headers := head.headers.received }
            (if reading then some (body, none) else none)

def converse (network : Network) (access : Access) (cache : ContentCache) (session : Session)
    (arrival : Arrival) (visit : Visit) (script : Script) : Conversation :=
  let authority := (session.origin.map Endpoint.authority).getD ""
  Conversation.finish {
    exchange := (Exchange.start cache session arrival.bodyDone arrival.head).1
    access
    request := arrival.head
    frames := if arrival.bodyDone then [] else arrival.frames
    slow := visit.slow
    connects := network.connects authority
    script
    leaves := visit.leaves
    reading := visit.reading }

/-- A request that has arrived: what it comes to, and the server after it. -/
def serve (network : Network) (access : Access) (server : Server) (arrival : Arrival)
    (visit : Visit) (script : Script) : Visited × Server :=
  let handler := server.router.dispatch server.cache server.edge false arrival.head
  match handler, handler.response? with
  | .proxy session, _ =>
      let c := converse network access server.cache session arrival visit script
      ({ outcome := c.outcome visit.readsBody
         asked := c.originRequest?
         originClosed := c.originClosed },
        { server with cache := c.exchange.cache })
  | _, some (.ok response) =>
      ({ outcome := deliver access arrival.head visit.readsBody response }, server)
  | _, some (.error cause) =>
      ({ outcome := match access with
          | .direct => .failed cause
          | .connection => .closed }, server)
  | _, none => ({ outcome := .closed }, server)

def visit (network : Network) (access : Access) (server : Server) (visit : Visit)
    (script : Script) : Visited × Server :=
  match access with
  | .direct => serve network access server visit.arrival visit script
  | .connection =>
      if !network.isUp || !visit.accepted then ({ outcome := .closed }, server)
      else
        match visit.carriedArrival with
        | .error status =>
            ({ outcome := .answered (Wire.refusal status)
                (if visit.readsBody then some ([], none) else none) }, server)
        | .ok arrival => serve network access server arrival visit script

end CachingProxy.Loopback
