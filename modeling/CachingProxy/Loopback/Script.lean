import CachingProxy.Exchange.Exchange
import CachingProxy.Peers.Gateway

/-!
# Scripted origins

An origin of the in-memory network answers by a script: a head, the chunks of a body, how the body
is framed, and what goes wrong.  `Script.events` is what the reader of the answer reports.
-/

set_option autoImplicit false

namespace CachingProxy.Loopback

inductive Layout where
  | length
  | chunked
  | trailers
  | close
  | none
  deriving DecidableEq

inductive Fault where
  | close
  | garbage
  | truncate
  | hang
  /-- The answer stops before the end of its body. -/
  | hangBody
  deriving DecidableEq

structure Script where
  status : Status := 200
  headers : Headers := []
  chunks : List Bytes := []
  layout : Layout := .length
  fault : Option Fault := none
  deriving DecidableEq

namespace Script

/-- How many octets more than it sends a script with a broken body declares. -/
def missing : Nat := 10

def breaksBody (script : Script) : Bool :=
  script.fault == some .truncate || script.fault == some .hangBody

def hangs (script : Script) : Bool := script.fault == some .hang || script.fault == some .hangBody

def declared (script : Script) : Nat :=
  (Bytes.concat script.chunks).length + if script.breaksBody then missing else 0

def head (script : Script) : ResponseHead :=
  let framed := match script.layout with
    | .length => [⟨"content-length", Bytes.ofText (toString script.declared)⟩]
    | .chunked | .trailers => [Wire.chunkedField]
    | .close | .none => []
  ⟨script.status, script.headers.received ++ framed⟩

def lost : ProxyError := .origin "connection closed before message completed"

def malformed : ProxyError := .origin "invalid HTTP message"

def brokenBody : ProxyError := .origin "error reading a body from connection"

def isChunked (script : Script) : Bool :=
  script.layout == .chunked || script.layout == .trailers

/-- What the reader reports behind the chunks, with the framing that is left then. -/
def ending (script : Script) (left : Framing) : List Exchange.OriginEvent :=
  let broken := script.breaksBody
  let silent := script.fault == some .hangBody
  match left with
  | .length 0 => [.eom]
  | .length _ => if silent then [] else [.error brokenBody]
  | .chunked => if silent then [] else if broken then [.error brokenBody] else [.eom]
  | .untilClose => if silent then [] else [.eom]

def answer (script : Script) (method : String) : List Exchange.OriginEvent :=
  match Wire.responseFraming? method script.head with
  | none => [.error malformed]
  | some .chunked =>
      if script.isChunked then
        .headers script.head :: (script.chunks.filter fun chunk => !chunk.isEmpty).map .body ++
          script.ending .chunked
      else [.headers script.head, .error malformed]
  | some framing =>
      let chunks := if script.layout == .none then [] else script.chunks
      let (parts, left) := framing.passAll chunks
      .headers script.head :: parts.map .body ++ script.ending left

/-- What the reader of the answer to a request of a method reports. -/
def events (script : Script) (method : String) : List Exchange.OriginEvent :=
  match script.fault with
  | some .close => [.error lost]
  | some .garbage => [.error malformed]
  | some .hang => []
  | _ => script.answer method

/-! ## Gateways -/

def timedOut : String := "operation timed out"

def gather (body : Bytes) : List Exchange.OriginEvent → Except String Bytes
  | [] => .error timedOut
  | .body chunk :: rest => gather (body ++ chunk) rest
  | .eom :: _ => .ok body
  | .error cause :: _ => .error cause.message
  | .headers _ :: rest => gather body rest

def reply (script : Script) : Except String Gateway.Reply :=
  match script.events "GET" with
  | .headers head :: rest => .ok { status := head.status, body := gather [] rest }
  | .error cause :: _ => .error cause.message
  | _ => .error timedOut

end Script

end CachingProxy.Loopback
