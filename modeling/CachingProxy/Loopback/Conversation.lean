import CachingProxy.Loopback.Script
import CachingProxy.Loopback.Visit

/-!
# Conversations

A conversation is one exchange between a scripted client and a scripted origin.  What can happen
next is tried in a fixed order, so a conversation is a function of its two scripts: the client's
body goes first, unless it is slow, then the connection to the origin, then the origin's answer,
then the reading client.
-/

set_option autoImplicit false

namespace CachingProxy.Loopback

inductive Sending where
  | notStarted
  | body (framing : Framing)
  | complete
  | broken
  deriving DecidableEq

structure Conversation where
  exchange : Exchange
  access : Access
  request : RequestHead
  frames : List Exchange.ClientFrame
  slow : Bool := false
  connects : Except ProxyError Unit
  script : Script
  sending : Sending := .notStarted
  asked : Option RequestHead := none
  received : List Bytes := []
  replies : List Exchange.OriginEvent := []
  leaves : Bool := false
  reading : Reading := .all
  /-- The answer as it reaches the client, and the framing of what is still to be read. -/
  answer : Option (ResponseHead × Framing) := none
  chunks : List Bytes := []
  readError : Option String := none
  closed : Bool := false

namespace Conversation

def act (c : Conversation) (event : Exchange.Event) : Option Conversation :=
  if c.exchange.enabled event then some { c with exchange := (c.exchange.step event).1 } else none

/-! ## The client's body and the origin's connection -/

def readFrame (c : Conversation) : Option Conversation :=
  match c.frames with
  | [] => none
  | frame :: rest => ({ c with frames := rest }).act (.clientFrame frame)

def readClient (c : Conversation) : Option Conversation := if c.slow then none else c.readFrame

/-- A slow body is read when all the rest has come to a halt. -/
def readSlowly (c : Conversation) : Option Conversation := if c.slow then c.readFrame else none

def connect (c : Conversation) : Option Conversation := c.act (.connected c.connects)

def sendHead (c : Conversation) : Option Conversation :=
  match c.sending, c.exchange.originRequest with
  | .notStarted, some head =>
      let (head, framing) := Wire.sentRequest head c.exchange.upload.isSome
      some { c with
        sending := .body framing
        asked := some { head with headers := head.headers.received } }
  | _, _ => none

def finishRequest (c : Conversation) : Conversation :=
  { c with sending := .complete, replies := c.script.events c.request.method }

def breakRequest (c : Conversation) : Conversation :=
  { c with sending := .broken, replies := [.error Script.lost] }

/-- Whether a body that is not there agrees with the head of the request. -/
def expectsNothing (c : Conversation) : Bool :=
  match c.asked.map fun head => Wire.requestFraming head.headers with
  | some (.ok framing) => framing.isComplete
  | _ => false

def dropUpload (c : Conversation) : Conversation := (c.act .dropUpload).getD c

def takeFrame (c : Conversation) (framing : Framing) : Body.Frame → Conversation
  | .data chunk =>
      let (part, framing) := framing.pass chunk
      let c := { c with received := c.received ++ [part], sending := .body framing }
      if framing.isComplete then c.dropUpload.finishRequest else c
  | .pending => c
  | .ended => if framing.endsHere then c.dropUpload.finishRequest else c.dropUpload.breakRequest
  | .failed _ => c.dropUpload.breakRequest

def hasFrame (body : Body) : Bool := !body.dropped && body.poll.1 != .pending

def sendBody (c : Conversation) : Option Conversation :=
  match c.sending, c.exchange.upload with
  | .body framing, none =>
      if framing.isComplete && c.expectsNothing then some c.finishRequest else none
  | .body framing, some body =>
      if !c.exchange.receiving then none
      else if framing.isComplete then some c.dropUpload.finishRequest
      else if hasFrame body then
        (c.act .pollUpload).map fun c => c.takeFrame framing body.poll.1
      else none
  | _, _ => none

/-! ## The origin's answer -/

def leave (c : Conversation) : Option Conversation :=
  if c.leaves && c.sending == .complete then ({ c with leaves := false }).act .clientGone else none

def report (c : Conversation) : Option Conversation :=
  match c.replies with
  | [] => none
  | event :: rest => ({ c with replies := rest }).act (.originReports event)

/-! ## The client's answer -/

def brokenText : String := "error reading a body from connection"

def dropDownload (c : Conversation) : Conversation := (c.act .dropDownload).getD c

def sizeOf (body : Body) : Wire.BodySize :=
  if body.isEndStream then .none
  else
    match body.sizeHint.2 with
    | some length => .known length
    | none => .unknown

def receiveHead (c : Conversation) : Option Conversation :=
  match c.answer, c.exchange.answer, c.exchange.download with
  | none, some head, some body =>
      if c.closed then none
      else
        match c.access with
        | .direct => some { c with answer := some (head, .untilClose) }
        | .connection =>
            match Wire.sentResponse? c.request head (sizeOf body) with
            | none => some { c.dropDownload with closed := true }
            | some (head, framing) =>
                let head := { head with headers := head.headers.received }
                some { c with answer := some (head, framing) }
  | _, _, _ => none

/-- How a body that fails looks to the client: a connection hides the cause, and a body that ends
with the connection seems complete. -/
def failureText (c : Conversation) (framing : Framing) (cause : ProxyError) : Option String :=
  match c.access, framing with
  | .direct, _ => some cause.message
  | .connection, .untilClose => none
  | .connection, _ => some brokenText

def takeChunk (c : Conversation) (head : ResponseHead) (framing : Framing) :
    Body.Frame → Conversation
  | .data chunk =>
      let (part, framing) := framing.pass chunk
      { c with chunks := c.chunks ++ [part], answer := some (head, framing) }
  | .pending => c
  | .ended =>
      { c.dropDownload with readError := if framing.endsHere then none else some brokenText }
  | .failed cause => { c.dropDownload with readError := c.failureText framing cause }

def readAnswer (c : Conversation) : Option Conversation :=
  match c.answer, c.exchange.download with
  | some (head, framing), some body =>
      if body.dropped then none
      else
        match c.reading with
        | .nothing => c.act .dropDownload
        | .late | .lateNothing => none
        | .all =>
            if framing.isComplete then c.act .dropDownload
            else if hasFrame body then
              (c.act .pollDownload).map fun c => c.takeChunk head framing body.poll.1
            else none
  | _, _ => none

def turnToAnswer (c : Conversation) : Option Conversation :=
  match c.reading with
  | .late => some { c with reading := .all }
  | .lateNothing => some { c with reading := .nothing }
  | .all | .nothing => none

/-! ## The schedule -/

/-- What may happen, in the order in which it is tried. -/
def moves : List (Conversation → Option Conversation) := [
  readClient,
  connect,
  sendHead,
  sendBody,
  fun c => c.act .uploadReady,
  leave,
  fun c => c.act .replyClosed,
  receiveHead,
  readAnswer,
  report,
  fun c => c.act .originReceived,
  fun c => c.act .downloadReady,
  fun c => c.act .deliveryReported,
  readSlowly,
  turnToAnswer]

def next? (c : Conversation) : Option Conversation := moves.findSome? fun move => move c

def advance : Nat → Conversation → Conversation
  | 0, c => c
  | n + 1, c =>
      match c.next? with
      | none => c
      | some c => advance n c

/-- Enough moves for each frame of the client and each chunk of the origin, and for the rest. -/
def budget (c : Conversation) : Nat := 16 * (c.frames.length + c.script.chunks.length) + 128

def finish (c : Conversation) : Conversation := c.advance c.budget

/-! ## What was seen -/

def outcome (c : Conversation) (readsBody : Bool) : Outcome :=
  match c.answer with
  | some (head, _) =>
      .answered head (if readsBody then some (Bytes.concat c.chunks, c.readError) else none)
  | none =>
      if !c.exchange.clientWaiting then .cancelled
      else
        match c.access with
        | .direct => .failed .clientAborted
        | .connection => .closed

def originRequest? (c : Conversation) : Option (RequestHead × Bytes) :=
  if c.sending == .complete then c.asked.map fun head => (head, Bytes.concat c.received) else none

/-- The connection to the origin was opened and is closed again. -/
def originClosed (c : Conversation) : Bool := c.asked.isSome && !c.exchange.receiving

end Conversation

end CachingProxy.Loopback
