import CachingProxy.Wire.Framing

/-!
# Requests on a connection

A sender adds to a request what frames its body, and a server reads the framing off the head.  The
methods that seldom have a body are sent without one unless its length is declared.
-/

set_option autoImplicit false

namespace CachingProxy.Wire

def seldomHasBody (method : String) : Bool :=
  method == "GET" || method == "HEAD" || method == "CONNECT"

def chunkedField : Field := ⟨"transfer-encoding", Bytes.ofText "chunked"⟩

/-- A request as it is sent, and the framing of its body.  A body that is sent has no length of its
own; only version 1.1 has chunks. -/
def sentRequest (head : RequestHead) (hasBody : Bool) : RequestHead × Framing :=
  let plain := { head with headers := head.headers.erase "transfer-encoding" }
  let declared := head.headers.declaredLength?
  if !hasBody then (plain, .length 0)
  else if head.version != .http11 then (plain, .length (declared.getD 0))
  else if head.headers.has "transfer-encoding" then
    match declared with
    | some _ => ({ head with headers := head.headers.erase "content-length" }, .chunked)
    | none => (head, .chunked)
  else
    match declared with
    | some length => (head, .length length)
    | none =>
        if seldomHasBody head.method then (head, .length 0)
        else ({ head with headers := head.headers ++ [chunkedField] }, .chunked)

def requestFraming (headers : Headers) : Except Status Framing :=
  if headers.has "transfer-encoding" then
    if headers.isChunked then .ok .chunked else .error 400
  else
    match headers.values "content-length" with
    | [] => .ok (.length 0)
    | values =>
        match (values.mapM singleLength?).bind common? with
        | none => .error 400
        | some length => if length ≤ Framing.maxLength then .ok (.length length) else .error 431

def keepOneLength (headers : Headers) : Headers :=
  match headers.get? "content-length" with
  | none => headers
  | some value => headers.set "content-length" value

/-- A request as a server reads it, with the framing of its body, or the status that refuses it.
Every version but 1.0 comes as 1.1. -/
def receivedRequest (head : RequestHead) : Except Status (RequestHead × Framing) :=
  match Uri.ofText? head.uri.text with
  | none => .error 400
  | some uri =>
      let headers := head.headers.received
      match requestFraming headers with
      | .error status => .error status
      | .ok framing =>
          let version := if head.version = .http10 then .http10 else .http11
          .ok ({ head with uri, version, headers := keepOneLength headers }, framing)

def keepsOpen (head : RequestHead) : Bool :=
  if head.version = .http10 then head.headers.wantsConnection "keep-alive"
  else !head.headers.wantsConnection "close"

end CachingProxy.Wire
