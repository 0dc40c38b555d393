import CachingProxy.Wire.Request

/-!
# Answers on a connection

A server adds to an answer what frames its body.  A reader needs the method of the request to read
the framing off the head.
-/

set_option autoImplicit false

namespace CachingProxy.Wire

inductive BodySize where
  | none
  | known (length : Nat)
  | unknown
  deriving DecidableEq

/-- A successful answer to this method turns the connection into a tunnel. -/
def opensTunnel (method : String) (status : Status) : Bool :=
  method == "CONNECT" && status.isSuccess

def isBodiless (status : Status) : Bool := status.isInterim || status == 204 || status == 304

def mayDeclareLength (method : String) (status : Status) : Bool :=
  !isBodiless status && !opensTunnel method status

def hasBody (method : String) (status : Status) : Bool :=
  method != "HEAD" && mayDeclareLength method status

def framedAnew (request : RequestHead) (head : ResponseHead) (size : BodySize) :
    Headers × Framing :=
  let lengthField (n : Nat) : Field := ⟨"content-length", Bytes.ofText (toString n)⟩
  match size with
  | .unknown =>
      if request.version = .http10 || !hasBody request.method head.status then
        (head.headers, .untilClose)
      else (head.headers ++ [chunkedField], .chunked)
  | .none | .known 0 =>
      if hasBody request.method head.status then (head.headers ++ [lengthField 0], .length 0)
      else (head.headers, .length 0)
  | .known n =>
      if mayDeclareLength request.method head.status then
        (head.headers ++ [lengthField n], .length n)
      else (head.headers, .length 0)

/-- The fields of an answer that declares a length, with the framing of its body.  Lengths that
contradict each other cannot be sent; the length of a body that is not there is dropped, except in
the answer to a `HEAD` request. -/
def framedAsDeclared? (request : RequestHead) (head : ResponseHead) (size : BodySize) :
    Option (Headers × Framing) :=
  match size with
  | .none =>
      if request.method == "HEAD" then some (head.headers, .length 0)
      else
        let head := { head with headers := head.headers.erase "content-length" }
        some (framedAnew request head size)
  | .known n => some (head.headers, .length n)
  | .unknown =>
      (((head.headers.values "content-length").mapM singleLength?).bind common?).map fun n =>
        (keepOneLength head.headers, .length n)

def connectionFields (request : RequestHead) (headers : Headers) : Headers :=
  match request.version, keepsOpen request with
  | .http10, true => headers.set "connection" (Bytes.ofText "keep-alive")
  | .http10, false | _, true => headers
  | _, false => headers.set "connection" (Bytes.ofText "close")

def sentResponse? (request : RequestHead) (head : ResponseHead) (size : BodySize) :
    Option (ResponseHead × Framing) :=
  let framed :=
    if head.headers.has "content-length" then framedAsDeclared? request head size
    else some (framedAnew request head size)
  framed.map fun (headers, framing) =>
    ({ head with headers := connectionFields request headers },
      if hasBody request.method head.status then framing else .length 0)

def refusal (status : Status) : ResponseHead :=
  ⟨status, [⟨"connection", Bytes.ofText "close"⟩, ⟨"content-length", Bytes.ofText "0"⟩]⟩

/-- The framing of the body of an answer; none for a head that ends no exchange or contradicts
itself. -/
def responseFraming? (method : String) (head : ResponseHead) : Option Framing :=
  if head.status.isInterim && head.status != 101 then none
  else if !hasBody method head.status then some (.length 0)
  else if head.headers.has "transfer-encoding" then
    some (if head.headers.isChunked then .chunked else .untilClose)
  else if head.headers.has "content-length" then
    head.headers.declaredLength?.bind fun length =>
      if length ≤ Framing.maxLength then some (.length length) else none
  else some .untilClose

end CachingProxy.Wire
