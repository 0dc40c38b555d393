import CachingProxy.Http.Field
import CachingProxy.Http.Status
import CachingProxy.Http.Uri

/-!
# Message heads
-/

set_option autoImplicit false

namespace CachingProxy

inductive Version where
  | http09
  | http10
  | http11
  | http2
  | http3
  deriving DecidableEq

namespace Version

def text : Version → String
  | .http09 => "HTTP/0.9"
  | .http10 => "HTTP/1.0"
  | .http11 => "HTTP/1.1"
  | .http2 => "HTTP/2.0"
  | .http3 => "HTTP/3.0"

def ofText? : String → Option Version
  | "HTTP/0.9" => some .http09
  | "HTTP/1.0" => some .http10
  | "HTTP/1.1" => some .http11
  | "HTTP/2.0" => some .http2
  | "HTTP/3.0" => some .http3
  | _ => none

end Version

structure RequestHead where
  method : String
  uri : Uri
  version : Version := .http11
  headers : Headers := []
  deriving DecidableEq

/-- Path and query: the key of a resource within its domain. -/
def RequestHead.path (head : RequestHead) : String := head.uri.target

def RequestHead.line (head : RequestHead) : String :=
  head.method ++ " " ++ head.uri.text ++ " " ++ head.version.text

structure ResponseHead where
  status : Status
  headers : Headers := []
  deriving DecidableEq

structure Response where
  head : ResponseHead
  body : Bytes
  deriving DecidableEq

def Response.plain (status : Status) (text : String) : Response :=
  { head := ⟨status, [⟨"content-type", Bytes.ofText "text/plain; charset=utf-8"⟩]⟩
    body := Bytes.ofText text }

end CachingProxy
