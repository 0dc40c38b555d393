import CachingProxy.Digest.Sha256
import CachingProxy.Http.Field

/-!
# Stored responses

A route is what the cache keeps of an origin's answer for one domain and path: the body and the few
fields that are replayed with it.
-/

set_option autoImplicit false

namespace CachingProxy

structure Route where
  domain : String
  path : String
  content : Bytes
  headers : Headers
  deriving DecidableEq

namespace Route

/-- The fields that are kept and sent again with every hit. -/
def replayed : List String :=
  ["content-type", "cache-control", "etag", "expires", "last-modified"]

def selectHeaders (headers : Headers) : Headers :=
  replayed.flatMap fun name => headers.filter fun field => field.name == name

def ofResponse (domain path : String) (content : Bytes) (headers : Headers) : Route :=
  { domain, path, content, headers := selectHeaders headers }

def hash (route : Route) : String := Sha256.hexDigest route.content

def contentType? (route : Route) : Option String := route.headers.text? "content-type"

end Route

end CachingProxy
