import CachingProxy.Http.Field
import CachingProxy.Text.Trim

/-!
# Fields that do not travel on

Some fields concern one connection only: nine by their names, and those that a field `connection`
lists.  A request also loses the fields by which a client asks for an encoding and for a direct
answer.
-/

set_option autoImplicit false

namespace CachingProxy

namespace HopByHop

def names : List String :=
  ["connection", "keep-alive", "proxy-connection", "proxy-authenticate", "proxy-authorization",
    "te", "trailer", "transfer-encoding", "upgrade"]

def directName : String := "x-masternode-direct"

def listedNames (value : Bytes) : List String :=
  match Bytes.asText? value with
  | none => []
  | some text =>
      (Text.splitBy (fun c => c == ',') text.toList).filterMap fun part =>
        Http.fieldName? (Text.trim part)

/-- The names listed in the fields `connection` of a head. -/
def listed (headers : Headers) : List String := (headers.values "connection").flatMap listedNames

end HopByHop

namespace Headers

def stripResponse (headers : Headers) : Headers :=
  let dropped := HopByHop.listed headers ++ HopByHop.names
  headers.filter fun field => !dropped.contains field.name

def stripRequest (headers : Headers) : Headers :=
  (headers.stripResponse.erase "accept-encoding").erase HopByHop.directName

end Headers

end CachingProxy
