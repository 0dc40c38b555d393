import CachingProxy.Domain.Name
import CachingProxy.Http.Head

/-!
# Hosts, ports and the domain of a request

`Endpoint.authority` joins a host and a port, `stripPort` takes them apart, and `resolve` reads
from a request the domain it is for.
-/

set_option autoImplicit false

namespace CachingProxy

structure Endpoint where
  host : String
  port : UInt16
  deriving DecidableEq

namespace Endpoint

def needsBrackets (host : List Char) : Bool := host.contains ':' && host.head? != some '['

def authority (endpoint : Endpoint) : String :=
  if needsBrackets endpoint.host.toList then
    "[" ++ endpoint.host ++ "]:" ++ toString endpoint.port.toNat
  else endpoint.host ++ ":" ++ toString endpoint.port.toNat

end Endpoint

namespace Domain

/-- The name in front of the last colon, if that is the only colon and digits alone follow it. -/
def withoutPort? (host : List Char) : Option (List Char) :=
  match Text.cutAt (fun c => c == ':') host with
  | (name, _ :: port) => if port.all Text.isDigit then some name else none
  | (_, []) => none

def stripPortChars (host : List Char) : List Char :=
  match Text.trim host with
  | '[' :: rest => rest.takeWhile fun c => c != ']'
  | host => (withoutPort? host).getD host

/-- A host without its port and without the brackets of a literal.  A bare literal has several
colons and no port. -/
def stripPort (host : String) : String := String.ofList (stripPortChars host.toList)

def ofHost? (host : String) : Option String :=
  match Text.lower (Text.trimEndBy (fun c => c == '.') (stripPortChars host.toList)) with
  | [] => none
  | name => some (String.ofList name)

/-- The domain a request is for.  The host of an absolute target wins over the field `host`. -/
def resolve (uri : Uri) (headers : Headers) : Option String :=
  match uri.host? with
  | some host => ofHost? host
  | none => (headers.text? "host").bind ofHost?

end Domain

end CachingProxy
