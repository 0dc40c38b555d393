import CachingProxy.Bytes
import CachingProxy.Text.Ascii

/-!
# Header fields

A head carries a list of fields.  Names are tokens in lower case, so equal names are equal texts;
the values of one name keep their order.
-/

set_option autoImplicit false

namespace CachingProxy

namespace Http

def isTokenChar (c : Char) : Bool :=
  Text.isAlnum c || "!#$%&'*+-.^_`|~".toList.contains c

def isToken (cs : List Char) : Bool := !cs.isEmpty && cs.all isTokenChar

def fieldName? (cs : List Char) : Option String :=
  if isToken cs then some (String.ofList (Text.lower cs)) else none

def isValueByte (b : UInt8) : Bool := b == 9 || (32 ≤ b && b != 127)

def isValue (value : Bytes) : Bool := value.all isValueByte

end Http

structure Field where
  name : String
  value : Bytes
  deriving DecidableEq

abbrev Headers := List Field

namespace Headers

def values (headers : Headers) (name : String) : List Bytes :=
  (headers.filter fun field => field.name == name).map Field.value

def get? (headers : Headers) (name : String) : Option Bytes :=
  (headers.find? fun field => field.name == name).map Field.value

def text? (headers : Headers) (name : String) : Option String :=
  (headers.get? name).bind Bytes.asText?

def has (headers : Headers) (name : String) : Bool := headers.any fun field => field.name == name

def erase (headers : Headers) (name : String) : Headers :=
  headers.filter fun field => field.name != name

/-- One value for a name, in place of any it had. -/
def set (headers : Headers) (name : String) (value : Bytes) : Headers :=
  headers.erase name ++ [⟨name, value⟩]

/-- The fields in the order of their names; the values of one name keep theirs. -/
def sorted (headers : Headers) : Headers := headers.mergeSort fun x y => x.name ≤ y.name

end Headers

end CachingProxy
