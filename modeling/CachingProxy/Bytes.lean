/-!
# Octet strings

Bodies and header values are plain lists of octets, so every statement about them is a statement
about lists.
-/

set_option autoImplicit false

namespace CachingProxy

abbrev Bytes := List UInt8

namespace Bytes

def ofText (text : String) : Bytes := text.toList.flatMap String.utf8EncodeChar

/-- The octets of a visible ASCII value: what may be read back as text without decoding. -/
def isTextByte (b : UInt8) : Bool := b == 9 || (32 ≤ b && b < 127)

def asText? (value : Bytes) : Option String :=
  if value.all isTextByte then some (String.ofList (value.map fun b => Char.ofNat b.toNat))
  else none

def concat (chunks : List Bytes) : Bytes := chunks.flatMap id

end Bytes

end CachingProxy
