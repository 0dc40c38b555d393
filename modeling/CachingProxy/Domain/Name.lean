import CachingProxy.Text.Ascii
import CachingProxy.Text.Trim

/-!
# Domain names

The canonical form of a name has no blanks at its ends and its letters in lower case.
-/

set_option autoImplicit false

namespace CachingProxy.Domain

def normalizeChars (cs : List Char) : List Char := Text.lower (Text.trim cs)

def normalize (name : String) : String := String.ofList (normalizeChars name.toList)

end CachingProxy.Domain
