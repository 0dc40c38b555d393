/-!
# Trimming

Elements of a class are removed from both ends of a list.  For text the class is `isBlank`, the
characters with the Unicode property `White_Space`.
-/

set_option autoImplicit false

namespace CachingProxy.Text

def trimEndBy {α : Type} (p : α → Bool) (xs : List α) : List α :=
  (xs.reverse.dropWhile p).reverse

def trimBy {α : Type} (p : α → Bool) (xs : List α) : List α :=
  trimEndBy p (xs.dropWhile p)

/-- The Unicode property `White_Space`. -/
def isBlank (c : Char) : Bool :=
  let n := c.toNat
  (9 ≤ n && n ≤ 13) || n == 0x20 || n == 0x85 || n == 0xA0 || n == 0x1680 ||
    (0x2000 ≤ n && n ≤ 0x200A) || n == 0x2028 || n == 0x2029 || n == 0x202F || n == 0x205F ||
    n == 0x3000

def trim (cs : List Char) : List Char := trimBy isBlank cs

def trimmed (s : String) : String := String.ofList (trim s.toList)

end CachingProxy.Text
