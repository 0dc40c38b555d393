/-!
# Durations

A duration is shown in the largest unit of which it has one, with the digits of the fraction that
are not trailing zeros.
-/

set_option autoImplicit false

namespace CachingProxy.Text

/-- Three decimal places without trailing zeros. -/
def thousandths (n : Nat) : String :=
  if n = 0 then ""
  else
    let digits := [n / 100 % 10, n / 10 % 10, n % 10]
    let kept := (digits.reverse.dropWhile fun d => d == 0).reverse
    "." ++ String.join (kept.map toString)

def milliseconds (n : Nat) : String :=
  if n = 0 then "0ns"
  else if n < 1000 then toString n ++ "ms"
  else toString (n / 1000) ++ thousandths (n % 1000) ++ "s"

end CachingProxy.Text
