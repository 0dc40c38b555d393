import CachingProxy.Bytes

/-!
# Hexadecimal digits
-/

set_option autoImplicit false

namespace CachingProxy.Hex

def digit (n : Nat) : Char := if n < 10 then Char.ofNat (48 + n) else Char.ofNat (87 + n)

def digits (bytes : Bytes) : List Char :=
  bytes.flatMap fun b => [digit (b.toNat / 16), digit (b.toNat % 16)]

def encode (bytes : Bytes) : String := String.ofList (digits bytes)

def value? (c : Char) : Option Nat :=
  if '0' ≤ c ∧ c ≤ '9' then some (c.toNat - 48)
  else if 'a' ≤ c ∧ c ≤ 'f' then some (c.toNat - 87)
  else if 'A' ≤ c ∧ c ≤ 'F' then some (c.toNat - 55)
  else none

/-- Reads pairs of digits of either case. -/
def decodeChars? : List Char → Option Bytes
  | [] => some []
  | [_] => none
  | high :: low :: rest => do
      let h ← value? high
      let l ← value? low
      let tail ← decodeChars? rest
      return UInt8.ofNat (h * 16 + l) :: tail

def ofNat (n : Nat) : String := String.ofList (Nat.toDigits 16 n)

end CachingProxy.Hex
