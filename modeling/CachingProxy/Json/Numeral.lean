import CachingProxy.Bytes
import CachingProxy.Failure
import CachingProxy.Text.Ascii

/-!
# JSON numerals

A numeral is read as its digits.  `isOutOfRange` says that it lies beyond the largest finite double,
`natural?` that it is written as a plain natural number of at most 64 bits.
-/

set_option autoImplicit false

namespace CachingProxy.Json

structure Exponent where
  negative : Bool
  digits : List Nat
  deriving DecidableEq

structure Numeral where
  negative : Bool
  whole : List Nat
  fraction : Option (List Nat) := none
  exponent : Option Exponent := none
  deriving DecidableEq

namespace Numeral

def isDigitByte (b : UInt8) : Bool := 48 ≤ b && b ≤ 57

def digits (bytes : Bytes) : List Nat × Bytes :=
  ((bytes.takeWhile isDigitByte).map fun b => b.toNat - 48, bytes.dropWhile isDigitByte)

def someDigits (atEnd : JsonError) (bytes : Bytes) : Except JsonError (List Nat × Bytes) :=
  match digits bytes with
  | ([], []) => .error atEnd
  | ([], _ :: _) => .error .malformed
  | found => .ok found

def readExponent (atEnd : JsonError) (number : Numeral) (bytes : Bytes) :
    Except JsonError (Numeral × Bytes) :=
  match bytes with
  | b :: rest =>
      if b = 101 ∨ b = 69 then do
        let (negative, rest) := match rest with
          | 43 :: rest => (false, rest)
          | 45 :: rest => (true, rest)
          | rest => (false, rest)
        let (found, rest) ← someDigits atEnd rest
        return ({ number with exponent := some ⟨negative, found⟩ }, rest)
      else .ok (number, bytes)
  | [] => .ok (number, [])

def readFraction (atEnd : JsonError) (number : Numeral) (bytes : Bytes) :
    Except JsonError (Numeral × Bytes) :=
  match bytes with
  | 46 :: rest => do
      let (found, rest) ← someDigits atEnd rest
      readExponent atEnd { number with fraction := some found } rest
  | _ => readExponent atEnd number bytes

/-- Reads a numeral after its sign.  A zero at the front is followed by no further digit. -/
def readUnsigned (atEnd : JsonError) (negative : Bool) (bytes : Bytes) :
    Except JsonError (Numeral × Bytes) := do
  let (found, rest) ← someDigits atEnd bytes
  match found with
  | 0 :: _ :: _ => .error .malformed
  | _ => readFraction atEnd { negative, whole := found } rest

/-! ## Magnitude -/

def maxWord : Nat := 18446744073709551615

def extend? (significand digit : Nat) : Option Nat :=
  let next := significand * 10 + digit
  if next ≤ maxWord then some next else none

/-- Reads digits into a significand of one word, and counts the digits that no longer fit. -/
def wholePart : Nat → List Nat → Nat × Nat
  | significand, [] => (significand, 0)
  | significand, d :: rest =>
      match extend? significand d with
      | some next => wholePart next rest
      | none => (significand, rest.length + 1)

def fractionPart : Nat → List Nat → Nat × Nat
  | significand, [] => (significand, 0)
  | significand, d :: rest =>
      match extend? significand d with
      | some next =>
          let (found, count) := fractionPart next rest
          (found, count + 1)
      | none => (significand, 0)

/-- The nearest number with 53 significant bits, a half going to the even neighbour. -/
def roundToDouble (n : Nat) : Nat :=
  let shift := n.log2 + 1 - 53
  let unit := Nat.pow 2 shift
  let quotient := n / unit
  let remainder := n % unit
  if unit < 2 * remainder ∨ (unit = 2 * remainder ∧ quotient % 2 = 1) then (quotient + 1) * unit
  else quotient * unit

/-- A product of at least this size rounds beyond the largest finite double. -/
def overflowBound : Nat := Nat.pow 2 1024 - Nat.pow 2 970

def maxPower : Nat := 308

def maxExponent : Nat := 2147483647

def value (digits : List Nat) : Nat := digits.foldl (fun n d => n * 10 + d) 0

def overflows (significand : Nat) (power : Int) : Bool :=
  significand != 0 &&
    match power with
    | .ofNat e =>
        maxPower < e || overflowBound ≤ roundToDouble significand * roundToDouble (Nat.pow 10 e)
    | .negSucc _ => false

def isOutOfRange (number : Numeral) : Bool :=
  let (whole, excess) := wholePart 0 number.whole
  let (significand, places) := fractionPart whole (number.fraction.getD [])
  let base : Int := excess - places
  match number.exponent with
  | none => overflows significand base
  | some exponent =>
      let size := value exponent.digits
      if maxExponent < size then significand != 0 && !exponent.negative
      else overflows significand (if exponent.negative then base - size else base + size)

/-- The value of a numeral that is written as a natural number of at most 64 bits. -/
def natural? (number : Numeral) : Option Nat :=
  if number.negative || number.fraction.isSome || number.exponent.isSome then none
  else
    let n := value number.whole
    if n ≤ maxWord then some n else none

end Numeral

end CachingProxy.Json
