import CachingProxy.Json.Numeral
import CachingProxy.Digest.Hex
import CachingProxy.Text.Utf8

/-!
# Reading the tokens of a JSON text

Each reader takes the octets that are left and returns what it read with the rest.  The first
problem in reading order is the one that is reported.
-/

set_option autoImplicit false

namespace CachingProxy.Json

abbrev Reader (α : Type) := Bytes → Except JsonError (α × Bytes)

def isBlankByte (b : UInt8) : Bool := b == 32 || b == 10 || b == 9 || b == 13

def skipBlanks (bytes : Bytes) : Bytes := bytes.dropWhile isBlankByte

def readWord : List Char → Bytes → Except JsonError Bytes
  | [], rest => .ok rest
  | _ :: _, [] => .error .truncated
  | c :: word, b :: rest =>
      if b.toNat = c.toNat then readWord word rest else .error .malformed

def hexByte? (b : UInt8) : Option Nat := Hex.value? (Char.ofNat b.toNat)

/-- Reads the four digits of an escaped code unit.  Four octets must be left, whatever they are. -/
def readUnit : Reader Nat
  | p :: q :: r :: s :: rest =>
      match hexByte? p, hexByte? q, hexByte? r, hexByte? s with
      | some a, some b, some c, some d => .ok (((a * 16 + b) * 16 + c) * 16 + d, rest)
      | _, _, _, _ => .error .malformed
  | _ => .error .truncated

def isHighSurrogate (unit : Nat) : Bool := 0xD800 ≤ unit && unit ≤ 0xDBFF

def isLowSurrogate (unit : Nat) : Bool := 0xDC00 ≤ unit && unit ≤ 0xDFFF

/-- Reads an escaped character after `\u`.  Surrogates are accepted in pairs only. -/
def readEscapedChar : Reader Char := fun bytes => do
  let (unit, rest) ← readUnit bytes
  if isLowSurrogate unit then .error .malformed
  else if isHighSurrogate unit then
    match rest with
    | [] => .error .truncated
    | 92 :: [] => .error .truncated
    | 92 :: 117 :: rest => do
        let (low, rest) ← readUnit rest
        if isLowSurrogate low then
          return (Char.ofNat ((unit - 0xD800) * 1024 + (low - 0xDC00) + 0x10000), rest)
        else .error .malformed
    | _ => .error .malformed
  else return (Char.ofNat unit, rest)

def simpleEscape? (b : UInt8) : Option UInt8 :=
  if b = 34 ∨ b = 92 ∨ b = 47 then some b
  else if b = 98 then some 8
  else if b = 102 then some 12
  else if b = 110 then some 10
  else if b = 114 then some 13
  else if b = 116 then some 9
  else none

def readTextBytes : Nat → Bytes → Bytes → Except JsonError (Bytes × Bytes)
  | 0, _, _ => .error .truncated
  | _ + 1, _, [] => .error .truncated
  | fuel + 1, found, b :: rest =>
      if b = 34 then .ok (found.reverse, rest)
      else if b = 92 then
        match rest with
        | [] => .error .truncated
        | e :: rest =>
            if e = 117 then
              match readEscapedChar rest with
              | .error cause => .error cause
              | .ok (c, rest) =>
                  readTextBytes fuel ((String.utf8EncodeChar c).reverse ++ found) rest
            else
              match simpleEscape? e with
              | some octet => readTextBytes fuel (octet :: found) rest
              | none => .error .malformed
      else if b < 32 then .error .malformed
      else readTextBytes fuel (b :: found) rest

def readQuoted : Reader String := fun bytes => do
  let (found, rest) ← readTextBytes (bytes.length + 1) [] bytes
  return (Utf8.lenient found, rest)

/-- Skips a text after its opening quote.  Its escapes are checked, its surrogates are not. -/
def skipQuoted : Nat → Bytes → Except JsonError Bytes
  | 0, _ => .error .truncated
  | _ + 1, [] => .error .truncated
  | fuel + 1, b :: rest =>
      if b = 34 then .ok rest
      else if b = 92 then
        match rest with
        | [] => .error .truncated
        | e :: rest =>
            if e = 117 then
              match readUnit rest with
              | .error cause => .error cause
              | .ok (_, rest) => skipQuoted fuel rest
            else if (simpleEscape? e).isSome then skipQuoted fuel rest
            else .error .malformed
      else if b < 32 then .error .malformed
      else skipQuoted fuel rest

/-- Reads a numeral; one beyond the range of doubles is refused. -/
def readNumeral (negative : Bool) : Reader Numeral := fun bytes => do
  let (number, rest) ← Numeral.readUnsigned .truncated negative bytes
  if number.isOutOfRange then .error .malformed else return (number, rest)

def finish {α : Type} (read : α × Bytes) : Except JsonError α :=
  match skipBlanks read.2 with
  | [] => .ok read.1
  | _ :: _ => .error .malformed

/-! ## Between the items of a list and the members of an object -/

def nextItem (first : Bool) (bytes : Bytes) : Except JsonError (Bool × Bytes) :=
  match skipBlanks bytes with
  | [] => .error .truncated
  | b :: rest =>
      if b = 93 then .ok (false, rest)
      else if first then .ok (true, b :: rest)
      else if b = 44 then
        match skipBlanks rest with
        | [] => .error .truncated
        | c :: rest => if c = 93 then .error .malformed else .ok (true, c :: rest)
      else .error .malformed

def nextMember (first : Bool) (bytes : Bytes) : Except JsonError (Bool × Bytes) :=
  match skipBlanks bytes with
  | [] => .error .truncated
  | b :: rest =>
      if b = 125 then .ok (false, rest)
      else if first then if b = 34 then .ok (true, rest) else .error .malformed
      else if b = 44 then
        match skipBlanks rest with
        | [] => .error .truncated
        | c :: rest => if c = 34 then .ok (true, rest) else .error .malformed
      else .error .malformed

def readColon (bytes : Bytes) : Except JsonError Bytes :=
  match skipBlanks bytes with
  | [] => .error .truncated
  | b :: rest => if b = 58 then .ok rest else .error .malformed

end CachingProxy.Json
