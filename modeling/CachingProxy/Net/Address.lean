import CachingProxy.Digest.Hex
import CachingProxy.Text.Ascii

/-!
# Internet addresses

The fourth version is written as four decimal numbers without leading zeros.  The sixth is written
as groups of hexadecimal digits, of which one run of zero groups may be left out and the last two
may be written as a dotted address.
-/

set_option autoImplicit false

namespace CachingProxy

inductive IpAddress where
  | v4 (a b c d : UInt8)
  | v6 (groups : Vector UInt16 8)
  deriving DecidableEq

namespace IpAddress

def unspecified : IpAddress := .v4 0 0 0 0

/-! ## Reading -/

def readOctet (cs : List Char) : Option (UInt8 × List Char) :=
  let found := cs.takeWhile Text.isDigit
  if found.isEmpty || 3 < found.length || (1 < found.length && found.head? == some '0') then none
  else
    let n := Text.decimal found
    if n < 256 then some (UInt8.ofNat n, cs.dropWhile Text.isDigit) else none

def readChar (c : Char) : List Char → Option (List Char)
  | [] => none
  | d :: rest => if d = c then some rest else none

def readDotted (cs : List Char) : Option ((UInt8 × UInt8 × UInt8 × UInt8) × List Char) := do
  let (a, cs) ← readOctet cs
  let (b, cs) ← readOctet (← readChar '.' cs)
  let (c, cs) ← readOctet (← readChar '.' cs)
  let (d, cs) ← readOctet (← readChar '.' cs)
  return ((a, b, c, d), cs)

def isHexDigit (c : Char) : Bool := (Hex.value? c).isSome

def readGroup (cs : List Char) : Option (UInt16 × List Char) :=
  let found := cs.takeWhile isHexDigit
  if found.isEmpty || 4 < found.length then none
  else
    let n := found.foldl (fun n c => n * 16 + (Hex.value? c).getD 0) 0
    some (UInt16.ofNat n, cs.dropWhile isHexDigit)

def joinOctets (high low : UInt8) : UInt16 := UInt16.ofNat (high.toNat * 256 + low.toNat)

/-- Groups read from the front of a text, whether a dotted address ends them, and what is left. -/
structure Groups where
  groups : List UInt16
  dotted : Bool
  rest : List Char

def readSeparator (first : Bool) (cs : List Char) : Option (List Char) :=
  if first then some cs else readChar ':' cs

/-- Reads at most `count` groups.  A dotted address takes the place of two. -/
def readGroups : Nat → Bool → List Char → Groups
  | 0, _, cs => ⟨[], false, cs⟩
  | count + 1, first, cs =>
      let dotted := if count = 0 then none else (readSeparator first cs).bind readDotted
      match dotted with
      | some ((a, b, c, d), rest) => ⟨[joinOctets a b, joinOctets c d], true, rest⟩
      | none =>
          match (readSeparator first cs).bind readGroup with
          | none => ⟨[], false, cs⟩
          | some (group, rest) =>
              let more := readGroups count false rest
              { more with groups := group :: more.groups }

def ofGroups? (groups : List UInt16) : Option IpAddress :=
  if h : groups.length = 8 then some (.v6 ⟨groups.toArray, by simpa using h⟩) else none

def readV6 (cs : List Char) : Option (IpAddress × List Char) := do
  let head := readGroups 8 true cs
  if head.groups.length = 8 then return (← ofGroups? head.groups, head.rest)
  else if head.dotted then none
  else
    let rest ← readChar ':' (← readChar ':' head.rest)
    let tail := readGroups (7 - head.groups.length) true rest
    let zeros := 8 - head.groups.length - tail.groups.length
    return (← ofGroups? (head.groups ++ List.replicate zeros 0 ++ tail.groups), tail.rest)

def ofText? (text : String) : Option IpAddress :=
  match readDotted text.toList with
  | some ((a, b, c, d), []) => some (.v4 a b c d)
  | some _ => none
  | none =>
      match readV6 text.toList with
      | some (address, []) => some address
      | _ => none

/-! ## Printing -/

def dottedText (a b c d : UInt8) : String :=
  String.intercalate "." ([a, b, c, d].map fun octet => toString octet.toNat)

/-- The first of the longest runs of zeros among the groups: where it starts and its length. -/
def longestZeros : Nat → List UInt16 → Nat × Nat
  | _, [] => (0, 0)
  | start, group :: rest =>
      let here := ((group :: rest).takeWhile fun g => g == 0).length
      let (later, length) := longestZeros (start + 1) rest
      if length ≤ here then (start, here) else (later, length)

def groupsText (groups : List UInt16) : String :=
  String.intercalate ":" (groups.map fun group => Hex.ofNat group.toNat)

/-- The groups of an address that stands for one of the fourth version. -/
def mapped? : List UInt16 → Option (UInt16 × UInt16)
  | [0, 0, 0, 0, 0, 0xFFFF, high, low] => some (high, low)
  | _ => none

def highOctet (group : UInt16) : UInt8 := UInt8.ofNat (group.toNat / 256)

def lowOctet (group : UInt16) : UInt8 := UInt8.ofNat (group.toNat % 256)

/-- The canonical form: lower case, no leading zeros, the longest run of zero groups left out. -/
def v6Text (groups : List UInt16) : String :=
  match mapped? groups with
  | some (high, low) =>
      "::ffff:" ++ dottedText (highOctet high) (lowOctet high) (highOctet low) (lowOctet low)
  | none =>
      let (start, length) := longestZeros 0 groups
      if 1 < length then
        groupsText (groups.take start) ++ "::" ++ groupsText (groups.drop (start + length))
      else groupsText groups

def text : IpAddress → String
  | .v4 a b c d => dottedText a b c d
  | .v6 groups => v6Text groups.toList

/-! ## Classes -/

def isLoopback : IpAddress → Bool
  | .v4 a _ _ _ => a == 127
  | .v6 groups => groups.toList == [0, 0, 0, 0, 0, 0, 0, 1]

def isUnspecified : IpAddress → Bool
  | .v4 a b c d => [a, b, c, d] == [0, 0, 0, 0]
  | .v6 groups => groups.toList == [0, 0, 0, 0, 0, 0, 0, 0]

end IpAddress

structure SocketAddress where
  ip : IpAddress
  port : UInt16
  deriving DecidableEq

namespace SocketAddress

def hostText (ip : IpAddress) : String :=
  match ip with
  | .v4 .. => ip.text
  | .v6 .. => "[" ++ ip.text ++ "]"

def text (address : SocketAddress) : String :=
  hostText address.ip ++ ":" ++ toString address.port.toNat

def readPort (cs : List Char) : Option UInt16 :=
  if !cs.isEmpty && cs.all Text.isDigit && Text.decimal cs < 65536 then
    some (UInt16.ofNat (Text.decimal cs))
  else none

def ofText? (text : String) : Option SocketAddress :=
  match text.toList with
  | '[' :: rest => do
      let (ip, rest) ← IpAddress.readV6 rest
      let port ← readPort (← IpAddress.readChar ':' (← IpAddress.readChar ']' rest))
      return ⟨ip, port⟩
  | cs => do
      let ((a, b, c, d), rest) ← IpAddress.readDotted cs
      let port ← readPort (← IpAddress.readChar ':' rest)
      return ⟨.v4 a b c d, port⟩

end SocketAddress

end CachingProxy
