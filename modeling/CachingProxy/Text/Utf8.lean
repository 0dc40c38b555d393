import CachingProxy.Bytes

/-!
# Reading UTF-8

`scan` reads an octet string as characters, with one `none` for each longest run of octets that
starts a character and does not finish it.  The strict reading wants no such gap, the lenient one
puts the replacement character into each.
-/

set_option autoImplicit false

namespace CachingProxy.Utf8

/-- What the first octet of a character fixes: its payload, how many octets follow, and the range
of the first of them. -/
structure Lead where
  bits : Nat
  tails : Nat
  low : UInt8 := 0x80
  high : UInt8 := 0xBF

def lead? (b : UInt8) : Option Lead :=
  let n := b.toNat
  if n < 0x80 then some { bits := n, tails := 0 }
  else if n < 0xC2 then none
  else if n < 0xE0 then some { bits := n - 0xC0, tails := 1 }
  else if n = 0xE0 then some { bits := 0, tails := 2, low := 0xA0 }
  else if n = 0xED then some { bits := 13, tails := 2, high := 0x9F }
  else if n < 0xF0 then some { bits := n - 0xE0, tails := 2 }
  else if n = 0xF0 then some { bits := 0, tails := 3, low := 0x90 }
  else if n < 0xF4 then some { bits := n - 0xF0, tails := 3 }
  else if n = 0xF4 then some { bits := 4, tails := 3, high := 0x8F }
  else none

def readTails (low high : UInt8) : Nat → Nat → Bytes → Option Nat × Bytes
  | 0, code, rest => (some code, rest)
  | _ + 1, _, [] => (none, [])
  | count + 1, code, b :: rest =>
      if low ≤ b ∧ b ≤ high then readTails 0x80 0xBF count (code * 64 + b.toNat % 64) rest
      else (none, b :: rest)

theorem readTails_length (low high : UInt8) (count code : Nat) (bytes : Bytes) :
    (readTails low high count code bytes).2.length ≤ bytes.length := by
  induction bytes generalizing low high count code with
  | nil => cases count <;> simp [readTails]
  | cons b rest ih =>
      cases count with
      | zero => simp [readTails]
      | succ count =>
          simp only [readTails]
          split
          · exact Nat.le_succ_of_le (ih ..)
          · simp

def scan : Bytes → List (Option Char)
  | [] => []
  | b :: rest =>
      match lead? b with
      | none => none :: scan rest
      | some lead =>
          let read := readTails lead.low lead.high lead.tails lead.bits rest
          read.1.map Char.ofNat :: scan read.2
termination_by bytes => bytes.length
decreasing_by
  · exact Nat.lt_succ_self rest.length
  · exact Nat.lt_succ_of_le (readTails_length ..)

def chars? (bytes : Bytes) : Option (List Char) := (scan bytes).mapM id

def text? (bytes : Bytes) : Option String := (chars? bytes).map String.ofList

/-- The text of any octet string, malformed runs being replaced. -/
def lenient (bytes : Bytes) : String :=
  String.ofList ((scan bytes).map fun c => c.getD (Char.ofNat 0xFFFD))

end CachingProxy.Utf8
