/-!
# ASCII classes and letter case

Letter case is folded for the letters A to Z alone; every other character stands for itself.
-/

set_option autoImplicit false

namespace CachingProxy.Text

def lowerChar (c : Char) : Char :=
  if 'A' ≤ c ∧ c ≤ 'Z' then Char.ofNat (c.toNat + 32) else c

def lower (cs : List Char) : List Char := cs.map lowerChar

def lowercase (s : String) : String := String.ofList (lower s.toList)

def lowerByte (b : UInt8) : UInt8 := if 65 ≤ b ∧ b ≤ 90 then b + 32 else b

def sameIgnoringCase (xs ys : List UInt8) : Bool := xs.map lowerByte == ys.map lowerByte

def isDigit (c : Char) : Bool := '0' ≤ c && c ≤ '9'

def isLetter (c : Char) : Bool := ('a' ≤ c && c ≤ 'z') || ('A' ≤ c && c ≤ 'Z')

def isAlnum (c : Char) : Bool := isDigit c || isLetter c

def isSpaceByte (b : UInt8) : Bool := b == 32 || b == 9 || b == 10 || b == 12 || b == 13

/-- The parts of a list between the separators: `n` separators give `n + 1` parts. -/
def splitBy {α : Type} (p : α → Bool) : List α → List (List α)
  | [] => [[]]
  | x :: xs =>
      if p x then [] :: splitBy p xs
      else
        match splitBy p xs with
        | [] => [[x]]
        | part :: parts => (x :: part) :: parts

/-- Splits a list at the first element of a class, which is kept at the head of the second part. -/
def cutAt {α : Type} (p : α → Bool) (xs : List α) : List α × List α :=
  (xs.takeWhile fun x => !p x, xs.dropWhile fun x => !p x)

def decimal (cs : List Char) : Nat :=
  cs.foldl (fun n c => n * 10 + (c.toNat - '0'.toNat)) 0

end CachingProxy.Text
