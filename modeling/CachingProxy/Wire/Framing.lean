import CachingProxy.Http.Head
import CachingProxy.Text.Trim

/-!
# Framing

On a connection the end of a body is known by its length, by its last chunk, or by the end of the
connection.  The head of a message says which, in its fields `content-length` and
`transfer-encoding`.
-/

set_option autoImplicit false

namespace CachingProxy

namespace Wire

def length? (cs : List Char) : Option Nat :=
  if cs.isEmpty || !cs.all Text.isDigit then none
  else
    let n := Text.decimal cs
    if n < UInt64.size then some n else none

def items? (value : Bytes) : Option (List (List Char)) :=
  (Bytes.asText? value).map fun text =>
    (Text.splitBy (fun c => c == ',') text.toList).map Text.trim

def singleLength? (value : Bytes) : Option Nat :=
  (Bytes.asText? value).bind fun text => length? text.toList

def listedLengths? (value : Bytes) : Option (List Nat) :=
  (items? value).bind fun items => items.mapM length?

def common? : List Nat → Option Nat
  | [] => none
  | n :: rest => if rest.all fun m => m == n then some n else none

end Wire

namespace Headers

/-- The length that a head declares, if every `content-length` in it says the same. -/
def declaredLength? (headers : Headers) : Option Nat :=
  ((headers.values "content-length").mapM Wire.listedLengths?).bind fun lengths =>
    Wire.common? lengths.flatten

/-- Whether `chunked` is the last of the codings that a value lists. -/
def endsChunked (value : Bytes) : Bool :=
  match (Wire.items? value).bind List.getLast? with
  | some item => Text.lower item = "chunked".toList
  | none => false

def isChunked (headers : Headers) : Bool :=
  match (headers.values "transfer-encoding").getLast? with
  | some value => endsChunked value
  | none => false

def wantsConnection (headers : Headers) (option : String) : Bool :=
  (headers.values "connection").any fun value =>
    match Wire.items? value with
    | some items => items.any fun item => Text.lower item = option.toList
    | none => false

/-- The fields as they come out of a connection: without blanks around the values. -/
def received (headers : Headers) : Headers :=
  headers.map fun field =>
    { field with value := Text.trimBy (fun b => b == 32 || b == 9) field.value }

end Headers

inductive Framing where
  | length (left : Nat)
  | chunked
  | untilClose
  deriving DecidableEq

namespace Framing

def maxLength : Nat := UInt64.size - 3

def isComplete : Framing → Bool
  | .length left => left == 0
  | _ => false

/-- The part of a chunk that belongs to the body, and the framing after it. -/
def pass (framing : Framing) (chunk : Bytes) : Bytes × Framing :=
  match framing with
  | .length left => (chunk.take left, .length (left - chunk.length))
  | _ => (chunk, framing)

/-- Whether the reader takes a body for complete whose sender ends it now. -/
def endsHere : Framing → Bool
  | .length left => left == 0
  | _ => true

def passAll (framing : Framing) : List Bytes → List Bytes × Framing
  | [] => ([], framing)
  | chunk :: rest =>
      let (part, framing) := framing.pass chunk
      let (parts, framing) := framing.passAll rest
      (if part.isEmpty then parts else part :: parts, framing)

end Framing

end CachingProxy
