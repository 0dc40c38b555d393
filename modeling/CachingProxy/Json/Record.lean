import CachingProxy.Json.Skip

/-!
# Reading values of known types

A record is read from an object, whose unknown members are skipped, or from a list of its fields in
order.  A field that is left out keeps its default, if it has one.
-/

set_option autoImplicit false

namespace CachingProxy.Json

/-- The failure for a value of another type than the wanted one: a scalar is read first, and its own
problem comes before the mismatch. -/
def mismatch (bytes : Bytes) : JsonError :=
  let orMismatch {α : Type} : Except JsonError α → JsonError
    | .ok _ => .mismatched
    | .error cause => cause
  match bytes with
  | [] => .truncated
  | b :: rest =>
      if b = 110 then orMismatch (readWord "ull".toList rest)
      else if b = 116 then orMismatch (readWord "rue".toList rest)
      else if b = 102 then orMismatch (readWord "alse".toList rest)
      else if b = 45 then orMismatch (readNumeral true rest)
      else if Numeral.isDigitByte b then orMismatch (readNumeral false (b :: rest))
      else if b = 34 then orMismatch (readQuoted rest)
      else if b = 91 ∨ b = 123 then .mismatched
      else .malformed

def readBool : Reader Bool := fun bytes =>
  match skipBlanks bytes with
  | [] => .error .truncated
  | b :: rest =>
      if b = 116 then return (true, ← readWord "rue".toList rest)
      else if b = 102 then return (false, ← readWord "alse".toList rest)
      else .error (mismatch (b :: rest))

def readText : Reader String := fun bytes =>
  match skipBlanks bytes with
  | [] => .error .truncated
  | b :: rest => if b = 34 then readQuoted rest else .error (mismatch (b :: rest))

def readNat (bound : Nat) : Reader Nat := fun bytes => do
  let accept (read : Numeral × Bytes) : Except JsonError (Nat × Bytes) :=
    match read.1.natural? with
    | some n => if n < bound then .ok (n, read.2) else .error .mismatched
    | none => .error .mismatched
  match skipBlanks bytes with
  | [] => .error .truncated
  | b :: rest =>
      if b = 45 then accept (← readNumeral true rest)
      else if Numeral.isDigitByte b then accept (← readNumeral false (b :: rest))
      else .error (mismatch (b :: rest))

def readUInt16 : Reader UInt16 := fun bytes => do
  let (n, rest) ← readNat UInt16.size bytes
  return (UInt16.ofNat n, rest)

def readUInt64 : Reader UInt64 := fun bytes => do
  let (n, rest) ← readNat UInt64.size bytes
  return (UInt64.ofNat n, rest)

def readVia {α : Type} (ofText? : String → Option α) : Reader α := fun bytes => do
  let (found, rest) ← readText bytes
  match ofText? found with
  | some value => return (value, rest)
  | none => .error .mismatched

/-! ## Lists -/

def readListFrom {α : Type} (item : Reader α) : Nat → Bool → List α → Reader (List α)
  | 0, _, _, _ => .error .truncated
  | fuel + 1, first, found, bytes =>
      match nextItem first bytes with
      | .error cause => .error cause
      | .ok (false, rest) => .ok (found.reverse, rest)
      | .ok (true, rest) =>
          match item rest with
          | .error cause => .error cause
          | .ok (value, rest) => readListFrom item fuel false (value :: found) rest

def readList {α : Type} (item : Reader α) : Reader (List α) := fun bytes =>
  match skipBlanks bytes with
  | [] => .error .truncated
  | b :: rest =>
      if b = 91 then readListFrom item (rest.length + 1) true [] rest
      else .error (mismatch (b :: rest))

/-! ## Records -/

structure Member (σ : Type) where
  name : String
  read : σ → Reader σ
  required : Bool := false

def Member.of {σ α : Type} (name : String) (reader : Reader α) (store : σ → α → σ)
    (required : Bool := false) : Member σ :=
  { name
    required
    read := fun record bytes => do
      let (value, rest) ← reader bytes
      return (store record value, rest) }

/-- Reads the members that are left of an object.  A known member may come once. -/
def readFieldsFrom {σ : Type} (members : List (Member σ)) :
    Nat → Bool → List String → σ → Reader (List String × σ)
  | 0, _, _, _, _ => .error .truncated
  | fuel + 1, first, seen, record, bytes =>
      match nextMember first bytes with
      | .error cause => .error cause
      | .ok (false, rest) => .ok ((seen, record), rest)
      | .ok (true, rest) =>
          match readQuoted rest with
          | .error cause => .error cause
          | .ok (key, rest) =>
              match members.find? fun field => field.name == key with
              | none =>
                  match readColon rest with
                  | .error cause => .error cause
                  | .ok rest =>
                      match skipValue rest with
                      | .error cause => .error cause
                      | .ok rest => readFieldsFrom members fuel false seen record rest
              | some field =>
                  if seen.contains key then .error .mismatched
                  else
                    match readColon rest with
                    | .error cause => .error cause
                    | .ok rest =>
                        match field.read record rest with
                        | .error cause => .error cause
                        | .ok (record, rest) =>
                            readFieldsFrom members fuel false (key :: seen) record rest

/-- Reads fields from the items of a list, in order.  Only fields with a default may be missing, and
nothing may follow the last field. -/
def readPositional {σ : Type} : List (Member σ) → Bool → σ → Reader σ
  | [], _, record, bytes =>
      match skipBlanks bytes with
      | [] => .error .truncated
      | b :: rest => if b = 93 then .ok (record, rest) else .error .malformed
  | field :: members, first, record, bytes =>
      match nextItem first bytes with
      | .error cause => .error cause
      | .ok (true, rest) =>
          match field.read record rest with
          | .error cause => .error cause
          | .ok (record, rest) => readPositional members false record rest
      | .ok (false, rest) =>
          if (field :: members).any fun field => field.required then .error .mismatched
          else .ok (record, rest)

def readRecord {σ : Type} (members : List (Member σ)) (start : σ) : Reader σ := fun bytes =>
  match skipBlanks bytes with
  | [] => .error .truncated
  | b :: rest =>
      if b = 91 then readPositional members true start rest
      else if b = 123 then
        match readFieldsFrom members (rest.length + 1) true [] start rest with
        | .error cause => .error cause
        | .ok ((seen, record), rest) =>
            if members.any fun field => field.required && !seen.contains field.name then
              .error .mismatched
            else .ok (record, rest)
      else .error (mismatch (b :: rest))

end CachingProxy.Json
