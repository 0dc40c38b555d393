import CachingProxy.Json.Token
import CachingProxy.Json.Value

/-!
# Reading values of any shape

The members of an object are listed in the order of their keys, and the last of several members with
one key stays.  Lists and objects may be nested 127 deep.
-/

set_option autoImplicit false

namespace CachingProxy.Json

def maxDepth : Nat := 127

def lexeme (before after : Bytes) : String :=
  Utf8.lenient (before.take (before.length - after.length))

mutual

/-- Reads a value; `fuel` bounds the steps, `depth` the frames that may still be opened. -/
def readValueFrom : Nat → Nat → Reader Value
  | 0, _, _ => .error .truncated
  | fuel + 1, depth, bytes =>
      match skipBlanks bytes with
      | [] => .error .truncated
      | b :: rest =>
          if b = 110 then return (.null, ← readWord "ull".toList rest)
          else if b = 116 then return (.bool true, ← readWord "rue".toList rest)
          else if b = 102 then return (.bool false, ← readWord "alse".toList rest)
          else if b = 34 then do
            let (found, rest) ← readQuoted rest
            return (.text found, rest)
          else if b = 45 then do
            let (_, after) ← readNumeral true rest
            return (.number (lexeme (b :: rest) after), after)
          else if Numeral.isDigitByte b then do
            let (_, after) ← readNumeral false (b :: rest)
            return (.number (lexeme (b :: rest) after), after)
          else if b = 91 then
            match depth with
            | 0 => .error .malformed
            | depth + 1 => readItems fuel depth true [] rest
          else if b = 123 then
            match depth with
            | 0 => .error .malformed
            | depth + 1 => readMembers fuel depth true [] rest
          else .error .malformed

def readItems : Nat → Nat → Bool → List Value → Reader Value
  | 0, _, _, _, _ => .error .truncated
  | fuel + 1, depth, first, found, bytes =>
      match nextItem first bytes with
      | .error cause => .error cause
      | .ok (false, rest) => .ok (.list found.reverse, rest)
      | .ok (true, rest) =>
          match readValueFrom fuel depth rest with
          | .error cause => .error cause
          | .ok (item, rest) => readItems fuel depth false (item :: found) rest

def readMembers : Nat → Nat → Bool → Keyed String Value → Reader Value
  | 0, _, _, _, _ => .error .truncated
  | fuel + 1, depth, first, found, bytes =>
      match nextMember first bytes with
      | .error cause => .error cause
      | .ok (false, rest) => .ok (.object found.sorted, rest)
      | .ok (true, rest) =>
          match readQuoted rest with
          | .error cause => .error cause
          | .ok (key, rest) =>
              match readColon rest with
              | .error cause => .error cause
              | .ok rest =>
                  match readValueFrom fuel depth rest with
                  | .error cause => .error cause
                  | .ok (value, rest) => readMembers fuel depth false (found.put key value) rest

end

def readValue : Reader Value := fun bytes => readValueFrom (2 * bytes.length + 2) maxDepth bytes

def parse (bytes : Bytes) : Except JsonError Value := do finish (← readValue bytes)

end CachingProxy.Json
