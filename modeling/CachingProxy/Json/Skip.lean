import CachingProxy.Json.Token

/-!
# Skipping a value

An unknown member must be well formed, and no more: its numbers may be of any size, its surrogates
need not be paired, and it may be nested to any depth.  The open lists and objects are kept in a
stack.
-/

set_option autoImplicit false

namespace CachingProxy.Json

inductive Frame where
  | list
  | object

/-- Where the skipping stands: before a value, just inside an opened frame, or after a value. -/
inductive Place where
  | before
  | opened
  | after

def skipNumeral (bytes : Bytes) : Except JsonError Bytes :=
  (Numeral.readUnsigned .malformed false bytes).map Prod.snd

def skipScalar (b : UInt8) (rest : Bytes) : Except JsonError Bytes :=
  if b = 110 then readWord "ull".toList rest
  else if b = 116 then readWord "rue".toList rest
  else if b = 102 then readWord "alse".toList rest
  else if b = 34 then skipQuoted (rest.length + 1) rest
  else if b = 45 then skipNumeral rest
  else if Numeral.isDigitByte b then skipNumeral (b :: rest)
  else .error .malformed

def skipKey (bytes : Bytes) : Except JsonError Bytes := do
  let rest ← skipQuoted (bytes.length + 1) bytes
  readColon rest

def skipFrom : Nat → Place → List Frame → Bytes → Except JsonError Bytes
  | 0, _, _, _ => .error .truncated
  | _ + 1, .after, [], bytes => .ok bytes
  | _ + 1, .opened, [], bytes => .ok bytes
  | fuel + 1, .before, frames, bytes =>
      match skipBlanks bytes with
      | [] => .error .truncated
      | b :: rest =>
          if b = 91 then skipFrom fuel .opened (.list :: frames) rest
          else if b = 123 then skipFrom fuel .opened (.object :: frames) rest
          else
            match skipScalar b rest with
            | .error cause => .error cause
            | .ok rest => skipFrom fuel .after frames rest
  | fuel + 1, place, .list :: frames, bytes =>
      match nextItem (place matches .opened) bytes with
      | .error cause => .error cause
      | .ok (true, rest) => skipFrom fuel .before (.list :: frames) rest
      | .ok (false, rest) => skipFrom fuel .after frames rest
  | fuel + 1, place, .object :: frames, bytes =>
      match nextMember (place matches .opened) bytes with
      | .error cause => .error cause
      | .ok (false, rest) => skipFrom fuel .after frames rest
      | .ok (true, rest) =>
          match skipKey rest with
          | .error cause => .error cause
          | .ok rest => skipFrom fuel .before (.object :: frames) rest

/-- Skips one value.  Every second step at least consumes an octet. -/
def skipValue (bytes : Bytes) : Except JsonError Bytes :=
  skipFrom (2 * bytes.length + 2) .before [] bytes

end CachingProxy.Json
