import CachingProxy.Digest.Hex
import CachingProxy.Failure
import CachingProxy.Keyed

/-!
# JSON values and their compact form

Numbers keep the text they were written with.  The printer puts no blanks between tokens; in a text
it escapes the quote, the backslash and the control characters.
-/

set_option autoImplicit false

namespace CachingProxy.Json

inductive Value where
  | null
  | bool (value : Bool)
  | number (lexeme : String)
  | text (value : String)
  | list (items : List Value)
  | object (members : List (String × Value))

namespace Value

def nat (n : Nat) : Value := .number (toString n)

def texts (items : List String) : Value := .list (items.map .text)

def get? (value : Value) (key : String) : Option Value :=
  match value with
  | .object members => Keyed.get? members key
  | _ => none

def find? (value : Value) : List String → Option Value
  | [] => some value
  | key :: rest => (value.get? key).bind fun found => found.find? rest

def text? : Value → Option String
  | .text value => some value
  | _ => none

def members? : Value → Option (List (String × Value))
  | .object members => some members
  | _ => none

end Value

/-! ## Printing -/

def escapeChar (c : Char) : List Char :=
  if c = '"' then ['\\', '"']
  else if c = '\\' then ['\\', '\\']
  else if c = '\n' then ['\\', 'n']
  else if c = '\r' then ['\\', 'r']
  else if c = '\t' then ['\\', 't']
  else if c.toNat = 8 then ['\\', 'b']
  else if c.toNat = 12 then ['\\', 'f']
  else if c.toNat < 32 then
    ['\\', 'u', '0', '0', Hex.digit (c.toNat / 16), Hex.digit (c.toNat % 16)]
  else [c]

def printText (s : String) : String :=
  "\"" ++ String.ofList (s.toList.flatMap escapeChar) ++ "\""

mutual

def print : Value → String
  | .null => "null"
  | .bool true => "true"
  | .bool false => "false"
  | .number lexeme => lexeme
  | .text value => printText value
  | .list items => "[" ++ printItems items ++ "]"
  | .object members => "\x7b" ++ printMembers members ++ "\x7d"

def printItems : List Value → String
  | [] => ""
  | [item] => print item
  | item :: rest => print item ++ "," ++ printItems rest

def printMembers : List (String × Value) → String
  | [] => ""
  | [(key, value)] => printText key ++ ":" ++ print value
  | (key, value) :: rest => printText key ++ ":" ++ print value ++ "," ++ printMembers rest

end

end CachingProxy.Json
