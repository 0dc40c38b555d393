import CachingProxy.Digest.Hex
import CachingProxy.Text.Invisible

/-!
# Texts and records in descriptions

A description shows a value for diagnosis.  Texts stand in double quotes, with escapes for quotes,
backslashes and everything that cannot be seen; records list their fields between braces.
-/

set_option autoImplicit false

namespace CachingProxy.Text

def quoteChar (c : Char) : List Char :=
  if c = '"' then ['\\', '"']
  else if c = '\\' then ['\\', '\\']
  else if c = '\n' then ['\\', 'n']
  else if c = '\r' then ['\\', 'r']
  else if c = '\t' then ['\\', 't']
  else if c.toNat = 0 then ['\\', '0']
  else if isInvisible c then ['\\', 'u', '{'] ++ (Hex.ofNat c.toNat).toList ++ ['}']
  else [c]

def quoted (s : String) : String := "\"" ++ String.ofList (s.toList.flatMap quoteChar) ++ "\""

def fieldTexts (fields : List (String × String)) : String :=
  String.intercalate ", " (fields.map fun field => field.1 ++ ": " ++ field.2)

def record (name : String) (fields : List (String × String)) : String :=
  name ++ " \x7b " ++ fieldTexts fields ++ " \x7d"

/-- A constructor applied to one value. -/
def applied (name argument : String) : String := name ++ "(" ++ argument ++ ")"

def optionText : Option String → String
  | none => "None"
  | some text => applied "Some" text

def boolText (b : Bool) : String := if b then "true" else "false"

def listText (items : List String) : String := "[" ++ String.intercalate ", " items ++ "]"

end CachingProxy.Text
