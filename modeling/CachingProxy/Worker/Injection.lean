import CachingProxy.Bytes
import CachingProxy.Text.Ascii
import CachingProxy.Text.Trim

/-!
# Injecting the registration script

A page is changed just behind its opening head tag, which is searched in the octets of the page.
Content of another type, or without such a tag, is not changed, and the result is then empty.
-/

set_option autoImplicit false

namespace CachingProxy.Worker

def isHtml (contentType : String) : Bool :=
  let mime := contentType.toList.takeWhile fun c => c != ';'
  Text.lower (Text.trim mime) == "text/html".toList

def escapeRoute (route : List Char) : List Char :=
  route.flatMap fun c => if c = '\'' then ['\\', '\''] else [c]

def registrationScript (route : String) : String :=
  "<script>if ('serviceWorker' in navigator) \x7b navigator.serviceWorker.register('" ++
    String.ofList (escapeRoute route.toList) ++ "'); \x7d</script>"

def tag : Bytes := Bytes.ofText "<head"

def closingByte : UInt8 := 62

def startsWithTag (content : Bytes) : Bool :=
  Text.sameIgnoringCase (content.take 5) tag

def findTag : Bytes → Option Nat
  | [] => none
  | b :: rest => if startsWithTag (b :: rest) then some 0 else (findTag rest).map (· + 1)

/-- The place just past the opening head tag.  A longer name is another element, and the search goes
on behind it. -/
def headEnd (content : Bytes) : Option Nat :=
  match findTag content with
  | none => none
  | some start =>
      let after := start + 5
      match _found : content.drop after with
      | [] => none
      | b :: rest =>
          if b = closingByte then some (after + 1)
          else if Text.isSpaceByte b then
            ((b :: rest).findIdx? fun c => c == closingByte).map fun close => after + close + 1
          else (headEnd (b :: rest)).map fun place => after + place
termination_by content.length
decreasing_by
  have shorter := congrArg List.length _found
  simp only [List.length_drop] at shorter
  have := (List.length_cons : (b :: rest).length = rest.length + 1)
  omega

/-- The page with the script behind its opening head tag; empty if it is not changed. -/
def injectScript (script : Bytes) (content : Bytes) (contentType : String) : Bytes :=
  if !isHtml contentType then []
  else
    match headEnd content with
    | none => []
    | some place => content.take place ++ script ++ content.drop place

end CachingProxy.Worker
