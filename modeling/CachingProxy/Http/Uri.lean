import CachingProxy.Text.Ascii

/-!
# Request targets

A target is read in one of four forms: a path, the asterisk, a bare authority, or an absolute URI.
The reader accepts the octets that clients send in practice, and drops a fragment.
-/

set_option autoImplicit false

namespace CachingProxy

/-- A request target.  The path of the absolute form may be empty. -/
inductive Uri where
  | rooted (path : String) (query : Option String)
  | asterisk
  | bare (authority : String)
  | absolute (scheme authority path : String) (query : Option String)
  deriving DecidableEq

namespace Uri

/-- The host part of an authority: what follows the last at-sign, without a port.  A bracketed
literal keeps its brackets. -/
def hostOf (authority : List Char) : List Char :=
  let hostPort := (authority.reverse.takeWhile fun c => c != '@').reverse
  match hostPort with
  | '[' :: _ => hostPort.takeWhile (fun c => c != ']') ++ [']']
  | _ => hostPort.takeWhile fun c => c != ':'

def host? : Uri → Option String
  | .bare authority | .absolute _ authority _ _ =>
      some (String.ofList (hostOf authority.toList))
  | .rooted _ _ | .asterisk => none

def withQuery (path : String) : Option String → String
  | none => path
  | some query => path ++ "?" ++ query

def pathText : Uri → String
  | .rooted path _ => path
  | .asterisk => "*"
  | .bare _ => ""
  | .absolute _ _ path _ => if path.isEmpty then "/" else path

def pathAndQuery? : Uri → Option String
  | .rooted path query => some (withQuery path query)
  | .asterisk => some "*"
  | .bare _ => none
  | .absolute _ _ path query =>
      let written := withQuery path query
      some (if written.isEmpty then "/" else written)

/-- Path and query, with the root standing in for a target that has neither. -/
def target (uri : Uri) : String := uri.pathAndQuery?.getD "/"

def text : Uri → String
  | .rooted path query => withQuery path query
  | .asterisk => "*"
  | .bare authority => authority
  | .absolute scheme authority path query =>
      scheme ++ "://" ++ authority ++ withQuery (if path.isEmpty then "/" else path) query

/-! ## Reading -/

def isSchemeChar (c : Char) : Bool := Text.isAlnum c || "+-.~".toList.contains c

def isAuthorityChar (c : Char) : Bool := Text.isAlnum c || "!$&'()*+,-.:;=@[]_~".toList.contains c

def isPathChar (c : Char) : Bool :=
  let n := c.toNat
  n == 0x21 || n == 0x22 || (0x24 ≤ n && n ≤ 0x3B) || n == 0x3D || (0x40 ≤ n && n ≤ 0x5F) ||
    (0x61 ≤ n && n ≤ 0x7E) || 0x80 ≤ n

def isQueryChar (c : Char) : Bool :=
  let n := c.toNat
  n == 0x21 || (0x24 ≤ n && n ≤ 0x3B) || n == 0x3D || (0x3F ≤ n && n ≤ 0x7E) || 0x80 ≤ n

/-- What is known of an authority after some of its characters: the colons that could stand before
a port, the brackets met, whether a percent sign stands outside the user information, and whether
the last character was an at-sign. -/
structure Scan where
  colons : Nat := 0
  opened : Bool := false
  closed : Bool := false
  percent : Bool := false
  atSign : Bool := false

def maxColons : Nat := 8

def Scan.step (scan : Scan) (c : Char) : Option Scan :=
  let scan := { scan with atSign := false }
  if c = ':' then
    if maxColons ≤ scan.colons then none else some { scan with colons := scan.colons + 1 }
  else if c = '[' then
    if scan.percent || scan.opened then none else some { scan with opened := true }
  else if c = ']' then
    if !scan.opened || scan.closed then none
    else some { scan with closed := true, colons := 0, percent := false }
  else if c = '@' then some { scan with colons := 0, percent := false, atSign := true }
  else if c = '%' then some { scan with percent := true }
  else if isAuthorityChar c then some scan
  else none

def Scan.accepted (scan : Scan) : Bool :=
  scan.opened == scan.closed && scan.colons ≤ 1 && !scan.atSign && !scan.percent

def isAuthority (cs : List Char) : Bool :=
  match cs.foldlM Scan.step {} with
  | some scan => scan.accepted
  | none => false

def endsAuthority (c : Char) : Bool := c == '/' || c == '?' || c == '#'

def pathQuery? (cs : List Char) : Option (String × Option String) :=
  let (path, rest) := Text.cutAt (fun c => c == '?' || c == '#') cs
  if !path.all isPathChar then none
  else
    match rest with
    | '?' :: more =>
        let query := (Text.cutAt (fun c => c == '#') more).1
        if query.all isQueryChar then some (String.ofList path, some (String.ofList query))
        else none
    | _ => some (String.ofList path, none)

def canonicalScheme (scheme : List Char) : String :=
  let folded := Text.lower scheme
  if folded = "http".toList || folded = "https".toList then String.ofList folded
  else String.ofList scheme

def maxScheme : Nat := 64

def maxLength : Nat := 65534

/-- The characters before `://` and those after it, when the text starts with scheme characters up
to there. -/
def splitScheme? (cs : List Char) : Option (List Char × List Char) :=
  let (scheme, rest) := (cs.takeWhile isSchemeChar, cs.dropWhile isSchemeChar)
  match rest with
  | ':' :: '/' :: '/' :: more => if cs.length ≤ 3 then none else some (scheme, more)
  | _ => none

def readFull (cs : List Char) : Option Uri :=
  match splitScheme? cs with
  | some (scheme, more) =>
      if maxScheme < scheme.length then none
      else
        let (authority, rest) := Text.cutAt endsAuthority more
        if authority.isEmpty || !isAuthority authority then none
        else
          (pathQuery? rest).map fun pq =>
            .absolute (canonicalScheme scheme) (String.ofList authority) pq.1 pq.2
  | none =>
      if cs.all (fun c => !endsAuthority c) && isAuthority cs then
        some (.bare (String.ofList cs))
      else none

def ofText? (text : String) : Option Uri :=
  if maxLength < text.utf8ByteSize then none
  else
    match text.toList with
    | [] => none
    | ['*'] => some .asterisk
    | '/' :: rest => (pathQuery? ('/' :: rest)).map fun pq => .rooted pq.1 pq.2
    | cs => readFull cs

end Uri

end CachingProxy
