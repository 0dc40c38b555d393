import CachingProxy.Command.Launch
import CachingProxy.Loopback.Network

/-!
# A home on an in-memory disk

The program runs in a directory that holds all its files.  Paths are taken from there, or from the
root of the system, below which nothing else is to be found.
-/

set_option autoImplicit false

namespace CachingProxy.Loopback

structure Home where
  root : String
  tree : Disk.Tree := .empty

namespace Home

def behind? : List Char → List Char → Option (List Char)
  | [], rest => some rest
  | _ :: _, [] => none
  | c :: start, d :: rest => if c = d then behind? start rest else none

/-- A path as it is seen from the directory, if it lies below it. -/
def below? (home : Home) (path : String) : Option String :=
  match behind? home.root.toList path.toList with
  | some [] => some ""
  | some ('/' :: rest) => some (String.ofList rest)
  | _ => if path.toList.head? = some '/' then none else some path

/-- Reads a file.  A path that ends in a separator cannot name one. -/
def read (home : Home) (path : String) : Except SystemError Bytes :=
  match home.below? path with
  | none => .error .notFound
  | some name =>
      match home.tree.read (Disk.components name) with
      | .ok content => if Disk.namesDirectory name then .error .notADirectory else .ok content
      | .error cause => .error cause

def volume (home : Home) (path : String) : ContentCache.Volume :=
  match home.below? path with
  | none => .ok .empty
  | some name =>
      let parts := Disk.components name
      if home.tree.isFile parts then .error (.other "File exists (os error 17)")
      else (home.tree.makeDirectory parts).map fun _ => .empty

def place (home : Home) (path : String) (content : Bytes) : Home :=
  let parts := Disk.components ((home.below? path).getD path)
  match (home.tree.makeDirectory parts.dropLast).bind fun tree => tree.place parts content with
  | .ok tree => { home with tree }
  | .error _ => home

def withDirectory (home : Home) (path : String) : Home :=
  match home.tree.makeDirectory (Disk.components ((home.below? path).getD path)) with
  | .ok tree => { home with tree }
  | .error _ => home

def surroundings (home : Home) (place : String) : Command.Surroundings :=
  let home := home.withDirectory (Command.logDirectory place)
  { home := place, read := home.read, volume := home.volume }

end Home

def probe (network : Network) (server : Server) (host : String) : Option String :=
  let head : RequestHead :=
    { method := "GET", uri := .rooted "/" none, headers := [⟨"host", Bytes.ofText host⟩] }
  match (visit { network with origins := .refused } .connection server { head } {}).1.outcome with
  | .answered head _ => some (Version.http11.text ++ " " ++ Status.line head.status)
  | _ => none

end CachingProxy.Loopback
