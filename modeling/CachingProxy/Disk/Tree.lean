import CachingProxy.Bytes
import CachingProxy.Failure
import CachingProxy.Keyed
import CachingProxy.Text.Ascii

/-!
# The files below a directory

A tree lists the files and directories below a root by the components of their paths; the root
itself has the empty path.  Every operation walks its path from the root: each component must be
looked up in an existing directory and may have at most 255 octets.
-/

set_option autoImplicit false

namespace CachingProxy.Disk

abbrev Path := List String

inductive Node where
  | file (content : Bytes)
  | directory
  deriving DecidableEq

abbrev Tree := Keyed Path Node

def maxName : Nat := 255

/-- The components of a relative path, without empty ones and single dots; a double dot goes back
one step. -/
def components (name : String) : Path :=
  (Text.splitBy (fun c => c == '/') name.toList).foldl
    (fun path part =>
      if part = [] ∨ part = ['.'] then path
      else if part = ['.', '.'] then path.dropLast
      else path ++ [String.ofList part])
    []

/-- A path whose last separator is followed by nothing names a directory. -/
def namesDirectory (name : String) : Bool :=
  match name.toList.getLast? with
  | none => true
  | some c => c == '/'

namespace Tree

def empty : Tree := [([], .directory)]

/-- Walks from the directory `base` and says what stands at the end of the path. -/
def walk (tree : Tree) (base : Path) : Path → Except SystemError (Option Node)
  | [] => .ok (Keyed.get? tree base)
  | name :: rest =>
      match Keyed.get? tree base with
      | none => .error .notFound
      | some (.file _) => .error .notADirectory
      | some .directory =>
          if maxName < name.utf8ByteSize then .error .nameTooLong
          else walk tree (base ++ [name]) rest

def find (tree : Tree) (path : Path) : Except SystemError (Option Node) := tree.walk [] path

def isFile (tree : Tree) (path : Path) : Bool :=
  match tree.find path with
  | .ok (some (.file _)) => true
  | _ => false

def read (tree : Tree) (path : Path) : Except SystemError Bytes :=
  match tree.find path with
  | .ok (some (.file content)) => .ok content
  | .ok (some .directory) => .error .isADirectory
  | .ok none => .error .notFound
  | .error cause => .error cause

def create (tree : Tree) (path : Path) : Except SystemError Tree :=
  match tree.find path with
  | .ok (some .directory) => .error .isADirectory
  | .ok _ => .ok (Keyed.put tree path (.file []))
  | .error cause => .error cause

def append (tree : Tree) (path : Path) (content : Bytes) : Tree :=
  Keyed.modify tree path fun
    | .file before => .file (before ++ content)
    | .directory => .directory

def place (tree : Tree) (path : Path) (content : Bytes) : Except SystemError Tree :=
  (tree.create path).map fun tree => tree.append path content

def remove (tree : Tree) (path : Path) : Tree := Keyed.erase tree path

def wipe (tree : Tree) : Except SystemError Tree :=
  if Keyed.has tree [] then .ok [] else .error .notFound

/-- Gives a file another name in one step; a file that had it is replaced, a directory is not. -/
def rename (tree : Tree) (source target : Path) : Except SystemError Tree :=
  match tree.find target with
  | .ok (some .directory) => .error .isADirectory
  | .ok _ =>
      match Keyed.get? tree source with
      | some node => .ok (Keyed.put (Keyed.erase tree source) target node)
      | none => .error .notFound
  | .error cause => .error cause

def makeDirectory (tree : Tree) (path : Path) : Except SystemError Tree :=
  (List.range (path.length + 1)).foldlM
    (fun (found : Tree) depth =>
      match Keyed.get? found (path.take depth) with
      | some .directory => .ok found
      | some (.file _) => .error .notADirectory
      | none => .ok (Keyed.put found (path.take depth) .directory))
    tree

def names? (tree : Tree) : Option (List String) :=
  if Keyed.has tree [] then
    some ((tree.filterMap fun entry =>
      match entry.1 with
      | [name] => some name
      | _ => none).mergeSort fun x y => x ≤ y)
  else none

end Tree

end CachingProxy.Disk
