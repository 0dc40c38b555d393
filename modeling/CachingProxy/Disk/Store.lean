import CachingProxy.Disk.Tree

/-!
# Files named by digests

A body is staged under a name of its own and then renamed, so a final name is either absent or
holds a whole body.  A name that is taken by a file is left as it is.
-/

set_option autoImplicit false

namespace CachingProxy.Disk.Store

def stagingName (name : String) : String := "." ++ name ++ ".tmp"

def contains (tree : Tree) (name : String) : Bool :=
  !namesDirectory name && tree.isFile (components name)

def read (tree : Tree) (name : String) : Except SystemError Bytes := tree.read (components name)

/-- The staged file takes its final name, or is removed if it cannot. -/
def publish (tree : Tree) (name : String) : Except SystemError Unit × Tree :=
  let staging := components (stagingName name)
  let renamed :=
    if namesDirectory name then .error .notADirectory else tree.rename staging (components name)
  match renamed with
  | .ok tree => (.ok (), tree)
  | .error cause => (.error cause, tree.remove staging)

def write (tree : Tree) (name : String) (content : Bytes) : Except SystemError Unit × Tree :=
  if contains tree name then (.ok (), tree)
  else
    let staging := components (stagingName name)
    match tree.create staging with
    | .error cause => (.error cause, tree)
    | .ok created => publish (created.append staging content) name

end CachingProxy.Disk.Store
