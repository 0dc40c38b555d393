import CachingProxy.Cache.Route
import CachingProxy.Disk.Store

/-!
# Writing in the background

Routes wait in a bounded queue for a single writer.  A route that finds the queue full is dropped
and stays in memory only.  A flush waits in the same queue and is answered when the writer reaches
it, so everything queued before it has been processed by then.
-/

set_option autoImplicit false

namespace CachingProxy.Disk

/-- What became of the disk copy of a new route. -/
inductive Persistence where
  | disabled
  | queued
  | dropped
  deriving DecidableEq

def Persistence.text : Persistence → String
  | .disabled => "Disabled"
  | .queued => "Queued"
  | .dropped => "Dropped"

inductive Job where
  | write (route : Route)
  | flush (ticket : Nat)
  deriving DecidableEq

structure Counters where
  written : Nat := 0
  failed : Nat := 0
  dropped : Nat := 0
  deriving DecidableEq

/-- A disk tree with its writer: the jobs that wait, the job in the writer's hands, and the flushes
that were answered. -/
structure Archive where
  tree : Tree := .empty
  capacity : Nat
  waiting : List Job := []
  hand : Option Job := none
  counters : Counters := {}
  answered : List Nat := []

namespace Archive

/-- A queue always has room for one job. -/
def ofDepth (tree : Tree) (depth : Nat) : Archive := { tree, capacity := max depth 1 }

def enqueue (archive : Archive) (route : Route) : Persistence × Archive :=
  if archive.waiting.length < archive.capacity then
    (.queued, { archive with waiting := archive.waiting ++ [.write route] })
  else
    (.dropped, { archive with
      counters := { archive.counters with dropped := archive.counters.dropped + 1 } })

def requestFlush (archive : Archive) (ticket : Nat) : Archive :=
  if archive.waiting.length < archive.capacity then
    { archive with waiting := archive.waiting ++ [.flush ticket] }
  else archive

def take (archive : Archive) : Archive :=
  match archive.hand, archive.waiting with
  | none, job :: rest => { archive with hand := some job, waiting := rest }
  | _, _ => archive

def countWrite (archive : Archive) (result : Except SystemError Unit) : Archive :=
  match result with
  | .ok _ => { archive with
      hand := none
      counters := { archive.counters with written := archive.counters.written + 1 } }
  | .error _ => { archive with
      hand := none
      counters := { archive.counters with failed := archive.counters.failed + 1 } }

def finish (archive : Archive) : Archive :=
  match archive.hand with
  | some (.write route) =>
      let (result, tree) := Store.write archive.tree route.hash route.content
      { archive with tree := tree }.countWrite result
  | some (.flush ticket) =>
      { archive with hand := none, answered := archive.answered ++ [ticket] }
  | none => archive

def refuse (archive : Archive) (cause : SystemError) : Archive :=
  match archive.hand with
  | some (.write _) => archive.countWrite (.error cause)
  | _ => archive

inductive Event where
  | enqueue (route : Route)
  | flush (ticket : Nat)
  | take
  | finish
  | refuse (cause : SystemError)

def step (archive : Archive) : Event → Archive
  | .enqueue route => (archive.enqueue route).2
  | .flush ticket => archive.requestFlush ticket
  | .take => archive.take
  | .finish => archive.finish
  | .refuse cause => archive.refuse cause

def run (archive : Archive) (events : List Event) : Archive := events.foldl step archive

def drain (archive : Archive) : Archive :=
  (List.range (archive.waiting.length + 1)).foldl (fun found _ => found.finish.take) archive.take
    |>.finish

/-! ## A stuck writer -/

def isBusy (archive : Archive) : Bool := archive.hand.isSome

/-- Waits for the writer, unless it is stuck. -/
def settle (archive : Archive) : Archive := if archive.isBusy then archive else archive.drain

def stagingPath (route : Route) : Path := components (Store.stagingName route.hash)

def hold (archive : Archive) : Archive :=
  if archive.isBusy then archive
  else
    let taken := archive.take
    match taken.hand with
    | some (.write route) =>
        { taken with tree := Keyed.put taken.tree (stagingPath route) (.file []) }
    | _ => taken

/-- The stuck write fails and leaves no file behind; then the rest of the queue is written. -/
def release (archive : Archive) : Archive :=
  match archive.hand with
  | some (.write route) =>
      ({ archive with tree := archive.tree.remove (stagingPath route) }.refuse
        (.other "write failed")).drain
  | _ => archive

end Archive

end CachingProxy.Disk
