import CachingProxy.Cache.Recency
import CachingProxy.Disk.Queue
import CachingProxy.Domain.Name
import CachingProxy.Text.Quoted

/-!
# The content cache

One least recently used partition for each protected domain, all of one capacity.  An insertion
never replaces an entry: the first writer of a path wins.  With a disk, new routes are also handed
to its writer, and nothing that happens there changes a partition.
-/

set_option autoImplicit false

namespace CachingProxy

structure CacheSettings where
  maxEntries : Nat := 1024
  diskPath : Option String := none
  queueDepth : Nat := 256
  deriving DecidableEq

inductive PutOutcome where
  | inserted (persistence : Disk.Persistence)
  | alreadyPresent
  deriving DecidableEq

structure ContentCache where
  partitions : Keyed String (Recency Route)
  maxEntries : Nat
  archive : Option Disk.Archive := none

namespace ContentCache

/-- The disk a cache is built on: the tree at the configured path, or why it cannot be opened. -/
abbrev Volume := Except SystemError Disk.Tree

/-- A cache with one empty partition for each canonical name.  An empty disk path means none. -/
def build (domains : List String) (settings : CacheSettings) (volume : Volume) :
    Except StorageError ContentCache := do
  if settings.maxEntries = 0 then .error (.config "max_entries must be at least 1")
  let partitions := Keyed.ofEntries (domains.map fun domain => (Domain.normalize domain, []))
  match settings.diskPath with
  | none | some "" => return { partitions, maxEntries := settings.maxEntries }
  | some _ =>
      match volume with
      | .error cause => .error (.io cause)
      | .ok tree =>
          return {
            partitions
            maxEntries := settings.maxEntries
            archive := some (.ofDepth tree settings.queueDepth) }

/-- The key of the partition a domain belongs to: as it is given, else in canonical form. -/
def key? (cache : ContentCache) (domain : String) : Option String :=
  if cache.partitions.has domain then some domain
  else
    let name := Domain.normalize domain
    if cache.partitions.has name then some name else none

/-- The entries of a domain, most recently touched first; none for an unknown domain. -/
def entries? (cache : ContentCache) (domain : String) : Option (Recency Route) :=
  (cache.key? domain).bind cache.partitions.get?

def get (cache : ContentCache) (domain path : String) : Option Route × ContentCache :=
  match cache.key? domain with
  | none => (none, cache)
  | some key =>
      let (found, entries) := Recency.access ((cache.partitions.get? key).getD []) path
      (found, { cache with partitions := cache.partitions.put key entries })

def persist (cache : ContentCache) (route : Route) : Disk.Persistence × ContentCache :=
  match cache.archive with
  | none => (.disabled, cache)
  | some archive =>
      let (persistence, archive) := archive.enqueue route
      (persistence, { cache with archive := some archive })

def put (cache : ContentCache) (domain path : String) (content : Bytes) (headers : Headers) :
    Except StorageError PutOutcome × ContentCache :=
  match cache.key? domain with
  | none => (.error (.unknownDomain domain), cache)
  | some key =>
      let entries := (cache.partitions.get? key).getD []
      if Keyed.has entries path then (.ok .alreadyPresent, cache)
      else
        let route := Route.ofResponse domain path content headers
        let entries := Recency.add cache.maxEntries entries path route
        let (persistence, cache) :=
          { cache with partitions := cache.partitions.put key entries }.persist route
        (.ok (.inserted persistence), cache)

def assetHashes (cache : ContentCache) (domain : String) : Keyed String String :=
  ((cache.entries? domain).getD []).map (fun entry => (entry.1, entry.2.hash)) |> Keyed.sorted

def hasDomain (cache : ContentCache) (domain : String) : Bool := (cache.key? domain).isSome

def size (cache : ContentCache) (domain : String) : Nat := ((cache.entries? domain).getD []).length

def totalSize (cache : ContentCache) : Nat :=
  (cache.partitions.flatMap fun partition => partition.2).length

def mapArchive (cache : ContentCache) (f : Disk.Archive → Disk.Archive) : ContentCache :=
  { cache with archive := cache.archive.map f }

def flush (cache : ContentCache) : ContentCache := cache.mapArchive Disk.Archive.drain

def describe (cache : ContentCache) (root : String) : String :=
  Text.record "ContentCache" [
    ("domains", Text.listText (cache.partitions.keys.map Text.quoted)),
    ("max_entries", toString cache.maxEntries),
    ("persist", Text.optionText (cache.archive.map fun archive =>
      Text.record "PersistQueue" [
        ("root", Text.quoted root),
        ("written", toString archive.counters.written),
        ("failed", toString archive.counters.failed),
        ("dropped", toString archive.counters.dropped)]))]

end ContentCache

end CachingProxy
