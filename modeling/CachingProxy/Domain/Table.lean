import CachingProxy.Domain.Authority
import CachingProxy.Keyed

/-!
# Protected domains

The table maps the canonical name of each protected domain to its origin.
-/

set_option autoImplicit false

namespace CachingProxy.Domain

structure Entry where
  domain : String
  originHost : String
  originPort : UInt16 := 80
  deriving DecidableEq

structure Table where
  origins : Keyed String Endpoint
  deriving DecidableEq

namespace Table

def ofEntries (entries : List Entry) : Table :=
  ⟨Keyed.ofEntries (entries.map fun entry =>
    (normalize entry.domain, ⟨Text.trimmed entry.originHost, entry.originPort⟩))⟩

def contains (table : Table) (domain : String) : Bool := table.origins.has (normalize domain)

def origin? (table : Table) (domain : String) : Option Endpoint :=
  table.origins.get? (normalize domain)

def size (table : Table) : Nat := table.origins.length

def domains (table : Table) : List String := table.origins.sorted.keys

end Table

end CachingProxy.Domain
