import CachingProxy.Keyed

/-!
# Least recently used collections

The entries are listed from the most to the least recently touched, each path once.  A hit moves
its entry to the front; an insertion puts a new entry there and keeps at most `capacity` of them.
-/

set_option autoImplicit false

namespace CachingProxy

abbrev Recency (α : Type) := Keyed String α

namespace Recency

variable {α : Type}

/-- Looks a path up.  A hit is a touch, a miss changes nothing. -/
def access (entries : Recency α) (path : String) : Option α × Recency α :=
  match Keyed.get? entries path with
  | some value => (some value, (path, value) :: Keyed.erase entries path)
  | none => (none, entries)

/-- Adds an entry for a path that has none; the least recently touched one leaves a full list. -/
def add (capacity : Nat) (entries : Recency α) (path : String) (value : α) : Recency α :=
  ((path, value) :: entries).take capacity

end Recency

end CachingProxy
