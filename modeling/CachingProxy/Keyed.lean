/-!
# Keyed collections

A keyed collection lists each key once.  `put` replaces the value of a key that is present and
appends a new key otherwise, so the keys keep the order in which they first came.
-/

set_option autoImplicit false

namespace CachingProxy

abbrev Keyed (κ α : Type) := List (κ × α)

namespace Keyed

variable {κ α : Type} [BEq κ]

def get? (entries : Keyed κ α) (key : κ) : Option α :=
  (entries.find? fun entry => entry.1 == key).map Prod.snd

def has (entries : Keyed κ α) (key : κ) : Bool := entries.any fun entry => entry.1 == key

def keys (entries : Keyed κ α) : List κ := entries.map Prod.fst

def erase (entries : Keyed κ α) (key : κ) : Keyed κ α :=
  entries.filter fun entry => entry.1 != key

def put : Keyed κ α → κ → α → Keyed κ α
  | [], key, value => [(key, value)]
  | entry :: rest, key, value =>
      if entry.1 == key then (key, value) :: rest else entry :: put rest key value

/-- The last of several values given to one key stays. -/
def ofEntries (entries : List (κ × α)) : Keyed κ α :=
  entries.foldl (fun found entry => found.put entry.1 entry.2) []

def modify (entries : Keyed κ α) (key : κ) (f : α → α) : Keyed κ α :=
  entries.map fun entry => if entry.1 == key then (entry.1, f entry.2) else entry

/-- The entries in the order of their keys, code point by code point. -/
def sorted (entries : Keyed String α) : Keyed String α := entries.mergeSort fun x y => x.1 ≤ y.1

end Keyed

end CachingProxy
