import CachingProxy.Proofs.Cache.Entries
import CachingProxy.Proofs.Disk.Names

/-!
# Files in the root

What the calls on files do to a name that is a single component: each of them goes through when the
root is a directory, and what it leaves under any path is read off the calls before it.
-/

set_option autoImplicit false

namespace CachingProxy

namespace Keyed

variable {κ α : Type} [BEq κ] [LawfulBEq κ]

theorem get?_erase_self (entries : Keyed κ α) (key : κ) : (entries.erase key).get? key = none := by
  have gone := not_mem_keys_erase entries key
  rw [mem_keys_iff, has_eq_isSome] at gone
  simpa using gone

theorem get?_modify (entries : Keyed κ α) (key : κ) (f : α → α) (other : κ) :
    (entries.modify key f).get? other =
      if key == other then (entries.get? other).map f else entries.get? other := by
  induction entries with
  | nil => simp [modify, get?]
  | cons entry rest ih =>
      rw [modify, List.map_cons, ← modify, get?_cons, get?_cons, ih]
      by_cases here : key = other
      · subst here
        by_cases found : entry.1 = key
        · simp [found]
        · simp [found]
      · by_cases found : entry.1 = other
        · subst found
          simp [here, Ne.symm here]
        · by_cases touched : entry.1 = key <;> simp [here, touched, found]

end Keyed

namespace Disk

variable {tree next : Tree} {name : String} {content : Bytes}

theorem IsFileName.find_iff (named : IsFileName name) {found : Option Node} :
    tree.find [name] = .ok found ↔
      Keyed.get? tree [] = some .directory ∧ Keyed.get? tree [name] = found := by
  rw [Tree.find, Tree.walk]
  cases root : Keyed.get? tree [] with
  | none => simp
  | some node =>
      cases node with
      | file => simp
      | directory =>
          have short : ¬ maxName < name.utf8ByteSize := Nat.not_lt.mpr named.short
          simp only [if_neg short, Tree.walk, List.nil_append, Except.ok.injEq, true_and]

theorem IsFileName.contains_iff (named : IsFileName name) : Store.contains tree name = true ↔
    Keyed.get? tree [] = some .directory ∧
      ∃ content, Keyed.get? tree [name] = some (.file content) := by
  rw [Store.contains, named.ofFile, named.components, Bool.not_false, Bool.true_and, Tree.isFile]
  constructor
  · intro isFile
    split at isFile
    · rename_i content found
      obtain ⟨root, here⟩ := named.find_iff.mp found
      exact ⟨root, content, here⟩
    · cases isFile
  · rintro ⟨root, content, here⟩
    rw [named.find_iff.mpr ⟨root, here⟩]

theorem IsFileName.read_iff (named : IsFileName name) : Store.read tree name = .ok content ↔
    Keyed.get? tree [] = some .directory ∧ Keyed.get? tree [name] = some (.file content) := by
  rw [Store.read, named.components, Tree.read]
  constructor
  · intro read
    split at read
    · rename_i found
      rw [← Except.ok.inj read]
      exact named.find_iff.mp found
    all_goals cases read
  · intro here
    rw [named.find_iff.mpr here]

theorem IsFileName.contains_iff_read (named : IsFileName name) :
    Store.contains tree name = true ↔ ∃ content, Store.read tree name = .ok content := by
  rw [named.contains_iff]
  simp only [named.read_iff, exists_and_left]

theorem IsFileName.of_create (named : IsFileName name) (created : tree.create [name] = .ok next) :
    Keyed.get? tree [] = some .directory ∧ next = Keyed.put tree [name] (.file []) := by
  rw [Tree.create] at created
  split at created
  · cases created
  · rename_i found
    exact ⟨(named.find_iff.mp found).1, (Except.ok.inj created).symm⟩
  · cases created

theorem IsFileName.create (named : IsFileName name)
    (root : Keyed.get? tree [] = some .directory)
    (free : Keyed.get? tree [name] ≠ some .directory) :
    tree.create [name] = .ok (Keyed.put tree [name] (.file [])) := by
  rw [Tree.create]
  split
  · rename_i found
    exact absurd (named.find_iff.mp found).2 free
  · rfl
  · rename_i found
    rw [named.find_iff.mpr ⟨root, rfl⟩] at found
    cases found

theorem IsFileName.rename (named : IsFileName name)
    (root : Keyed.get? tree [] = some .directory)
    (free : Keyed.get? tree [name] ≠ some .directory) {source : Path} {node : Node}
    (held : Keyed.get? tree source = some node) :
    tree.rename source [name] = .ok (Keyed.put (Keyed.erase tree source) [name] node) := by
  rw [Tree.rename]
  split
  · rename_i found
    exact absurd (named.find_iff.mp found).2 free
  · rw [held]
  · rename_i found
    rw [named.find_iff.mpr ⟨root, rfl⟩] at found
    cases found

theorem Tree.of_rename {source target : Path} (renamed : tree.rename source target = .ok next) :
    ∃ node, Keyed.get? tree source = some node ∧
      next = Keyed.put (Keyed.erase tree source) target node := by
  rw [Tree.rename] at renamed
  split at renamed
  · cases renamed
  · split at renamed
    · rename_i node found
      exact ⟨node, found, (Except.ok.inj renamed).symm⟩
    · cases renamed
  · cases renamed

end Disk

end CachingProxy
