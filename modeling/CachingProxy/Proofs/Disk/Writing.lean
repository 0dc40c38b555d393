import CachingProxy.Proofs.Disk.Trees
import Mathlib.Data.List.Induction

/-!
# A write, one call after another

A body is written by several calls on files, and the machine may stop between any two of them.
`Medium.advance` makes one of these calls, which may fail or, for octets, do a part of its work; a
write that is left alone comes to what `Store.write` gives (`Medium.write_undisturbed`).  What one
call can do is said once, by `Advances`, and everything else is read off its rules.
-/

set_option autoImplicit false

namespace CachingProxy.Disk

/-- A disk: the files as they are seen, and those whose octets may be lost with the power. -/
structure Medium where
  tree : Tree
  unsynced : List Path := []

inductive Stage where
  | look
  | create
  | append (rest : Bytes)
  | sync
  | rename
  | clear (cause : SystemError)
  | returned (result : Except SystemError Unit)

inductive Luck where
  | works (octets : Nat)
  | fails (cause : SystemError)

namespace Medium

/-- The next call of a write. -/
def advance (name : String) (content : Bytes) (medium : Medium) : Stage → Luck → Medium × Stage
  | .look, _ =>
      (medium, if Store.contains medium.tree name then .returned (.ok ()) else .create)
  | .create, .works _ =>
      let staging := components (Store.stagingName name)
      match medium.tree.create staging with
      | .error cause => (medium, .returned (.error cause))
      | .ok tree => ({ tree, unsynced := staging :: medium.unsynced }, .append content)
  | .append rest, .works octets =>
      let staging := components (Store.stagingName name)
      ({ medium with tree := medium.tree.append staging (rest.take octets) },
        if rest.drop octets = [] then .sync else .append (rest.drop octets))
  | .sync, .works _ =>
      let staging := components (Store.stagingName name)
      ({ medium with unsynced := medium.unsynced.filter (· != staging) }, .rename)
  | .rename, .works _ =>
      let staging := components (Store.stagingName name)
      let renamed :=
        if namesDirectory name then .error .notADirectory
        else medium.tree.rename staging (components name)
      match renamed with
      | .error cause => (medium, .clear cause)
      -- Octets that are not safe are not made so by another name.
      | .ok tree => ({ tree, unsynced := medium.unsynced.map fun path =>
          if path = staging then components name else path }, .returned (.ok ()))
  | .clear cause, .works _ =>
      ({ medium with tree := medium.tree.remove (components (Store.stagingName name)) },
        .returned (.error cause))
  | .rename, .fails cause => (medium, .clear cause)
  | .clear cause, .fails _ => (medium, .returned (.error cause))
  | .create, .fails cause => (medium, .returned (.error cause))
  | .append _, .fails cause => (medium, .returned (.error cause))
  | .sync, .fails cause => (medium, .returned (.error cause))
  | .returned result, _ => (medium, .returned result)

/-- A write goes on from a stage, one call for each luck. -/
def proceed (name : String) (content : Bytes) (medium : Medium) (stage : Stage) :
    List Luck → Medium × Stage
  | [] => (medium, stage)
  | luck :: rest =>
      let (medium, stage) := medium.advance name content stage luck
      medium.proceed name content stage rest

@[irreducible] def write (medium : Medium) (name : String) (content : Bytes) (lucks : List Luck) :
    Medium × Stage := medium.proceed name content .look lucks

theorem proceed_cons (medium : Medium) (name : String) (content : Bytes) (stage : Stage)
    (luck : Luck) (rest : List Luck) : medium.proceed name content stage (luck :: rest) =
      (medium.advance name content stage luck).1.proceed name content
        (medium.advance name content stage luck).2 rest := rfl

theorem proceed_append (medium : Medium) (name : String) (content : Bytes) (stage : Stage)
    (first second : List Luck) : medium.proceed name content stage (first ++ second) =
      (medium.proceed name content stage first).1.proceed name content
        (medium.proceed name content stage first).2 second := by
  induction first generalizing medium stage with
  | nil => rfl
  | cons luck rest ih => exact ih _ _

theorem proceed_returned (medium : Medium) (name : String) (content : Bytes)
    (result : Except SystemError Unit) (lucks : List Luck) :
    medium.proceed name content (.returned result) lucks = (medium, .returned result) := by
  induction lucks with
  | nil => rfl
  | cons luck rest ih =>
      rw [proceed, advance]
      exact ih

theorem write_nil (medium : Medium) (name : String) (content : Bytes) :
    medium.write name content [] = (medium, .look) := by
  rw [write, proceed]

theorem write_concat (medium : Medium) (name : String) (content : Bytes) (lucks : List Luck)
    (luck : Luck) : medium.write name content (lucks ++ [luck]) =
      (medium.write name content lucks).1.advance name content
        (medium.write name content lucks).2 luck := by
  rw [write, proceed_append, proceed_cons, proceed, write]

/-- Without a failure, and with all octets taken at once, six calls are enough. -/
theorem write_undisturbed (medium : Medium) (name : String) (content : Bytes) :
    let now := medium.write name content (List.replicate 6 (.works content.length))
    now.1.tree = (Store.write medium.tree name content).2 ∧
      now.2 = .returned (Store.write medium.tree name content).1 := by
  simp only [write, Store.write, List.replicate]
  rw [proceed_cons, advance]
  by_cases present : Store.contains medium.tree name = true
  · simp only [if_pos present, proceed_returned, and_self]
  simp only [if_neg present]
  rw [proceed_cons, advance]
  cases medium.tree.create (components (Store.stagingName name)) with
  | error cause => simp only [proceed_returned, and_self]
  | ok created =>
      simp only
      rw [proceed_cons, advance, List.take_length, List.drop_length, if_pos rfl, proceed_cons,
        advance, proceed_cons, advance, Store.publish]
      simp only
      cases (if namesDirectory name = true then Except.error SystemError.notADirectory
        else Tree.rename _ _ _) with
      | error cause => exact ⟨rfl, rfl⟩
      | ok renamed => exact ⟨rfl, rfl⟩

end Medium

/-! ## What a call can do -/

def finalPath (content : Bytes) : Path := [Sha256.hexDigest content]

def stagedPath (content : Bytes) : Path := [Store.stagingName (Sha256.hexDigest content)]

theorem components_hexDigest (content : Bytes) :
    components (Sha256.hexDigest content) = finalPath content :=
  (isFileName_hexDigest content).components

theorem components_stagingName (content : Bytes) :
    components (Store.stagingName (Sha256.hexDigest content)) = stagedPath content :=
  (isFileName_stagingName content).components

theorem stagedPath_ne_finalPath (one other : Bytes) : stagedPath one ≠ finalPath other := by
  intro same
  exact stagingName_ne_hexDigest one other (List.singleton_inj.mp same)

/-- Nothing but a directory in its way can stop a write that is left alone. -/
theorem write_succeeds {tree : Tree} {content : Bytes}
    (root : Keyed.get? tree [] = some .directory)
    (final : Keyed.get? tree (finalPath content) ≠ some .directory)
    (staged : Keyed.get? tree (stagedPath content) ≠ some .directory) :
    (Store.write tree (Sha256.hexDigest content) content).1 = .ok () := by
  have apart : (stagedPath content == finalPath content) = false :=
    beq_false_of_ne (stagedPath_ne_finalPath content content)
  have named := isFileName_hexDigest content
  have created : tree.create (stagedPath content) =
      .ok (Keyed.put tree (stagedPath content) (.file [])) :=
    (isFileName_stagingName content).create root staged
  -- Only the staged file is another than before when it is to take its name.
  let filled :=
    Tree.append (Keyed.put tree (stagedPath content) (.file [])) (stagedPath content) content
  have written : Keyed.get? filled (stagedPath content) = some (.file content) := by
    simp [filled, Tree.append, Keyed.get?_modify, Keyed.get?_put]
  have kept : ∀ path, (stagedPath content == path) = false →
      Keyed.get? filled path = Keyed.get? tree path := by
    intro path elsewhere
    simp [filled, Tree.append, Keyed.get?_modify, Keyed.get?_put, elsewhere]
  have renamed := named.rename ((kept [] (by simp [stagedPath])).trans root)
    ((kept (finalPath content) apart).trans_ne final) written
  rw [Store.write]
  split
  · rfl
  · simp only [components_stagingName, created]
    rw [Store.publish]
    simp only [components_stagingName, components_hexDigest, named.ofFile, Bool.false_eq_true,
      if_false]
    rw [finalPath, renamed]

/-- The rules of the calls that write a body under its digest. -/
inductive Advances (content : Bytes) (medium : Medium) : Stage → Medium × Stage → Prop where
  | found (present : Store.contains medium.tree (Sha256.hexDigest content) = true) :
      Advances content medium .look (medium, .returned (.ok ()))
  | missing (absent : Store.contains medium.tree (Sha256.hexDigest content) = false) :
      Advances content medium .look (medium, .create)
  | created (root : Keyed.get? medium.tree [] = some .directory) :
      Advances content medium .create
        ({ tree := Keyed.put medium.tree (stagedPath content) (.file [])
           unsynced := stagedPath content :: medium.unsynced }, .append content)
  | wrote (rest : Bytes) (octets : Nat) {next : Stage}
      (left : next = .append (rest.drop octets) ∨ next = .sync ∧ rest.drop octets = []) :
      Advances content medium (.append rest)
        ({ medium with tree := medium.tree.append (stagedPath content) (rest.take octets) }, next)
  | synced :
      Advances content medium .sync
        ({ medium with unsynced := medium.unsynced.filter (· != stagedPath content) }, .rename)
  | renamed {node : Node} (held : Keyed.get? medium.tree (stagedPath content) = some node) :
      Advances content medium .rename
        ({ tree := Keyed.put (Keyed.erase medium.tree (stagedPath content)) (finalPath content) node
           unsynced := medium.unsynced.map fun path =>
            if path = stagedPath content then finalPath content else path }, .returned (.ok ()))
  | unrenamed (cause : SystemError) : Advances content medium .rename (medium, .clear cause)
  | cleared (cause : SystemError) :
      Advances content medium (.clear cause)
        ({ medium with tree := medium.tree.remove (stagedPath content) }, .returned (.error cause))
  | failed {stage : Stage} (begun : stage ≠ .look) (unended : ∀ result, stage ≠ .returned result)
      (cause : SystemError) : Advances content medium stage (medium, .returned (.error cause))
  | rested (result : Except SystemError Unit) :
      Advances content medium (.returned result) (medium, .returned result)

theorem advance_advances (content : Bytes) (medium : Medium) (stage : Stage) (luck : Luck) :
    Advances content medium stage
      (medium.advance (Sha256.hexDigest content) content stage luck) := by
  cases stage with
  | look =>
      rw [Medium.advance]
      cases present : Store.contains medium.tree (Sha256.hexDigest content) with
      | true => exact .found present
      | false => exact .missing present
  | returned result => exact .rested result
  | create =>
      cases luck with
      | fails cause => exact .failed (by simp) (by simp) cause
      | works octets =>
          rw [Medium.advance, components_stagingName]
          cases created : medium.tree.create (stagedPath content) with
          | error cause => exact .failed (by simp) (by simp) cause
          | ok tree =>
              obtain ⟨root, rfl⟩ := (isFileName_stagingName content).of_create created
              exact .created root
  | append rest =>
      cases luck with
      | fails cause => exact .failed (by simp) (by simp) cause
      | works octets =>
          rw [Medium.advance, components_stagingName]
          apply Advances.wrote
          by_cases done : rest.drop octets = []
          · exact .inr ⟨if_pos done, done⟩
          · exact .inl (if_neg done)
  | sync =>
      cases luck with
      | fails cause => exact .failed (by simp) (by simp) cause
      | works octets =>
          rw [Medium.advance, components_stagingName]
          exact .synced
  | rename =>
      cases luck with
      | fails cause => exact .unrenamed cause
      | works octets =>
          rw [Medium.advance, components_stagingName, components_hexDigest]
          cases renamed : (if namesDirectory (Sha256.hexDigest content) = true then
            Except.error SystemError.notADirectory
            else medium.tree.rename (stagedPath content) (finalPath content)) with
          | error cause => exact .unrenamed cause
          | ok tree =>
              rw [(isFileName_hexDigest content).ofFile] at renamed
              obtain ⟨node, held, rfl⟩ := Tree.of_rename renamed
              exact .renamed held
  | clear cause =>
      cases luck with
      | fails _ => exact .failed (by simp) (by simp) cause
      | works octets =>
          rw [Medium.advance, components_stagingName]
          exact .cleared cause

/-! ## What every call keeps -/

/-- What is staged at each stage: what was written so far, then the whole body, and then, before it
is given its name, safely. -/
def Staged (content : Bytes) (medium : Medium) : Stage → Prop
  | .append rest => Keyed.get? medium.tree [] = some .directory ∧ ∃ written,
      Keyed.get? medium.tree (stagedPath content) = some (.file written) ∧ written ++ rest = content
  | .sync => Keyed.get? medium.tree [] = some .directory ∧
      Keyed.get? medium.tree (stagedPath content) = some (.file content)
  | .rename => Keyed.get? medium.tree [] = some .directory ∧
      Keyed.get? medium.tree (stagedPath content) = some (.file content) ∧
      stagedPath content ∉ medium.unsynced
  | .returned (.ok _) => Store.contains medium.tree (Sha256.hexDigest content) = true
  | .look | .create | .clear _ | .returned (.error _) => True

/-- No file stands beside the finished one: a write that has begun has found no finished one. -/
def Alone (content : Bytes) (medium : Medium) : Stage → Prop
  | .look => Store.contains medium.tree (Sha256.hexDigest content) = true →
      Keyed.get? medium.tree (stagedPath content) = none
  | .returned (.ok _) => Keyed.get? medium.tree (stagedPath content) = none
  | .create | .append _ | .sync | .rename | .clear _ | .returned (.error _) =>
      Store.contains medium.tree (Sha256.hexDigest content) = false

theorem contains_congr {content : Bytes} {one other : Tree}
    (root : Keyed.get? one [] = Keyed.get? other [])
    (final : Keyed.get? one (finalPath content) = Keyed.get? other (finalPath content)) :
    Store.contains one (Sha256.hexDigest content) =
      Store.contains other (Sha256.hexDigest content) := by
  have named := isFileName_hexDigest content
  rw [Bool.eq_iff_iff, named.contains_iff, named.contains_iff, ← finalPath, root, final]

namespace Advances

variable {content : Bytes} {medium : Medium} {stage : Stage} {result : Medium × Stage}

theorem elsewhere (rule : Advances content medium stage result) {path : Path}
    (notFinal : path ≠ finalPath content) (notStaged : path ≠ stagedPath content) :
    Keyed.get? result.1.tree path = Keyed.get? medium.tree path := by
  have final : (finalPath content == path) = false := beq_false_of_ne (Ne.symm notFinal)
  have staged : (stagedPath content == path) = false := beq_false_of_ne (Ne.symm notStaged)
  cases rule with
  | created => simp [Keyed.get?_put, staged]
  | wrote => simp [Tree.append, Keyed.get?_modify, staged]
  | renamed => simp [Keyed.get?_put, final, Keyed.get?_erase _ (Ne.symm notStaged)]
  | cleared => simp [Tree.remove, Keyed.get?_erase _ (Ne.symm notStaged)]
  | found | missing | synced | unrenamed | failed | rested => rfl

theorem root (rule : Advances content medium stage result) :
    Keyed.get? result.1.tree [] = Keyed.get? medium.tree [] :=
  rule.elsewhere (by simp [finalPath]) (by simp [stagedPath])

theorem final (rule : Advances content medium stage result) (staged : Staged content medium stage) :
    Keyed.get? result.1.tree (finalPath content) = Keyed.get? medium.tree (finalPath content) ∨
      stage = .rename ∧ result.2 = .returned (.ok ()) ∧
        Keyed.get? result.1.tree (finalPath content) = some (.file content) := by
  have apart : (stagedPath content == finalPath content) = false :=
    beq_false_of_ne (stagedPath_ne_finalPath content content)
  cases rule with
  | created => exact .inl (by simp [Keyed.get?_put, apart])
  | wrote => exact .inl (by simp [Tree.append, Keyed.get?_modify, apart])
  | cleared =>
      exact .inl (by simp [Tree.remove, Keyed.get?_erase _ (stagedPath_ne_finalPath _ _)])
  | renamed held =>
      obtain rfl := Option.some.inj (staged.2.1.symm.trans held)
      exact .inr ⟨rfl, rfl, by simp [Keyed.get?_put]⟩
  | found | missing | synced | unrenamed | failed | rested => exact .inl rfl

theorem contains (rule : Advances content medium stage result)
    (staged : Staged content medium stage) {other : Bytes}
    (present : Store.contains medium.tree (Sha256.hexDigest other) = true) :
    Store.contains result.1.tree (Sha256.hexDigest other) = true := by
  have named := isFileName_hexDigest other
  obtain ⟨root, body, here⟩ := named.contains_iff.mp present
  rw [named.contains_iff]
  refine ⟨rule.root.trans root, ?_⟩
  by_cases own : finalPath other = finalPath content
  · rw [← finalPath, own] at here ⊢
    rcases rule.final staged with same | ⟨-, -, whole⟩
    · exact ⟨body, same.trans here⟩
    · exact ⟨content, whole⟩
  · exact ⟨body, (rule.elsewhere own (stagedPath_ne_finalPath content other).symm).trans here⟩

theorem staged (rule : Advances content medium stage result)
    (staged : Staged content medium stage) : Staged content result.1 result.2 := by
  have kept := rule.root
  cases rule with
  | found present => exact present
  | missing | unrenamed | cleared | failed => trivial
  | created root =>
      refine ⟨kept.trans root, [], ?_, rfl⟩
      simp [Keyed.get?_put]
  | @wrote rest octets next left =>
      obtain ⟨root, written, here, whole⟩ := staged
      have longer : Keyed.get? (medium.tree.append (stagedPath content) (rest.take octets))
          (stagedPath content) = some (.file (written ++ rest.take octets)) := by
        simp [Tree.append, Keyed.get?_modify, here]
      rcases left with rfl | ⟨rfl, done⟩
      · refine ⟨kept.trans root, _, longer, ?_⟩
        rw [List.append_assoc, List.take_append_drop, whole]
      · refine ⟨kept.trans root, longer.trans ?_⟩
        rw [List.take_of_length_le (List.drop_eq_nil_iff.mp done), whole]
  | synced =>
      refine ⟨staged.1, staged.2, ?_⟩
      simp
  | renamed held =>
      rw [Staged, (isFileName_hexDigest content).contains_iff]
      obtain rfl := Option.some.inj (staged.2.1.symm.trans held)
      refine ⟨kept.trans staged.1, content, ?_⟩
      rw [← finalPath, Keyed.get?_put]
      simp
  | rested => exact staged

theorem directory (rule : Advances content medium stage result)
    (staged : Staged content medium stage) {path : Path}
    (here : Keyed.get? result.1.tree path = some .directory) :
    Keyed.get? medium.tree path = some .directory := by
  by_cases atFinal : path = finalPath content
  · subst atFinal
    rcases rule.final staged with same | ⟨-, -, taken⟩
    · exact same.symm.trans here
    · cases taken.symm.trans here
  by_cases atStaged : path = stagedPath content
  · subst atStaged
    cases rule with
    | created => simp [Keyed.get?_put] at here
    | wrote =>
        cases held : Keyed.get? medium.tree (stagedPath content) with
        | none => simp [Tree.append, Keyed.get?_modify, held] at here
        | some node => cases node <;> simp [Tree.append, Keyed.get?_modify, held] at here ⊢
    | cleared => simp [Tree.remove, Keyed.get?_erase_self] at here
    | renamed => simp [Keyed.get?_put, Keyed.get?_erase_self, Ne.symm atFinal] at here
    | found | missing | synced | unrenamed | failed | rested => exact here
  · exact (rule.elsewhere atFinal atStaged).symm.trans here

/-- Only what is staged can be lost: the body is safe before it is given its name. -/
theorem unsynced (rule : Advances content medium stage result)
    (staged : Staged content medium stage) {path : Path} (loose : path ∈ result.1.unsynced) :
    path ∈ medium.unsynced ∨ path = stagedPath content := by
  cases rule with
  | created => exact (List.mem_cons.mp loose).symm
  | synced => exact .inl (List.mem_of_mem_filter loose)
  | renamed =>
      obtain ⟨before, member, rfl⟩ := List.mem_map.mp loose
      have safe : before ≠ stagedPath content := by
        rintro rfl
        exact staged.2.2 member
      rw [if_neg safe]
      exact .inl member
  | found | missing | wrote | unrenamed | cleared | failed | rested => exact .inl loose

theorem alone (rule : Advances content medium stage result) (staged : Staged content medium stage)
    (alone : Alone content medium stage) : Alone content result.1 result.2 := by
  have root := rule.root
  have final := rule.final staged
  -- While the write is under way the final name stays without a file.
  have unopened : result.2 ≠ .returned (.ok ()) →
      Store.contains medium.tree (Sha256.hexDigest content) = false →
      Store.contains result.1.tree (Sha256.hexDigest content) = false := by
    intro unended absent
    rw [contains_congr root (final.resolve_right fun taken => unended taken.2.1)]
    exact absent
  cases rule with
  | found present => exact alone present
  | missing absent => exact absent
  | created => exact unopened (by simp) alone
  | wrote rest octets left =>
      rcases left with rfl | ⟨rfl, -⟩ <;> exact unopened (by simp) alone
  | synced => exact alone
  | renamed held =>
      rw [Alone, Keyed.get?_put,
        if_neg (by simpa using Ne.symm (stagedPath_ne_finalPath content content))]
      exact Keyed.get?_erase_self _ _
  | unrenamed => exact alone
  | cleared => exact unopened (by simp) alone
  | @failed stage begun unended cause =>
      cases stage with
      | look => exact absurd rfl begun
      | returned result => exact absurd rfl (unended result)
      | _ => exact alone
  | rested => exact alone

end Advances

/-! ## What is left of a tree -/

/-- What writes of the bodies `contents` have made of a tree, finished or not. -/
structure Left (tree : Tree) (contents : List Bytes) (medium : Medium) : Prop where
  root : Keyed.get? medium.tree [] = Keyed.get? tree []
  origin : ∀ content node, Keyed.get? medium.tree (finalPath content) = some node →
    Keyed.get? tree (finalPath content) = some node ∨
      ∃ found ∈ contents, node = .file found ∧ Sha256.hexDigest found = Sha256.hexDigest content
  directory : ∀ path, Keyed.get? medium.tree path = some .directory →
    Keyed.get? tree path = some .directory
  loose : ∀ path ∈ medium.unsynced, ∃ content, path = stagedPath content

namespace Left

variable {tree : Tree} {contents : List Bytes} {medium : Medium}

theorem start (tree : Tree) : Left tree [] { tree } := by
  refine ⟨rfl, ?_, ?_, ?_⟩
  · intro _ _ here
    exact .inl here
  · intro _ here
    exact here
  · intro _ loose
    cases loose

theorem mono (left : Left tree contents medium) {more : List Bytes} (all : contents ⊆ more) :
    Left tree more medium := by
  refine ⟨left.root, ?_, left.directory, left.loose⟩
  intro content node here
  rcases left.origin content node here with first | ⟨found, member, body, same⟩
  · exact .inl first
  · exact .inr ⟨found, all member, body, same⟩

theorem advance (left : Left tree contents medium) {content : Bytes} (member : content ∈ contents)
    {stage : Stage} {result : Medium × Stage} (staged : Staged content medium stage)
    (rule : Advances content medium stage result) : Left tree contents result.1 := by
  refine ⟨rule.root.trans left.root, ?_, ?_, ?_⟩
  · intro other node here
    by_cases own : finalPath other = finalPath content
    · rw [own] at here
      rcases rule.final staged with same | ⟨-, -, whole⟩
      · apply left.origin other node
        rw [own]
        exact same.symm.trans here
      · obtain rfl := Option.some.inj (whole.symm.trans here)
        exact .inr ⟨content, member, rfl, (List.singleton_inj.mp own).symm⟩
    · apply left.origin other node
      exact (rule.elsewhere own (stagedPath_ne_finalPath content other).symm).symm.trans here
  · intro path here
    exact left.directory path (rule.directory staged here)
  · intro path loose
    rcases rule.unsynced staged loose with before | here
    · exact left.loose path before
    · exact ⟨content, here⟩

end Left

end CachingProxy.Disk
