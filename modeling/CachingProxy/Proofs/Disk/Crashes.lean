import CachingProxy.Proofs.Disk.Writing

/-!
# Writes that are cut off

The files outlive the program that writes them.  An attempt is a write that came to some call of
its own before it returned or the program was gone; behind it the power may be lost as well, and
with it the octets of every file that was not safe.  Whatever attempts came before, a name of a body
stands for nothing or for a body with that digest, and what they left of staged files is in nobody's
way (`write_succeeds_after`).
-/

set_option autoImplicit false

namespace CachingProxy.Disk

/-- A write that was made or cut off; when the power was lost then, what it left in the files that
were not safe. -/
structure Attempt where
  content : Bytes
  lucks : List Luck
  wreck : Option (Path → Option Bytes) := none

namespace Medium

/-- Without power a file that is not safe is left with any octets, or is gone. -/
def lose (medium : Medium) (left : Path → Option Bytes) : Medium where
  tree := medium.tree.filterMap fun entry =>
    if entry.1 ∈ medium.unsynced then (left entry.1).map fun octets => (entry.1, .file octets)
    else some entry

def attempt (medium : Medium) (attempt : Attempt) : Medium :=
  let now := medium.write (Sha256.hexDigest attempt.content) attempt.content attempt.lucks
  match attempt.wreck with
  | none => now.1
  | some left => now.1.lose left

def after (medium : Medium) (attempts : List Attempt) : Medium :=
  attempts.foldl Medium.attempt medium

theorem get?_lose (medium : Medium) (left : Path → Option Bytes) (path : Path) :
    Keyed.get? (medium.lose left).tree path =
      if path ∈ medium.unsynced then
        (Keyed.get? medium.tree path).bind fun _ => (left path).map .file
      else Keyed.get? medium.tree path := by
  obtain ⟨tree, unsynced⟩ := medium
  simp only [lose]
  induction tree with
  | nil => simp [Keyed.get?]
  | cons entry rest ih =>
      rw [List.filterMap_cons, Keyed.get?_cons]
      by_cases here : entry.1 = path
      · subst here
        by_cases loose : entry.1 ∈ unsynced
        · cases kept : left entry.1 with
          | none => simpa [loose, kept] using ih
          | some octets => simp [loose, Keyed.get?_cons]
        · simp [loose, Keyed.get?_cons]
      · by_cases loose : entry.1 ∈ unsynced
        · cases kept : left entry.1 with
          | none => simpa [loose, kept, here] using ih
          | some octets => simpa [loose, kept, Keyed.get?_cons, here] using ih
        · simpa [loose, Keyed.get?_cons, here] using ih

end Medium

/-! ## At any moment of a write -/

theorem Advances.of_returned {content : Bytes} {medium : Medium} {result : Except SystemError Unit}
    {next : Medium × Stage} (rule : Advances content medium (.returned result) next) :
    next = (medium, .returned result) := by
  cases rule with
  | failed _ unended => exact absurd rfl (unended result)
  | rested => rfl

/-- What a write has done, whichever of its calls was the last. -/
structure Underway (content : Bytes) (before : Medium) (now : Medium × Stage) : Prop where
  elsewhere : ∀ path, path ≠ finalPath content → path ≠ stagedPath content →
    Keyed.get? now.1.tree path = Keyed.get? before.tree path
  final : Keyed.get? now.1.tree (finalPath content) = Keyed.get? before.tree (finalPath content) ∨
    now.2 = .returned (.ok ()) ∧
      Keyed.get? now.1.tree (finalPath content) = some (.file content)
  staged : Staged content now.1 now.2
  alone : Alone content before .look → Alone content now.1 now.2

theorem Underway.next {content : Bytes} {before : Medium} {now next : Medium × Stage}
    (known : Underway content before now) (rule : Advances content now.1 now.2 next) :
    Underway content before next := by
  refine ⟨?_, ?_, rule.staged known.staged, ?_⟩
  · intro path notFinal notStaged
    exact (rule.elsewhere notFinal notStaged).trans (known.elsewhere path notFinal notStaged)
  · rcases known.final with untouched | ⟨ended, whole⟩
    · rcases rule.final known.staged with same | ⟨-, ended, whole⟩
      · exact .inl (same.trans untouched)
      · exact .inr ⟨ended, whole⟩
    · rw [ended] at rule
      rw [rule.of_returned]
      exact .inr ⟨rfl, whole⟩
  · intro first
    exact rule.alone known.staged (known.alone first)

theorem Medium.write_underway (before : Medium) (content : Bytes) (lucks : List Luck) :
    Underway content before (before.write (Sha256.hexDigest content) content lucks) := by
  induction lucks using List.reverseRecOn with
  | nil =>
      rw [Medium.write_nil]
      refine ⟨?_, ?_, trivial, ?_⟩
      · intro _ _ _
        rfl
      · exact Or.inl rfl
      · intro first
        exact first
  | append_singleton lucks luck ih =>
      rw [Medium.write_concat]
      exact ih.next (advance_advances _ _ _ _)

/-! ## After any attempts -/

theorem Alone.look {content : Bytes} {medium : Medium} {stage : Stage}
    (alone : Alone content medium stage) : Alone content medium .look := by
  intro present
  cases stage with
  | look => exact alone present
  | returned result =>
      cases result with
      | ok => exact alone
      | error => exact absurd present (by simp [show _ = false from alone])
  | create | append | sync | rename | clear =>
      exact absurd present (by simp [show _ = false from alone])

namespace Left

variable {tree : Tree} {contents : List Bytes} {medium : Medium}

theorem write (left : Left tree contents medium) (content : Bytes) (lucks : List Luck) :
    Left tree (contents ++ [content])
      (medium.write (Sha256.hexDigest content) content lucks).1 := by
  induction lucks using List.reverseRecOn with
  | nil =>
      rw [Medium.write_nil]
      exact left.mono (List.subset_append_left _ _)
  | append_singleton lucks luck ih =>
      rw [Medium.write_concat]
      exact ih.advance (by simp) (medium.write_underway content lucks).staged
        (advance_advances _ _ _ _)

theorem get?_lose (left : Left tree contents medium) (wreck : Path → Option Bytes) {path : Path}
    (named : ∀ content, path ≠ stagedPath content) :
    Keyed.get? (medium.lose wreck).tree path = Keyed.get? medium.tree path := by
  rw [Medium.get?_lose, if_neg]
  intro loose
  obtain ⟨content, here⟩ := left.loose path loose
  exact named content here

theorem lose (left : Left tree contents medium) (wreck : Path → Option Bytes) :
    Left tree contents (medium.lose wreck) := by
  refine ⟨?_, ?_, ?_, ?_⟩
  · exact (left.get?_lose wreck (by simp [stagedPath])).trans left.root
  · intro content node here
    apply left.origin content node
    rw [← here, left.get?_lose wreck fun other => (stagedPath_ne_finalPath other content).symm]
  · intro path here
    rw [Medium.get?_lose] at here
    split at here
    · cases held : Keyed.get? medium.tree path <;> cases kept : wreck path <;>
        simp [held, kept] at here
    · exact left.directory path here
  · intro path loose
    cases loose

theorem attempt (left : Left tree contents medium) (attempt : Attempt) :
    Left tree (contents ++ [attempt.content]) (medium.attempt attempt) := by
  rw [Medium.attempt]
  cases attempt.wreck with
  | none => exact left.write attempt.content attempt.lucks
  | some wreck => exact (left.write attempt.content attempt.lucks).lose wreck

end Left

theorem Medium.after_concat (medium : Medium) (attempts : List Attempt) (attempt : Attempt) :
    medium.after (attempts ++ [attempt]) = (medium.after attempts).attempt attempt := by
  rw [after, List.foldl_append]
  rfl

theorem Left.after (tree : Tree) (attempts : List Attempt) :
    Left tree (attempts.map (·.content)) (Medium.after { tree } attempts) := by
  induction attempts using List.reverseRecOn with
  | nil => exact .start tree
  | append_singleton attempts attempt ih =>
      rw [Medium.after_concat, List.map_append]
      exact ih.attempt attempt

/-! ### No staged file beside a finished one -/

theorem Alone.congr {one other : Bytes}
    (same : Sha256.hexDigest one = Sha256.hexDigest other) {medium : Medium} {stage : Stage}
    (alone : Alone one medium stage) : Alone other medium stage := by
  simpa only [Alone, stagedPath, same] using alone

/-- A write leaves the names of other bodies, and it does not end beside its own file. -/
theorem Alone.write {other : Bytes} {medium : Medium} (alone : Alone other medium .look)
    (content : Bytes) (lucks : List Luck) :
    Alone other (medium.write (Sha256.hexDigest content) content lucks).1 .look := by
  have known := medium.write_underway content lucks
  by_cases own : Sha256.hexDigest other = Sha256.hexDigest content
  · exact (known.alone (alone.congr own)).look.congr own.symm
  · have notFinal : finalPath other ≠ finalPath content := by
      intro same
      exact own (List.singleton_inj.mp same)
    have notStaged : stagedPath other ≠ stagedPath content := by
      intro same
      exact own (stagingName_injective (List.singleton_inj.mp same))
    intro present
    rw [known.elsewhere _ (stagedPath_ne_finalPath other content) notStaged]
    apply alone
    rw [← present]
    exact (contains_congr (known.elsewhere [] (by simp [finalPath]) (by simp [stagedPath]))
      (known.elsewhere _ notFinal (stagedPath_ne_finalPath content other).symm)).symm

theorem Alone.lose {tree : Tree} {contents : List Bytes} {medium : Medium} {content : Bytes}
    (alone : Alone content medium .look) (left : Left tree contents medium)
    (wreck : Path → Option Bytes) : Alone content (medium.lose wreck) .look := by
  intro present
  rw [contains_congr (left.get?_lose wreck (by simp [stagedPath]))
    (left.get?_lose wreck fun other => (stagedPath_ne_finalPath other content).symm)] at present
  rw [Medium.get?_lose, alone present]
  simp

theorem Alone.after {tree : Tree} {content : Bytes} (alone : Alone content { tree } .look)
    (attempts : List Attempt) : Alone content (Medium.after { tree } attempts) .look := by
  induction attempts using List.reverseRecOn with
  | nil => exact alone
  | append_singleton attempts attempt ih =>
      rw [Medium.after_concat, Medium.attempt]
      have written := ih.write attempt.content attempt.lucks
      cases attempt.wreck with
      | none => exact written
      | some wreck =>
          exact written.lose ((Left.after tree attempts).write attempt.content attempt.lucks) wreck

/-- Nothing that attempts left behind can stop a later write that is left alone. -/
theorem write_succeeds_after (tree : Tree) (root : Keyed.get? tree [] = some .directory)
    (attempts : List Attempt) (content : Bytes)
    (final : Keyed.get? tree (finalPath content) ≠ some .directory)
    (staged : Keyed.get? tree (stagedPath content) ≠ some .directory) :
    (Store.write (Medium.after { tree } attempts).tree (Sha256.hexDigest content) content).1 =
      .ok () := by
  have left := Left.after tree attempts
  apply write_succeeds
  · exact left.root.trans root
  · intro here
    exact final (left.directory _ here)
  · intro here
    exact staged (left.directory _ here)

/-! ## The files of a directory -/

variable {tree : Tree} {contents : List Bytes} {medium : Medium}

/-- Every file that is named by a digest has a body with that digest. -/
def Sound (tree : Tree) : Prop :=
  ∀ content found, Keyed.get? tree (finalPath content) = some (.file found) →
    Sha256.hexDigest found = Sha256.hexDigest content

theorem Left.whole (left : Left tree contents medium) (sound : Sound tree) {content : Bytes}
    {node : Node} (here : Keyed.get? medium.tree (finalPath content) = some node) :
    (∃ found, node = .file found ∧ Sha256.hexDigest found = Sha256.hexDigest content) ∨
      node = .directory ∧ Keyed.get? tree (finalPath content) = some .directory := by
  rcases left.origin content node here with first | ⟨found, -, body, same⟩
  · cases node with
    | file found => exact .inl ⟨found, rfl, sound content found first⟩
    | directory => exact .inr ⟨rfl, first⟩
  · exact .inl ⟨found, body, same⟩

theorem Left.read (left : Left tree contents medium) (sound : Sound tree) {content : Bytes}
    (held : Store.contains medium.tree (Sha256.hexDigest content) = true)
    (distinct : ∀ found, Sha256.hexDigest found = Sha256.hexDigest content →
      found ∈ contents ∨ Keyed.get? tree (finalPath content) = some (.file found) →
      found = content) :
    Store.read medium.tree (Sha256.hexDigest content) = .ok content := by
  have named := isFileName_hexDigest content
  obtain ⟨found, read⟩ := named.contains_iff_read.mp held
  suffices found = content by rw [read, this]
  rcases left.origin content _ (named.read_iff.mp read).2 with first | ⟨body, member, whole, same⟩
  · exact distinct found (sound content found first) (.inr first)
  · obtain rfl := Node.file.inj whole
    exact distinct found same (.inl member)

theorem Underway.unchanged {content : Bytes} {before : Medium} {now : Medium × Stage}
    (known : Underway content before now) {cause : SystemError}
    (failed : now.2 = .returned (.error cause)) (other : Bytes) :
    Keyed.get? now.1.tree (finalPath other) = Keyed.get? before.tree (finalPath other) := by
  by_cases own : finalPath other = finalPath content
  · rw [own]
    rcases known.final with untouched | ⟨ended, -⟩
    · exact untouched
    · cases failed.symm.trans ended
  · exact known.elsewhere _ own (stagedPath_ne_finalPath content other).symm

/-- After any attempts in a sound directory, and at any moment of the next write: the names of
bodies stand for nothing, for a body with that digest, or for a directory that was there at first;
a write that has returned without an error can be read; one that has failed has changed no such
name; and no write reaches for another file. -/
theorem finished_files_whole (tree : Tree) (sound : Sound tree) (earlier : List Attempt)
    (content : Bytes) (lucks : List Luck) :
    let before := Medium.after { tree } earlier
    let now := before.write (Sha256.hexDigest content) content lucks
    (∀ other node, Keyed.get? now.1.tree (finalPath other) = some node →
      (∃ found, node = .file found ∧ Sha256.hexDigest found = Sha256.hexDigest other) ∨
        node = .directory ∧ Keyed.get? tree (finalPath other) = some .directory) ∧
    (now.2 = .returned (.ok ()) →
      Store.contains now.1.tree (Sha256.hexDigest content) = true ∧
      ((∀ found, Sha256.hexDigest found = Sha256.hexDigest content →
          found ∈ earlier.map (·.content) ∨
            Keyed.get? tree (finalPath content) = some (.file found) → found = content) →
        Store.read now.1.tree (Sha256.hexDigest content) = .ok content) ∧
      ((Store.contains tree (Sha256.hexDigest content) = true →
          Keyed.get? tree (stagedPath content) = none) →
        Keyed.get? now.1.tree (stagedPath content) = none)) ∧
    (∀ cause, now.2 = .returned (.error cause) → ∀ other,
      Keyed.get? now.1.tree (finalPath other) = Keyed.get? before.tree (finalPath other)) ∧
    (∀ path, path ≠ finalPath content → path ≠ stagedPath content →
      Keyed.get? now.1.tree path = Keyed.get? before.tree path) ∧
    (lucks = List.replicate 6 (.works content.length) →
      now.1.tree = (Store.write before.tree (Sha256.hexDigest content) content).2 ∧
      now.2 = .returned (Store.write before.tree (Sha256.hexDigest content) content).1) := by
  intro before now
  have known : Underway content before now := before.write_underway content lucks
  have left : Left tree (earlier.map (·.content) ++ [content]) now.1 :=
    (Left.after tree earlier).write content lucks
  refine ⟨?_, ?_, ?_, known.elsewhere, ?_⟩
  · intro other node here
    exact left.whole sound here
  · intro returned
    have held : Store.contains now.1.tree (Sha256.hexDigest content) = true := by
      have staged := known.staged
      rw [returned] at staged
      exact staged
    refine ⟨held, ?_, ?_⟩
    · intro distinct
      apply left.read sound held
      rintro found same (member | first)
      · rcases List.mem_append.mp member with old | new
        · exact distinct found same (.inl old)
        · exact List.mem_singleton.mp new
      · exact distinct found same (.inr first)
    · intro first
      have alone := known.alone (Alone.after first earlier)
      rw [returned] at alone
      exact alone
  · intro cause failed other
    exact known.unchanged failed other
  · rintro rfl
    exact before.write_undisturbed _ content

theorem sound_empty : Sound .empty := by
  intro content found here
  simp [Tree.empty, Keyed.get?, finalPath] at here

/-- A write is made once more after the power was lost in the middle of it, and then another one
fails. -/
theorem written_again_after_crash :
    let content : Bytes := [97, 98, 99]
    let cut : Attempt :=
      { content, lucks := [.works 0, .works 0, .works 1], wreck := some fun _ => some [0] }
    let before := Medium.after { tree := .empty } [cut]
    let again := before.write (Sha256.hexDigest content) content
      (List.replicate 6 (.works content.length))
    let failed := Medium.write { tree := .empty } (Sha256.hexDigest content) content
      [.works 0, .fails (.other "no space")]
    Sound .empty ∧ again.2 = .returned (.ok ()) ∧
      Store.read again.1.tree (Sha256.hexDigest content) = .ok content ∧
      Keyed.get? again.1.tree (stagedPath content) = none ∧
      failed.2 = .returned (.error (.other "no space")) ∧
      Keyed.get? failed.1.tree (finalPath content) = none := by
  -- The digest of the body is not to be computed.
  obtain ⟨body, is⟩ : ∃ body : Bytes, [97, 98, 99] = body := ⟨_, rfl⟩
  rw [is]
  intro content cut before again failed
  have missing : ∀ content, Store.contains .empty (Sha256.hexDigest content) = false := by
    intro content
    rw [← Bool.not_eq_true, (isFileName_hexDigest content).contains_iff]
    simp [Tree.empty, Keyed.get?]
  have nothing : ∀ content node, Keyed.get? Tree.empty (finalPath content) ≠ some node := by
    simp [Tree.empty, Keyed.get?, finalPath]
  obtain ⟨-, whole, -, -, undisturbed⟩ := finished_files_whole .empty sound_empty [cut] content
    (List.replicate 6 (.works content.length))
  have returned : again.2 = .returned (.ok ()) := by
    rw [(undisturbed rfl).2, write_succeeds_after .empty rfl [cut] content (nothing _ _)
      (by simp [Tree.empty, Keyed.get?, stagedPath])]
  obtain ⟨-, read, unstaged⟩ := whole returned
  obtain ⟨-, -, unchanged, -, -⟩ := finished_files_whole .empty sound_empty [] content
    [.works 0, .fails (.other "no space")]
  have refused : failed.2 = .returned (.error (.other "no space")) := by
    simp only [failed, Medium.write, Medium.proceed, Medium.advance, missing, Bool.false_eq_true,
      if_false]
  refine ⟨sound_empty, returned, read ?_, unstaged ?_, refused, ?_⟩
  · intro found _ member
    rcases member with member | here
    · exact List.mem_singleton.mp member
    · exact absurd here (nothing _ _)
  · intro present
    exact absurd present (by simp [missing])
  · apply (unchanged _ refused content).trans
    exact Option.eq_none_iff_forall_ne_some.mpr (nothing content)

/-- A write that finds its file leaves everything as it is, also a staged file beside it.  A name
of a body can stand for a directory, and stays one. -/
theorem staged_file_stays_beside_finished :
    let content : Bytes := [97, 98, 99]
    let tree : Tree :=
      [([], .directory), (finalPath content, .file content), (stagedPath content, .file [120])]
    let now := Medium.write { tree } (Sha256.hexDigest content) content
      (List.replicate 6 (.works content.length))
    let taken : Tree := [([], .directory), (finalPath content, .directory)]
    Sound tree ∧ now.2 = .returned (.ok ()) ∧
      Keyed.get? now.1.tree (stagedPath content) = some (.file [120]) ∧
      Store.write tree (Sha256.hexDigest content) content = (.ok (), tree) ∧
      Sound taken ∧ Keyed.get? taken (finalPath content) = some .directory := by
  obtain ⟨body, is⟩ : ∃ body : Bytes, [97, 98, 99] = body := ⟨_, rfl⟩
  rw [is]
  intro content tree now taken
  have apart : (finalPath content == stagedPath content) = false :=
    beq_false_of_ne (stagedPath_ne_finalPath content content).symm
  have present : Store.contains tree (Sha256.hexDigest content) = true := by
    rw [(isFileName_hexDigest content).contains_iff]
    exact ⟨rfl, content, by simp [tree, Keyed.get?_cons, finalPath]⟩
  have written : Store.write tree (Sha256.hexDigest content) content = (.ok (), tree) := by
    rw [Store.write, if_pos present]
  have undisturbed := Medium.write_undisturbed { tree } (Sha256.hexDigest content) content
  rw [written] at undisturbed
  refine ⟨?_, undisturbed.2, ?_, written, ?_, ?_⟩
  · intro other found here
    by_cases own : finalPath content = finalPath other
    · rw [← own, Keyed.get?_cons, Keyed.get?_cons] at here
      obtain rfl : content = found := by simpa [finalPath] using here
      exact List.singleton_inj.mp own
    · have staged := stagedPath_ne_finalPath content other
      simp [tree, Keyed.get?_cons, own, staged] at here
      simp [finalPath, Keyed.get?] at here
  · rw [show now.1.tree = tree from undisturbed.1, Keyed.get?_cons, Keyed.get?_cons,
      Keyed.get?_cons, apart]
    simp [stagedPath]
  · intro other found here
    by_cases own : finalPath content = finalPath other
    · rw [← own] at here
      simp [taken, Keyed.get?_cons, finalPath] at here
    · simp [taken, Keyed.get?_cons, own] at here
      simp [finalPath, Keyed.get?] at here
  · simp [taken, Keyed.get?_cons, finalPath]

end CachingProxy.Disk
