import CachingProxy.Proofs.Disk.Office

/-!
# Nothing that is queued is lost

Every job that was sent is done, in the writer's hands or in the queue, in the order in which they
were sent; from this the counters, the order of the writes and what a flush waits for are read off.
The files of the writes that went well can be read at any later time.
-/

set_option autoImplicit false

namespace CachingProxy.Disk

variable {office next : Office} {depth : Nat}

/-! ## The counters -/

structure Counted (depth : Nat) (office : Office) : Prop where
  capacity : office.desk.archive.capacity = max depth 1
  room : office.desk.archive.waiting.length ≤ office.desk.archive.capacity
  written : office.desk.archive.counters.written = office.notes.countP Note.isWritten
  failed : office.desk.archive.counters.failed = office.notes.countP Note.isFailed
  dropped : office.desk.archive.counters.dropped = office.notes.countP Note.isDropped

theorem Counted.step (counted : Counted depth office) (step : Steps office next) :
    Counted depth next := by
  obtain ⟨capacity, room, written, failed, dropped⟩ := counted
  cases step with
  | rested => exact ⟨capacity, room, written, failed, dropped⟩
  | queued _ _ _ free | sent _ _ _ _ free =>
      refine ⟨capacity, ?_, ?_, ?_, ?_⟩
      · rw [List.length_append]
        exact free
      all_goals simpa [Note.isWritten, Note.isFailed, Note.isDropped]
  | dropped | began | returned =>
      refine ⟨capacity, room, ?_, ?_, ?_⟩
      all_goals simpa [Note.isWritten, Note.isFailed, Note.isDropped]
  | worked result rule =>
      cases rule with
      | took job rest free waiting =>
          refine ⟨capacity, ?_, ?_, ?_, ?_⟩
          · rw [waiting, List.length_cons] at room
            exact Nat.le_of_succ_le room
          all_goals simpa
      | processed route result =>
          cases result with
          | ok =>
              refine ⟨capacity, room, ?_, ?_, ?_⟩
              all_goals simpa [Archive.countWrite, Note.isWritten, Note.isFailed, Note.isDropped]
          | error =>
              refine ⟨capacity, room, ?_, ?_, ?_⟩
              all_goals simpa [Archive.countWrite, Note.isWritten, Note.isFailed, Note.isDropped]
      | rested | acknowledged | advanced =>
          refine ⟨capacity, room, ?_, ?_, ?_⟩
          all_goals simpa [Note.isWritten, Note.isFailed, Note.isDropped]

/-! ## The jobs -/

structure Orderly (office : Office) : Prop where
  fifo : office.notes.filterMap Note.sent? = office.notes.filterMap Note.done? ++
    (office.desk.archive.hand.toList ++ office.desk.archive.waiting)
  answered : ∀ ticket ∈ office.desk.archive.answered,
    Job.flush ticket ∈ office.notes.filterMap Note.done?
  /-- A ticket is given to one flush only. -/
  fresh : ∀ ticket, Job.flush ticket ∈ office.notes.filterMap Note.sent? → ticket < office.tickets
  sending : ∀ customer ∈ office.customers, ∀ ticket,
    customer.phase = .sending ticket → ticket < office.tickets
  inOrder : InOrder office.notes

theorem sending_set {customers : List Customer} {tickets : Nat}
    (sending : ∀ customer ∈ customers, ∀ ticket, customer.phase = .sending ticket →
      ticket < tickets) (index : Nat) (one : Customer)
    (fits : ∀ ticket, one.phase = .sending ticket → ticket < tickets) :
    ∀ customer ∈ customers.set index one, ∀ ticket, customer.phase = .sending ticket →
      ticket < tickets := by
  intro customer member
  rcases List.mem_or_eq_of_mem_set member with old | rfl
  · exact sending customer old
  · exact fits

theorem Orderly.step (orderly : Orderly office) (step : Steps office next) : Orderly next := by
  obtain ⟨fifo, answered, fresh, sending, inOrder⟩ := orderly
  cases step with
  | rested => exact ⟨fifo, answered, fresh, sending, inOrder⟩
  | queued index _ route | dropped index _ route =>
      refine ⟨?_, ?_, ?_, ?_, inOrder.concat trivial⟩
      · simp [List.filterMap_cons, Note.sent?, Note.done?, fifo]
      · simpa [List.filterMap_cons, Note.done?] using answered
      · simpa [List.filterMap_cons, Note.sent?] using fresh
      · exact sending_set sending index _ (by simp)
  | began index rest =>
      have later : ∀ customer ∈ office.customers, ∀ ticket, customer.phase = .sending ticket →
          ticket < office.tickets + 1 := fun customer member ticket waits =>
        Nat.lt_succ_of_lt (sending customer member ticket waits)
      refine ⟨?_, ?_, ?_, ?_, inOrder.concat ?_⟩
      · simp [List.filterMap_cons, Note.sent?, Note.done?, fifo]
      · simpa [List.filterMap_cons, Note.done?] using answered
      · intro ticket member
        rw [List.filterMap_append] at member
        apply Nat.lt_succ_of_lt
        exact fresh ticket (by simpa [List.filterMap_cons, Note.sent?] using member)
      · exact sending_set later index _ (by simp)
      · intro member
        exact absurd (fresh _ member) (Nat.lt_irrefl _)
  | sent index rest ticket present =>
      have drawn : ticket < office.tickets :=
        sending _ (List.mem_of_getElem? present) ticket rfl
      refine ⟨?_, ?_, ?_, ?_, inOrder.concat trivial⟩
      · simp [List.filterMap_cons, Note.sent?, Note.done?, fifo]
      · simpa [List.filterMap_cons, Note.done?] using answered
      · intro other member
        rw [List.filterMap_append] at member
        rcases List.mem_append.mp member with old | new
        · exact fresh other old
        · obtain rfl : other = ticket := by simpa [Note.sent?] using new
          exact drawn
      · exact sending_set sending index _ (by simp)
  | returned index rest ticket acknowledged =>
      refine ⟨?_, ?_, ?_, ?_, inOrder.concat ⟨answered ticket acknowledged, ?_⟩⟩
      · simp [List.filterMap_cons, Note.sent?, Note.done?, fifo]
      · simpa [List.filterMap_cons, Note.done?] using answered
      · simpa [List.filterMap_cons, Note.sent?] using fresh
      · exact sending_set sending index _ (by simp)
      · rw [fifo]
        exact List.prefix_append _ _
  | worked result rule =>
      cases rule with
      | took job rest free waiting =>
          simp only [Option.toList_none, List.append_nil]
          refine ⟨?_, answered, fresh, sending, inOrder⟩
          simpa [free, waiting] using fifo
      | rested | advanced =>
          simp only [Option.toList_none, List.append_nil]
          exact ⟨fifo, answered, fresh, sending, inOrder⟩
      | acknowledged ticket held =>
          refine ⟨?_, ?_, ?_, sending, inOrder.concat trivial⟩
          · simpa [List.filterMap_cons, Note.sent?, Note.done?, held] using fifo
          · intro other member
            simp only [Option.toList_some, List.filterMap_append]
            rcases List.mem_append.mp member with old | new
            · exact List.mem_append_left _ (answered other old)
            · obtain rfl := List.mem_singleton.mp new
              exact List.mem_append_right _ (by simp [Note.done?])
          · simpa [List.filterMap_cons, Note.sent?] using fresh
      | processed route result held =>
          have kept : (office.desk.archive.countWrite result).waiting =
                office.desk.archive.waiting ∧
              (office.desk.archive.countWrite result).hand = none ∧
              (office.desk.archive.countWrite result).answered =
                office.desk.archive.answered := by
            cases result <;> exact ⟨rfl, rfl, rfl⟩
          refine ⟨?_, ?_, ?_, sending, inOrder.concat trivial⟩
          · simpa [List.filterMap_cons, Note.sent?, Note.done?, kept, held] using fifo
          · intro other member
            simp only [Option.toList_some, List.filterMap_append]
            exact List.mem_append_left _ (answered other (kept.2.2 ▸ member))
          · simpa [List.filterMap_cons, Note.sent?] using fresh

/-! ## The files -/

def bodies (notes : List Note) : List Bytes := (notes.filterMap Note.queued?).map (·.content)

theorem bodies_append (notes more : List Note) : bodies notes ⊆ bodies (notes ++ more) := by
  rw [bodies, bodies, List.filterMap_append, List.map_append]
  exact List.subset_append_left _ _

structure Filed (tree : Tree) (office : Office) : Prop where
  left : Left tree (bodies office.notes) office.desk.medium
  staged : ∀ route, office.desk.archive.hand = some (.write route) →
    Staged route.content office.desk.medium office.desk.stage
  kept : ∀ route, .processed route (.ok ()) ∈ office.notes →
    Store.contains office.desk.archive.tree route.hash = true

theorem Orderly.mem_bodies (orderly : Orderly office) {route : Route}
    (held : office.desk.archive.hand = some (.write route)) :
    route.content ∈ bodies office.notes := by
  apply List.mem_map_of_mem
  rw [← Note.filterMap_sent, orderly.fifo, held, List.filterMap_append]
  exact List.mem_append_right _ (by simp [Job.route?])

theorem Filed.step {tree : Tree} (filed : Filed tree office) (orderly : Orderly office)
    (step : Steps office next) : Filed tree next := by
  obtain ⟨left, staged, kept⟩ := filed
  have grown : ∀ more, Left tree (bodies (office.notes ++ more)) office.desk.medium := fun more =>
    left.mono (bodies_append office.notes more)
  -- Only a write that is processed adds to those that went well.
  have keeps : ∀ note route, .processed route (.ok ()) ∈ office.notes ++ [note] →
      note ≠ .processed route (.ok ()) →
      Store.contains office.desk.archive.tree route.hash = true := by
    intro note route member other
    rcases List.mem_append.mp member with old | new
    · exact kept route old
    · exact absurd (List.mem_singleton.mp new).symm other
  cases step with
  | rested => exact ⟨left, staged, kept⟩
  | queued | dropped | began | sent | returned =>
      refine ⟨grown _, staged, ?_⟩
      intro route member
      exact keeps _ route member (by simp)
  | worked result rule =>
      cases rule with
      | took | rested =>
          refine ⟨grown _, ?_, ?_⟩
          · intro route _
            trivial
          · intro route member
            exact kept route (by simpa using member)
      | acknowledged ticket held =>
          refine ⟨grown _, ?_, ?_⟩
          · intro route write
            cases write
          · intro route member
            exact keeps _ route member (by simp)
      | processed route result held ended =>
          have same : (office.desk.archive.countWrite result).tree = office.desk.archive.tree ∧
              (office.desk.archive.countWrite result).hand = none := by
            cases result <;> exact ⟨rfl, rfl⟩
          have medium : Desk.medium { office.desk with
              archive := office.desk.archive.countWrite result, stage := .look } =
                office.desk.medium := by
            rw [Desk.medium, Desk.medium, same.1]
          refine ⟨?_, ?_, ?_⟩
          · rw [medium]
            exact grown _
          · intro other write
            cases same.2.symm.trans write
          · intro other member
            rw [same.1]
            by_cases own : Note.processed route result = .processed other (.ok ())
            · obtain ⟨rfl, rfl⟩ := Note.processed.inj own
              have done := staged route held
              rw [ended] at done
              exact done
            · exact keeps _ other member own
      | advanced route held after rule =>
          have begun := staged route held
          refine ⟨?_, ?_, ?_⟩
          · exact (grown _).advance (bodies_append _ _ (orderly.mem_bodies held)) begun rule
          · intro other write
            obtain rfl : route = other := Job.write.inj (Option.some.inj (held.symm.trans write))
            exact rule.staged begun
          · intro other member
            exact rule.contains begun (kept other (by simpa using member))

/-! ## Runs -/

structure Sorted (tree : Tree) (depth : Nat) (office : Office) : Prop where
  counted : Counted depth office
  orderly : Orderly office
  filed : Filed tree office

theorem Office.start_sorted (tree : Tree) (depth : Nat) (programs : List (List Errand)) :
    Sorted tree depth (Office.start tree depth programs) := by
  refine ⟨⟨rfl, Nat.zero_le _, rfl, rfl, rfl⟩, ⟨rfl, ?_, ?_, ?_, ?_⟩, ⟨.start tree, ?_, ?_⟩⟩
  · intro ticket answered
    cases answered
  · intro ticket member
    cases member
  · intro customer member ticket waits
    obtain ⟨errands, _, rfl⟩ := List.mem_map.mp member
    cases waits
  · intro before note after listed
    simp [Office.start] at listed
  · intro route held
    cases held
  · intro route member
    cases member

theorem Office.run_sorted (tree : Tree) (depth : Nat) (programs : List (List Errand))
    (moves : List Move) : Sorted tree depth ((Office.start tree depth programs).run moves) := by
  induction moves using List.reverseRecOn with
  | nil => exact Office.start_sorted tree depth programs
  | append_singleton moves move ih =>
      rw [Office.run_concat]
      have step := Office.step_steps ((Office.start tree depth programs).run moves) move
      exact ⟨ih.counted.step step, ih.orderly.step step, ih.filed.step ih.orderly step⟩

theorem Note.length_processed (notes : List Note) :
    (notes.filterMap Note.processed?).length =
      notes.countP Note.isWritten + notes.countP Note.isFailed := by
  induction notes with
  | nil => rfl
  | cons note rest ih =>
      rw [List.filterMap_cons, List.countP_cons, List.countP_cons]
      cases note with
      | processed route result =>
          cases result <;> simp [Note.processed?, Note.isWritten, Note.isFailed, ih] <;> omega
      | _ => simpa [Note.processed?, Note.isWritten, Note.isFailed] using ih

/-- The routes that were queued are those that were processed, in the same order, and behind them
those that are pending. -/
theorem Orderly.queued (orderly : Orderly office) :
    office.notes.filterMap Note.queued? =
      office.notes.filterMap Note.processed? ++ office.desk.archive.pending := by
  rw [← Note.filterMap_sent, orderly.fifo, List.filterMap_append, Note.filterMap_done]
  rfl

theorem Filed.read (filed : Filed .empty office) {route : Route}
    (written : .processed route (.ok ()) ∈ office.notes)
    (alone : ∀ other ∈ office.notes.filterMap Note.queued?, other.hash = route.hash →
      other.content = route.content) :
    Store.read office.desk.archive.tree route.hash = .ok route.content := by
  have named := isFileName_hexDigest route.content
  obtain ⟨found, read⟩ := named.contains_iff_read.mp (filed.kept route written)
  rcases filed.left.origin route.content _ (named.read_iff.mp read).2 with
    first | ⟨body, member, whole, same⟩
  · simp [Tree.empty, Keyed.get?, finalPath] at first
  · obtain ⟨other, queued, rfl⟩ := List.mem_map.mp member
    rw [Route.hash, read, Node.file.inj whole, alone other queued same]

/-- A route is dropped exactly when the queue is full. -/
theorem Counted.drops_iff (counted : Counted depth office) (route : Route) :
    (office.desk.archive.enqueue route).1 = .dropped ↔
      office.desk.archive.waiting.length = max depth 1 := by
  have room := counted.room
  rw [counted.capacity] at room
  rw [Archive.enqueue, counted.capacity]
  split
  · rename_i free
    simp only [reduceCtorEq, false_iff]
    omega
  · simp only [true_iff]
    omega

/-- However customers and writer take turns: every write that was queued is counted once, or is in
the writer's hands or in the queue; the drops are counted, and happen only when the queue is full;
the writes are processed in the order in which they were queued, those that were queued before a
flush before it returns; and what was written can be read. -/
theorem queued_writes_conserved (tree : Tree) (depth : Nat) (programs : List (List Errand))
    (moves : List Move) :
    let office := (Office.start tree depth programs).run moves
    let archive := office.desk.archive
    let queued := office.notes.filterMap Note.queued?
    queued.length =
      archive.counters.written + archive.counters.failed + archive.pending.length ∧
    archive.counters.dropped = office.notes.countP Note.isDropped ∧
    (∀ route, (archive.enqueue route).1 = .dropped ↔ archive.waiting.length = max depth 1) ∧
    queued = office.notes.filterMap Note.processed? ++ archive.pending ∧
    (∀ ticket before between after,
      office.notes = before ++ .began ticket :: (between ++ .returned ticket :: after) →
      before.filterMap Note.queued? <+:
        (before ++ .began ticket :: between).filterMap Note.processed?) ∧
    (tree = .empty → ∀ route, .processed route (.ok ()) ∈ office.notes →
      (∀ other ∈ queued, other.hash = route.hash → other.content = route.content) →
      Store.read archive.tree route.hash = .ok route.content) := by
  intro office archive queued
  obtain ⟨counted, orderly, filed⟩ := Office.run_sorted tree depth programs moves
  have order : queued = office.notes.filterMap Note.processed? ++ archive.pending := orderly.queued
  refine ⟨?_, counted.dropped, counted.drops_iff, order, ?_, ?_⟩
  · rw [order, List.length_append, Note.length_processed, ← counted.written, ← counted.failed]
  · intro ticket before between after listed
    exact orderly.inOrder.flushed listed
  · rintro rfl route written alone
    exact filed.read written alone

/-- A flush waits for room behind the write that it then waits for. -/
theorem flushed_route_read :
    let route : Route := ⟨"a", "/", [97], []⟩
    let moves : List Move :=
      [.customer 0, .customer 0, .customer 0, .writer (.works 1), .customer 0] ++
        List.replicate 8 (.writer (.works 1)) ++ [.customer 0]
    let office := (Office.start .empty 0 [[.enqueue route, .flush]]).run moves
    office.notes = [.queued route, .began 0, .sent 0, .processed route (.ok ()), .acknowledged 0,
        .returned 0] ∧
      [route] <+: [.queued route, .began 0, .sent 0, .processed route (.ok ()),
        .acknowledged 0].filterMap Note.processed? ∧
      Store.read office.desk.archive.tree route.hash = .ok [97] := by
  -- The run is computed only once.
  obtain ⟨run, is⟩ : ∃ run : List Move,
      [.customer 0, .customer 0, .customer 0, .writer (.works 1), .customer 0] ++
        List.replicate 8 (.writer (.works 1)) ++ [.customer 0] = run := ⟨_, rfl⟩
  rw [is]
  intro route moves office
  have noted : office.notes = [.queued route, .began 0, .sent 0, .processed route (.ok ()),
      .acknowledged 0, .returned 0] := by
    subst is
    decide +kernel
  obtain ⟨-, -, -, -, flushed, read⟩ :=
    queued_writes_conserved .empty 0 [[.enqueue route, .flush]] moves
  refine ⟨noted, ?_, ?_⟩
  · exact flushed 0 [.queued route] [.sent 0, .processed route (.ok ()), .acknowledged 0] [] noted
  · apply read rfl route
    · change Note.processed route (.ok ()) ∈ office.notes
      rw [noted]
      simp
    · intro other queued _
      change other ∈ office.notes.filterMap Note.queued? at queued
      rw [noted] at queued
      rw [List.mem_singleton.mp queued]

end CachingProxy.Disk
