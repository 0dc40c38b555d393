import CachingProxy.Proofs.Disk.Desk
import CachingProxy.Proofs.Histories

/-!
# Callers of one queue

Any number of callers hand routes to one writer and wait for it.  A flush has steps of its own: its
job waits for room in the queue, and the caller waits until the writer has reached it, while others
may have any number of turns.  What happened is noted in order, and the order of the notes tells
what is processed when a flush returns (`InOrder.flushed`).
-/

set_option autoImplicit false

namespace CachingProxy.Disk

inductive Errand where
  | enqueue (route : Route)
  | flush

inductive Phase where
  | idle
  /-- A flush waits for room in the queue. -/
  | sending (ticket : Nat)
  | awaiting (ticket : Nat)

structure Customer where
  errands : List Errand
  phase : Phase := .idle

structure Office where
  desk : Desk
  customers : List Customer
  tickets : Nat := 0
  notes : List Note := []

inductive Move where
  | customer (index : Nat)
  | writer (luck : Luck)

namespace Office

def start (tree : Tree) (depth : Nat) (programs : List (List Errand)) : Office where
  desk := { archive := .ofDepth tree depth }
  customers := programs.map fun errands => { errands }

def turn (office : Office) (index : Nat) : Office :=
  let archive := office.desk.archive
  match office.customers[index]? with
  | none | some ⟨[], .idle⟩ => office
  | some ⟨.enqueue route :: rest, .idle⟩ =>
      let (persistence, archive) := archive.enqueue route
      { office with
        desk := { office.desk with archive }
        customers := office.customers.set index ⟨rest, .idle⟩
        notes := office.notes ++
          [if persistence = .queued then .queued route else .dropped route] }
  | some ⟨.flush :: rest, .idle⟩ =>
      { office with
        customers := office.customers.set index ⟨rest, .sending office.tickets⟩
        tickets := office.tickets + 1
        notes := office.notes ++ [.began office.tickets] }
  | some ⟨rest, .sending ticket⟩ =>
      if archive.waiting.length < archive.capacity then
        { office with
          desk := { office.desk with archive := archive.requestFlush ticket }
          customers := office.customers.set index ⟨rest, .awaiting ticket⟩
          notes := office.notes ++ [.sent ticket] }
      else office
  | some ⟨rest, .awaiting ticket⟩ =>
      if ticket ∈ archive.answered then
        { office with
          customers := office.customers.set index ⟨rest, .idle⟩
          notes := office.notes ++ [.returned ticket] }
      else office

def step (office : Office) : Move → Office
  | .customer index => office.turn index
  | .writer luck =>
      { office with
        desk := (office.desk.work luck).1
        notes := office.notes ++ (office.desk.work luck).2.toList }

def run (office : Office) (moves : List Move) : Office := moves.foldl step office

theorem run_concat (office : Office) (moves : List Move) (move : Move) :
    office.run (moves ++ [move]) = (office.run moves).step move := by
  rw [run, List.foldl_append]
  rfl

end Office

/-! ## What the notes tell -/

namespace Note

def sent? : Note → Option Job
  | .queued route => some (.write route)
  | .sent ticket => some (.flush ticket)
  | _ => none

def done? : Note → Option Job
  | .processed route _ => some (.write route)
  | .acknowledged ticket => some (.flush ticket)
  | _ => none

def queued? : Note → Option Route
  | .queued route => some route
  | _ => none

def processed? : Note → Option Route
  | .processed route _ => some route
  | _ => none

def isDropped : Note → Bool
  | .dropped _ => true
  | _ => false

def isWritten : Note → Bool
  | .processed _ (.ok _) => true
  | _ => false

def isFailed : Note → Bool
  | .processed _ (.error _) => true
  | _ => false

end Note

def Job.route? : Job → Option Route
  | .write route => some route
  | .flush _ => none

/-- The writes that are not processed: in the writer's hands or in the queue. -/
def Archive.pending (archive : Archive) : List Route :=
  (archive.hand.toList ++ archive.waiting).filterMap Job.route?

theorem Note.filterMap_sent (notes : List Note) :
    (notes.filterMap Note.sent?).filterMap Job.route? = notes.filterMap Note.queued? := by
  rw [List.filterMap_filterMap]
  congr 1
  funext note
  cases note <;> rfl

theorem Note.filterMap_done (notes : List Note) :
    (notes.filterMap Note.done?).filterMap Job.route? = notes.filterMap Note.processed? := by
  rw [List.filterMap_filterMap]
  congr 1
  funext note
  cases note <;> rfl

/-- What may stand behind the notes `before`: a flush has a ticket that no job has, and returns when
the writer is done with its job, and so with every job that was sent earlier. -/
def Note.mayFollow (before : List Note) : Note → Prop
  | .began ticket => Job.flush ticket ∉ before.filterMap Note.sent?
  | .returned ticket => Job.flush ticket ∈ before.filterMap Note.done? ∧
      before.filterMap Note.done? <+: before.filterMap Note.sent?
  | _ => True

def InOrder (notes : List Note) : Prop :=
  ∀ before note after, notes = before ++ note :: after → Note.mayFollow before note

theorem InOrder.concat {notes : List Note} (inOrder : InOrder notes) {note : Note}
    (fits : Note.mayFollow notes note) : InOrder (notes ++ [note]) := by
  exact forall_split_concat inOrder fits

theorem InOrder.flushed {notes : List Note} (inOrder : InOrder notes) {ticket : Nat}
    {before between after : List Note}
    (listed : notes = before ++ .began ticket :: (between ++ .returned ticket :: after)) :
    before.filterMap Note.queued? <+:
      (before ++ .began ticket :: between).filterMap Note.processed? := by
  have unsent : Job.flush ticket ∉ before.filterMap Note.sent? := inOrder _ _ _ listed
  obtain ⟨done, sent⟩ : Note.mayFollow (before ++ .began ticket :: between) (.returned ticket) := by
    apply inOrder _ _ after
    rw [listed, List.append_assoc, List.cons_append]
  have earlier : before.filterMap Note.sent? <+:
      (before ++ .began ticket :: between).filterMap Note.sent? := by
    rw [List.filterMap_append]
    exact List.prefix_append _ _
  rcases List.prefix_or_prefix_of_prefix sent earlier with short | long
  · exact absurd (short.subset done) unsent
  · rw [← Note.filterMap_sent, ← Note.filterMap_done]
    exact long.filterMap Job.route?

/-! ## What a step does -/

/-- The steps of an office. -/
inductive Steps (office : Office) : Office → Prop where
  | rested : Steps office office
  | queued (index : Nat) (rest : List Errand) (route : Route)
      (room : office.desk.archive.waiting.length < office.desk.archive.capacity) :
      Steps office { office with
        desk := { office.desk with archive := { office.desk.archive with
          waiting := office.desk.archive.waiting ++ [.write route] } }
        customers := office.customers.set index ⟨rest, .idle⟩
        notes := office.notes ++ [.queued route] }
  | dropped (index : Nat) (rest : List Errand) (route : Route)
      (full : ¬ office.desk.archive.waiting.length < office.desk.archive.capacity) :
      Steps office { office with
        desk := { office.desk with archive := { office.desk.archive with
          counters := { office.desk.archive.counters with
            dropped := office.desk.archive.counters.dropped + 1 } } }
        customers := office.customers.set index ⟨rest, .idle⟩
        notes := office.notes ++ [.dropped route] }
  | began (index : Nat) (rest : List Errand) :
      Steps office { office with
        customers := office.customers.set index ⟨rest, .sending office.tickets⟩
        tickets := office.tickets + 1
        notes := office.notes ++ [.began office.tickets] }
  | sent (index : Nat) (rest : List Errand) (ticket : Nat)
      (present : office.customers[index]? = some ⟨rest, .sending ticket⟩)
      (room : office.desk.archive.waiting.length < office.desk.archive.capacity) :
      Steps office { office with
        desk := { office.desk with archive := { office.desk.archive with
          waiting := office.desk.archive.waiting ++ [.flush ticket] } }
        customers := office.customers.set index ⟨rest, .awaiting ticket⟩
        notes := office.notes ++ [.sent ticket] }
  | returned (index : Nat) (rest : List Errand) (ticket : Nat)
      (answered : ticket ∈ office.desk.archive.answered) :
      Steps office { office with
        customers := office.customers.set index ⟨rest, .idle⟩
        notes := office.notes ++ [.returned ticket] }
  | worked (result : Desk × Option Note) (rule : Desk.Works office.desk result) :
      Steps office { office with
        desk := result.1
        notes := office.notes ++ result.2.toList }

theorem Office.step_steps (office : Office) (move : Move) : Steps office (office.step move) := by
  cases move with
  | writer luck => exact .worked _ (office.desk.work_works luck)
  | customer index =>
      rw [step, turn]
      split
      · exact .rested
      · exact .rested
      · rename_i route rest present
        rw [Archive.enqueue]
        by_cases room : office.desk.archive.waiting.length < office.desk.archive.capacity
        · rw [if_pos room]
          exact .queued index rest route room
        · rw [if_neg room]
          exact .dropped index rest route room
      · rename_i rest present
        exact .began index rest
      · rename_i rest ticket present
        by_cases room : office.desk.archive.waiting.length < office.desk.archive.capacity
        · rw [if_pos room, Archive.requestFlush, if_pos room]
          exact .sent index rest ticket present room
        · rw [if_neg room]
          exact .rested
      · rename_i rest ticket present
        by_cases answered : ticket ∈ office.desk.archive.answered
        · rw [if_pos answered]
          exact .returned index rest ticket answered
        · rw [if_neg answered]
          exact .rested

end CachingProxy.Disk
