import CachingProxy.Proofs.Session.Holders

/-!
# The order of the states

A session goes from its request over the connection and the answer to its end, and the states on the
way have a rank.  No event takes a session back but one: the head of an answer that still comes when
the client has aborted it and the answer has not ended (`LateHead`).
-/

set_option autoImplicit false

namespace CachingProxy.Session

/-- How far a session has come.  States of one rank exclude each other or follow in any order. -/
def State.rank : State → Nat
  | .new => 0
  | .cacheCheck => 1
  | .cacheHitRespond | .connecting => 2
  | .connected => 3
  | .streaming => 4
  | .originComplete | .originError | .clientAborted => 5
  | .terminal => 6

theorem State.rank_le_terminal (state : State) : state.rank ≤ State.terminal.rank := by
  cases state <;> decide

theorem State.rank_le_of_going {state : State} (going : state ≠ .terminal) : state.rank ≤ 5 := by
  cases state with
  | terminal => exact absurd rfl going
  | _ => decide

structure LateHead (session : Session) (event : Event) : Prop where
  aborted : session.state = .clientAborted
  isOpen : session.originOpen = true
  head : event.isOriginHeaders = true

/-! ## Where the answer is under way -/

def Staged (session : Session) : Prop :=
  session.originOpen = true → session.state = .connected ∨ session.state = .streaming ∨
    session.state = .clientAborted

section

variable {cache : ContentCache} {session : Session} {event : Event}
  {result : Session × List Action}

theorem Moves.staged (rule : Moves cache session event result)
    (alive : session.released = false) (accounted : Accounted session)
    (staged : Staged session) : Staged result.1 := by
  intro isOpen
  have attached := (originOpen_iff _).mp isOpen
  cases rule with
  | connected => exact .inl rfl
  | headersKept | headersUnseen | headersSent => exact .inr (.inl rfl)
  | left => exact .inr (.inr rfl)
  | hit start | unserved start | asked start =>
      exact absurd attached.1 (accounted.not_attached (.inl start))
  | unconnected waiting =>
      exact absurd attached.1 (accounted.not_attached (.inr waiting))
  | unconnectedAlone waiting gone =>
      exact absurd gone (accounted.present_of_waiting alive waiting)
  | completedLast _ detached | leftLast _ detached => cases detached.symm.trans attached.1
  | endUnseen | endSent | endAnswered | endMissing | failedUnseen | failedUnanswered
  | failedBegun => cases attached.2
  | detachedLast | detachedDone | detachedUnanswered | detachedBegun => cases attached.1
  | bodyHeld | bodyForwarded | eomHeld | eomForwarded | completed | bodyKept | bodySent | paused
  | resumed => exact staged isOpen

theorem Moves.rank_le (rule : Moves cache session event result)
    (alive : session.released = false) (accounted : Accounted session)
    (staged : Staged session) (timely : ¬ LateHead session event) :
    session.state.rank ≤ result.1.state.rank := by
  have going := State.rank_le_of_going (accounted.toSettled.running alive)
  cases rule with
  | hit start | unserved start | asked start =>
      rw [start]
      exact Nat.zero_le _
  | connected waiting | unconnected waiting => simp [waiting, State.rank]
  | unconnectedAlone waiting gone =>
      exact absurd gone (accounted.present_of_waiting alive waiting)
  | headersKept attached undone | headersUnseen attached undone | headersSent attached undone =>
      have isOpen := session.originOpen_iff.mpr ⟨attached, undone⟩
      rcases staged isOpen with before | before | aborted
      · simp [before, State.rank]
      · simp [before]
      · exact absurd ⟨aborted, isOpen, rfl⟩ timely
  | endUnseen running | endSent running | endAnswered running | endMissing running =>
      simp [running, State.rank]
  | left | failedUnseen | failedUnanswered | failedBegun | detachedUnanswered => exact going
  | completedLast | leftLast | detachedLast | detachedBegun => exact session.state.rank_le_terminal
  | bodyHeld | bodyForwarded | eomHeld | eomForwarded | completed | bodyKept | bodySent
  | detachedDone | paused | resumed => exact Nat.le_refl _

/-- A late head brings the session back to where it streams. -/
theorem Moves.state_of_head (rule : Moves cache session event result)
    (head : event.isOriginHeaders = true) : result.1.state = .streaming := by
  cases rule with
  | headersKept | headersUnseen | headersSent => rfl
  | _ => cases head

theorem Moves.unassembled (rule : Moves cache session event result)
    (other : event.isOriginHeaders = false) (unkept : session.responseBody = none) :
    result.1.responseBody = none := by
  cases rule with
  | headersKept | headersUnseen | headersSent => cases other
  | bodyKept _ kept => cases unkept.symm.trans kept
  | unconnectedAlone => rcases abortClient_cases _ with same | same <;> rw [same] <;> exact unkept
  | left | leftLast | endAnswered | endMissing | failedUnseen | failedUnanswered | failedBegun
  | detachedUnanswered | detachedBegun => rfl
  | _ => exact unkept

theorem Moves.discarded (rule : Moves cache session event result)
    (alive : session.released = false) (accounted : Accounted session)
    (discarded : session.state = .clientAborted → session.responseBody = none)
    (aborted : result.1.state = .clientAborted) : result.1.responseBody = none := by
  cases rule with
  | left => rfl
  | bodyHeld | bodyForwarded | eomHeld | eomForwarded | completed | bodySent | detachedDone
  | paused | resumed => exact discarded aborted
  | bodyKept running => cases running.symm.trans aborted
  | unconnectedAlone waiting gone =>
      exact absurd gone (accounted.present_of_waiting alive waiting)
  | _ => cases aborted

end

/-! ## One turn -/

section

variable {session : Session}

theorem take_staged (turn : Turn) (accounted : Accounted session) (staged : Staged session) :
    Staged (session.take turn).1 := by
  rcases session.take_cases turn with ⟨_, same⟩ | ⟨_, alive, rule⟩
  · rwa [same]
  · exact rule.staged alive accounted staged

theorem take_rank_le (turn : Turn) (accounted : Accounted session) (staged : Staged session)
    (timely : ¬ LateHead session turn.event) :
    session.state.rank ≤ (session.take turn).1.state.rank := by
  rcases session.take_cases turn with ⟨_, same⟩ | ⟨_, alive, rule⟩
  · exact Nat.le_of_eq (congrArg (fun result => result.1.state.rank) same.symm)
  · exact rule.rank_le alive accounted staged timely

theorem take_late (turn : Turn) (accounted : Accounted session)
    (late : LateHead session turn.event) : (session.take turn).1.state = .streaming := by
  rcases session.take_cases turn with ⟨unused, _⟩ | ⟨_, _, rule⟩
  · have alive : session.released = false := by
      apply accounted.alive
      rw [late.aborted]
      simp
    have head := late.head
    cases event : turn.event with
    | originHeaders => simp [event, ignores, alive, late.isOpen] at unused
    | _ =>
        rw [event] at head
        cases head
  · exact rule.state_of_head late.head

/-- A session moves back exactly by a late head. -/
theorem take_back_iff (turn : Turn) (accounted : Accounted session) (staged : Staged session) :
    (session.take turn).1.state.rank < session.state.rank ↔ LateHead session turn.event := by
  constructor
  · intro back
    by_contra timely
    exact absurd (take_rank_le turn accounted staged timely) (Nat.not_le.mpr back)
  · intro late
    rw [take_late turn accounted late, late.aborted]
    decide

/-! ## A whole run -/

/-- None of the turns is a late head. -/
def Timely (session : Session) (turns : List Turn) : Prop :=
  ∀ before turn after, turns = before ++ turn :: after →
    ¬ LateHead (session.play before).1 turn.event

theorem timely_of_headless (turns : List Turn)
    (headless : ∀ turn ∈ turns, turn.event.isOriginHeaders = false) : Timely session turns := by
  rintro before turn after rfl late
  have other := headless turn (by simp)
  cases other.symm.trans late.head

theorem play_rank_le (turns : List Turn) (accounted : Accounted session) (staged : Staged session)
    (timely : Timely session turns) :
    session.state.rank ≤ (session.play turns).1.state.rank := by
  induction turns generalizing session with
  | nil => exact Nat.le_refl _
  | cons turn rest ih =>
      calc session.state.rank
        _ ≤ (session.take turn).1.state.rank :=
            take_rank_le turn accounted staged (timely [] turn rest rfl)
        _ ≤ ((session.take turn).1.play rest).1.state.rank := by
            apply ih (session.take_accounted turn accounted) (take_staged turn accounted staged)
            rintro before other after rfl
            exact timely (turn :: before) other after rfl

theorem play_unassembled (turns : List Turn)
    (headless : ∀ turn ∈ turns, turn.event.isOriginHeaders = false)
    (unkept : session.responseBody = none) : (session.play turns).1.responseBody = none := by
  induction turns generalizing session with
  | nil => exact unkept
  | cons turn rest ih =>
      rw [List.forall_mem_cons] at headless
      rw [play_cons]
      apply ih headless.2
      rcases session.take_cases turn with ⟨_, same⟩ | ⟨_, _, rule⟩
      · rwa [same]
      · exact rule.unassembled headless.1 unkept

end

theorem play_staged (domain : String) (origin : Option Endpoint) (transform : Option Transform)
    (turns : List Turn) : Staged ((fresh domain origin transform).play turns).1 := by
  refine (play_rule_induction (motive := fun _ session _ => Staged session) domain origin transform
    ?start ?ignored ?moved turns).2
  case start =>
    intro isOpen
    cases isOpen
  case ignored =>
    intro _ _ _ _ _ _ staged
    exact staged
  case moved =>
    intro _ _ _ _ _ accounted alive rule staged
    exact rule.staged alive accounted staged

theorem play_discarded (domain : String) (origin : Option Endpoint)
    (transform : Option Transform) (turns : List Turn) :
    ((fresh domain origin transform).play turns).1.state = .clientAborted →
      ((fresh domain origin transform).play turns).1.responseBody = none := by
  refine (play_rule_induction (motive := fun _ session _ => session.state = .clientAborted →
    session.responseBody = none) domain origin transform ?start ?ignored ?moved turns).2
  case start =>
    intro aborted
    cases aborted
  case ignored =>
    intro _ _ _ _ _ _ discarded
    exact discarded
  case moved =>
    intro _ _ _ _ _ accounted alive rule discarded
    exact rule.discarded alive accounted discarded

/-- The state of a session moves back exactly when the head of an answer that has not ended comes
after the client has aborted the session.  Between two points of a run without such a head it never
does, and an aborted session that gets no head any more neither streams nor assembles an answer. -/
theorem state_back_only_by_late_head (domain : String) (origin : Option Endpoint)
    (transform : Option Transform) (turns : List Turn) :
    let session := ((fresh domain origin transform).play turns).1
    (∀ turn, (session.take turn).1.state.rank < session.state.rank ↔
      LateHead session turn.event) ∧
    (∀ later, Timely session later →
      session.state.rank ≤ (session.play later).1.state.rank) ∧
    (session.state = .clientAborted → ∀ later : List Turn,
      (∀ turn ∈ later, turn.event.isOriginHeaders = false) →
      (session.play later).1.state ≠ .streaming ∧ (session.play later).1.responseBody = none) := by
  intro session
  have accounted : Accounted session := play_accounted domain origin transform turns
  have staged : Staged session := play_staged domain origin transform turns
  refine ⟨?_, ?_, ?_⟩
  · intro turn
    exact take_back_iff turn accounted staged
  · intro later timely
    exact play_rank_le later accounted staged timely
  · intro aborted later headless
    constructor
    · intro streams
      have forward := play_rank_le later accounted staged (timely_of_headless later headless)
      rw [streams, aborted] at forward
      exact absurd forward (by decide)
    · exact play_unassembled later headless (play_discarded domain origin transform turns aborted)

/-- The client of a GET fails before the origin answers, and the answer comes nevertheless. -/
theorem late_head_reopens_aborted :
    let cache : ContentCache := { partitions := [], maxEntries := 1 }
    let turns := [.request { method := "GET", uri := .rooted "/" none }, .connectSuccess,
      .clientError].map (Turn.mk cache)
    let late := [.originHeaders ⟨200, []⟩, .originBody [1]].map (Turn.mk cache)
    let session := ((fresh "example.com" (some ⟨"10.0.0.1", 80⟩) none).play turns).1
    session.state = .clientAborted ∧ (session.play late).1.state = .streaming ∧
      (session.play late).1.state.rank < session.state.rank ∧
      session.responseBody = none ∧ (session.play late).1.responseBody = some [1] := by
  decide

end CachingProxy.Session
