import CachingProxy.Proofs.Session.Holders
import CachingProxy.Proofs.Session.OriginProtocol

/-!
# When a session holds its client back

A session stops reading the body of its request while it waits for a connection, and afterwards
whenever the origin takes no more.  So the last of its pauses and resumptions is known from its
state and from what it was told of the origin.
-/

set_option autoImplicit false

namespace CachingProxy.Session

/-! ## Pauses -/

/-- Whether the body is held back once an action was performed. -/
def Action.pausing (paused : Bool) : Action → Bool
  | .pauseIngress => true
  | .resumeIngress => false
  | _ => paused

def endsPaused (paused : Bool) (actions : List Action) : Bool := actions.foldl Action.pausing paused

theorem endsPaused_append (paused : Bool) (first second : List Action) :
    endsPaused paused (first ++ second) = endsPaused (endsPaused paused first) second :=
  List.foldl_append

theorem endsPaused_resumed (paused : Bool) (actions : List Action) :
    endsPaused paused (actions ++ [.resumeIngress]) = false := by
  rw [endsPaused_append]
  rfl

/-- What the origin says of the room for the body. -/
def Event.holding (paused : Bool) : Event → Bool
  | .egressPaused => true
  | .egressResumed => false
  | _ => paused

section

variable {cache : ContentCache} {session : Session} {event : Event}
  {result : Session × List Action}

theorem Moves.paused_waiting (rule : Moves cache session event result)
    (accounted : Accounted session) {paused : Bool}
    (before : session.state = .connecting → paused = true)
    (waits : result.1.state = .connecting) : endsPaused paused result.2 = true := by
  cases rule with
  | asked => rfl
  | bodyHeld _ waiting | eomHeld _ waiting => exact before waiting
  | bodyForwarded _ notWaiting | eomForwarded _ notWaiting => exact absurd waits notWaiting
  | completed _ attached | detachedDone attached | paused _ attached | resumed _ attached =>
      exact absurd attached (accounted.not_attached (.inr waits))
  | bodyKept running | bodySent running => cases running.symm.trans waits
  | unconnectedAlone =>
      rcases abortClient_cases _ with same | same <;> rw [same] at waits <;> cases waits
  | _ => cases waits

/-- As long as its origin is there and answers, a session with a client holds the body back as it
was told to. -/
theorem Moves.paused_open (rule : Moves cache session event result)
    (accounted : Accounted session) (isOpen : result.1.originOpen = true)
    (present : result.1.clientTerminated = false) (paused : Bool) :
    (event = .connectSuccess ∧ session.state = .connecting ∧
      endsPaused paused result.2 = false) ∨
    (session.originOpen = true ∧ session.clientTerminated = false ∧
      endsPaused paused result.2 = event.holding paused) := by
  have attached := (originOpen_iff _).mp isOpen
  cases rule with
  | connected waiting => exact .inl ⟨rfl, waiting, endsPaused_resumed _ _⟩
  | hit start | unserved start | asked start =>
      exact absurd attached.1 (accounted.not_attached (.inl start))
  | unconnected waiting | bodyHeld _ waiting | eomHeld _ waiting =>
      exact absurd attached.1 (accounted.not_attached (.inr waiting))
  | unconnectedAlone =>
      rcases abortClient_cases _ with same | same <;> rw [same] at present <;> cases present
  | bodyForwarded | eomForwarded | headersKept | headersSent | bodyKept | bodySent | paused
  | resumed => exact .inr ⟨isOpen, present, rfl⟩
  | headersUnseen _ _ _ gone => cases gone.symm.trans present
  | completed | left | completedLast | leftLast => cases present
  | endUnseen | endSent | endAnswered | endMissing | failedUnseen | failedUnanswered
  | failedBegun => cases attached.2
  | detachedLast | detachedDone | detachedUnanswered | detachedBegun => cases attached.1

/-! ## What is forwarded and sent -/

theorem Moves.unheld (rule : Moves cache session event result) (unheld : session.pendingBody = [])
    (held : ∀ chunk, event = .clientBody chunk → session.state ≠ .connecting) :
    result.1.pendingBody = [] := by
  cases rule with
  | @bodyHeld chunk _ waiting => exact absurd waiting (held chunk rfl)
  | connected | unconnected | left | leftLast => rfl
  | unconnectedAlone => rcases abortClient_cases _ with same | same <;> rw [same]
  | _ => exact unheld

theorem Moves.uploads (rule : Moves cache session event result)
    (unheld : session.pendingBody = []) :
    (∀ action ∈ result.2, action.toOrigin = false) ∨
    ((session.originOpen = true ∧ session.clientTerminated = false ∧ result.1 = session) ∧
      ((∃ chunk, event = .clientBody chunk ∧ result.2 = [.forwardBody chunk]) ∨
        (event = .clientEom ∧ result.2 = [.forwardEom]))) ∨
    (∃ request, event = .connectSuccess ∧ ∃ eom, (eom = [] ∨ eom = [.forwardEom]) ∧
      result.2 = .sendOriginRequest request :: (eom ++ [.resumeIngress])) := by
  cases rule with
  | @bodyForwarded chunk present _ attached undone =>
      exact .inr (.inl ⟨⟨(originOpen_iff _).mpr ⟨attached, undone⟩, present, rfl⟩,
        .inl ⟨chunk, rfl, rfl⟩⟩)
  | eomForwarded present _ attached undone =>
      exact .inr (.inl ⟨⟨(originOpen_iff _).mpr ⟨attached, undone⟩, present, rfl⟩,
        .inr ⟨rfl, rfl⟩⟩)
  | @connected request =>
      refine .inr (.inr ⟨request, rfl, if session.pendingEom then [.forwardEom] else [], ?_, ?_⟩)
      · split
        · exact .inr rfl
        · exact .inl rfl
      · rw [unheld]
        rfl
  | unconnectedAlone =>
      left
      intro action member
      rcases mem_abortClient member with rfl | rfl | rfl <;> rfl
  | _ => exact .inl (by simp [Action.toOrigin])

def Action.ofStream : Action → Bool
  | .sendBody _ | .sendEom => true
  | _ => false

def Event.continuesAnswer : Event → Bool
  | .originBody _ | .originEom => true
  | _ => false

theorem Moves.downloads (rule : Moves cache session event result) :
    (∀ action ∈ result.2, action.ofStream = false) ∨
    (event.continuesAnswer = true ∧ result.1.clientTerminated = false ∧
      ∃ action, result.2 = [action]) := by
  cases rule with
  | bodySent _ _ _ present | endSent _ present => exact .inr ⟨rfl, present, _, rfl⟩
  | connected =>
      left
      simp only [List.forall_mem_append, List.forall_mem_cons, List.forall_mem_map]
      refine ⟨⟨⟨rfl, fun _ _ => rfl⟩, ?_⟩, rfl, by simp⟩
      split <;> simp [Action.ofStream]
  | unconnectedAlone =>
      left
      intro action member
      rcases mem_abortClient member with rfl | rfl | rfl <;> rfl
  | _ => exact .inl (by simp [Action.ofStream])

/-! ## Waiting for a connection -/

def Waits (session : Session) : Prop := session.state = .connecting ∨ session.released = true

def Event.ofConnection : Event → Bool
  | .connectSuccess | .connectError _ => true
  | _ => false

theorem Moves.waits_of_connects (rule : Moves cache session event result) {origin : Endpoint}
    (connects : .connect origin ∈ result.2) : Waits result.1 := by
  cases rule with
  | asked => exact .inl rfl
  | unconnectedAlone => rcases mem_abortClient connects with own | own | own <;> cases own
  | _ => simp at connects

theorem Moves.stays_waiting (rule : Moves cache session event result)
    (accounted : Accounted session) (other : event.ofConnection = false)
    (waiting : session.state = .connecting) : Waits result.1 := by
  have detached := accounted.not_attached (.inr waiting)
  cases rule with
  | connected | unconnected | unconnectedAlone => cases other
  | bodyHeld | eomHeld => exact .inl waiting
  | completedLast | leftLast => exact .inr rfl
  | hit start | unserved start | asked start => cases start.symm.trans waiting
  | bodyForwarded _ notWaiting | eomForwarded _ notWaiting => exact absurd waiting notWaiting
  | bodyKept running | bodySent running | endUnseen running | endSent running
  | endAnswered running | endMissing running => cases running.symm.trans waiting
  | completed _ attached | left _ attached | headersKept attached | headersUnseen attached
  | headersSent attached | failedUnseen _ attached | failedUnanswered _ attached
  | failedBegun _ attached | detachedLast attached | detachedDone attached
  | detachedUnanswered attached | detachedBegun attached | paused _ attached
  | resumed _ attached => exact absurd attached detached

end

/-! ## Turns and runs -/

/-- While a session waits for a connection, the last it said of the body was to hold it back. -/
theorem play_paused_waiting (domain : String) (origin : Option Endpoint)
    (transform : Option Transform) (turns : List Turn) :
    ((fresh domain origin transform).play turns).1.state = .connecting →
      endsPaused false ((fresh domain origin transform).play turns).2 = true := by
  refine (play_rule_induction (motive := fun _ session actions =>
    session.state = .connecting → endsPaused false actions = true) domain origin transform
    ?start ?ignored ?moved turns).2
  case start => exact fun waits => by cases waits
  case ignored => exact fun _ _ _ _ _ _ held => held
  case moved =>
    intro _ session actions _ _ accounted _ rule held waits
    rw [endsPaused_append]
    exact rule.paused_waiting accounted held waits

section

variable (session : Session) (turn : Turn)

theorem take_paused_open (accounted : Accounted session)
    (isOpen : (session.take turn).1.originOpen = true)
    (present : (session.take turn).1.clientTerminated = false) (paused : Bool) :
    (turn.event = .connectSuccess ∧ session.state = .connecting ∧
      endsPaused paused (session.take turn).2 = false) ∨
    (session.originOpen = true ∧ session.clientTerminated = false ∧
      endsPaused paused (session.take turn).2 = turn.event.holding paused) := by
  rcases session.take_cases turn with ⟨unused, same⟩ | ⟨_, _, rule⟩
  · rw [same] at isOpen present ⊢
    dsimp only at isOpen present
    refine .inr ⟨isOpen, present, ?_⟩
    -- What is said of the room is not ignored as long as the origin answers.
    have alive : session.released = false := Bool.eq_false_iff.mpr fun released => by
      cases present.symm.trans (accounted.released_iff.mp released).1
    cases said : turn.event with
    | egressPaused | egressResumed => simp [said, ignores, alive, present, isOpen] at unused
    | _ => rfl
  · exact rule.paused_open accounted isOpen present paused

theorem take_unheld (unheld : session.pendingBody = [])
    (held : ∀ chunk, turn.event = .clientBody chunk → session.state ≠ .connecting) :
    (session.take turn).1.pendingBody = [] := by
  rcases session.take_cases turn with ⟨_, same⟩ | ⟨_, _, rule⟩
  · rwa [same]
  · exact rule.unheld unheld held

theorem play_unheld (turns : List Turn) (unheld : session.pendingBody = [])
    (others : ∀ turn ∈ turns, turn.event.ofClientBody = false) :
    (session.play turns).1.pendingBody = [] := by
  induction turns generalizing session with
  | nil => exact unheld
  | cons turn rest ih =>
      rw [List.forall_mem_cons] at others
      refine ih _ (session.take_unheld turn unheld fun chunk said => ?_) others.2
      rw [said] at others
      cases others.1

theorem take_uploads (unheld : session.pendingBody = []) :
    (∀ action ∈ (session.take turn).2, action.toOrigin = false) ∨
    ((session.originOpen = true ∧ session.clientTerminated = false ∧
        (session.take turn).1 = session) ∧
      ((∃ chunk, turn.event = .clientBody chunk ∧
          (session.take turn).2 = [.forwardBody chunk]) ∨
        (turn.event = .clientEom ∧ (session.take turn).2 = [.forwardEom]))) ∨
    (∃ request, turn.event = .connectSuccess ∧ ∃ eom, (eom = [] ∨ eom = [.forwardEom]) ∧
      (session.take turn).2 = .sendOriginRequest request :: (eom ++ [.resumeIngress])) := by
  rcases session.take_cases turn with ⟨_, same⟩ | ⟨_, _, rule⟩
  · rw [same]
    exact .inl (by simp)
  · exact rule.uploads unheld

theorem take_downloads :
    (∀ action ∈ (session.take turn).2, action.ofStream = false) ∨
    (turn.event.continuesAnswer = true ∧ (session.take turn).1.clientTerminated = false ∧
      ∃ action, (session.take turn).2 = [action]) := by
  rcases session.take_cases turn with ⟨_, same⟩ | ⟨_, _, rule⟩
  · rw [same]
    exact .inl (by simp)
  · exact rule.downloads

theorem take_waits_of_connects {origin : Endpoint}
    (connects : .connect origin ∈ (session.take turn).2) : Waits (session.take turn).1 := by
  rcases session.take_cases turn with ⟨_, same⟩ | ⟨_, _, rule⟩
  · rw [same] at connects
    cases connects
  · exact rule.waits_of_connects connects

theorem take_stays_waiting (accounted : Accounted session)
    (other : turn.event.ofConnection = false) (waits : Waits session) :
    Waits (session.take turn).1 := by
  rcases session.take_cases turn with ⟨_, same⟩ | ⟨_, alive, rule⟩
  · rwa [same]
  · refine rule.stays_waiting accounted other (waits.resolve_right fun released => ?_)
    cases alive.symm.trans released

theorem play_stays_waiting (turns : List Turn) (accounted : Accounted session)
    (others : ∀ turn ∈ turns, turn.event.ofConnection = false) (waits : Waits session) :
    Waits (session.play turns).1 := by
  induction turns generalizing session with
  | nil => exact waits
  | cons turn rest ih =>
      rw [List.forall_mem_cons] at others
      exact ih _ (session.take_accounted turn accounted) others.2
        (session.take_stays_waiting turn accounted others.1 waits)

end

end CachingProxy.Session
