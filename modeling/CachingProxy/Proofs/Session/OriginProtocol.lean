import CachingProxy.Proofs.Histories
import CachingProxy.Proofs.Session.Progress

/-!
# What an origin is sent

The actions of a session that reach its origin are one request in order: its head, its body chunk by
chunk, and its end (`InTurn`).  So it is as long as the client's body says nothing behind its end.
-/

set_option autoImplicit false

namespace CachingProxy.Session

def Action.toOrigin : Action → Bool
  | .sendOriginRequest _ | .forwardBody _ | .forwardEom => true
  | _ => false

def Event.ofClientBody : Event → Bool
  | .clientBody _ | .clientEom => true
  | _ => false

/-- Behind the end of the client's body nothing more comes of it. -/
def EomLast (events : List Event) : Prop :=
  ∀ before after, events = before ++ .clientEom :: after →
    ∀ event ∈ after, event.ofClientBody = false

theorem EomLast.of_append {first second : List Event} (last : EomLast (first ++ second)) :
    EomLast first := by
  rintro before after rfl event member
  exact last before (after ++ second) (by simp) event (List.mem_append_left _ member)

theorem EomLast.concat {events : List Event} {event : Event} (last : EomLast events)
    (fits : event.ofClientBody = true → .clientEom ∉ events) : EomLast (events ++ [event]) := by
  intro before after listed
  rcases split_concat listed with ⟨rfl, rfl, rfl⟩ | ⟨shorter, rfl, rfl⟩
  · intro other member
    cases member
  · intro other member
    rw [List.mem_append, List.mem_singleton] at member
    rcases member with earlier | rfl
    · exact last before shorter rfl other earlier
    · by_contra body
      exact fits (by simpa using body) (by simp)

theorem EomLast.append {events more : List Event} (last : EomLast events)
    (others : ∀ event ∈ more, event.ofClientBody = false) : EomLast (events ++ more) := by
  induction more using List.reverseRecOn with
  | nil => rwa [List.append_nil]
  | append_singleton more event ih =>
      rw [← List.append_assoc]
      refine (ih fun other member => others other (List.mem_append_left _ member)).concat ?_
      intro body
      exact absurd ((others event (by simp)).symm.trans body) Bool.false_ne_true

theorem EomLast.unended {events : List Event} {event : Event} (last : EomLast (events ++ [event]))
    (body : event.ofClientBody = true) : .clientEom ∉ events := by
  intro ended
  obtain ⟨before, after, rfl⟩ := List.append_of_mem ended
  have quiet := last before (after ++ [event]) (by simp) event (by simp)
  exact Bool.false_ne_true (quiet.symm.trans body)

/-! ## Actions in turn -/

/-- Whether an action may come behind others: the head of a request before all of its body, and
nothing of the body behind its end. -/
def mayFollow (before : List Action) : Action → Prop
  | .sendOriginRequest _ => ∀ action ∈ before, action.toOrigin = false
  | .forwardBody _ | .forwardEom => .forwardEom ∉ before
  | _ => True

def InTurn (actions : List Action) : Prop :=
  ∀ before action after, actions = before ++ action :: after → mayFollow before action

namespace InTurn

variable {actions : List Action}

theorem nil : InTurn [] := by
  intro before action after listed
  simp at listed

theorem concat (inTurn : InTurn actions) {action : Action} (fits : mayFollow actions action) :
    InTurn (actions ++ [action]) := by
  exact forall_split_concat inTurn fits

theorem append_unsent (inTurn : InTurn actions) {more : List Action}
    (unsent : ∀ action ∈ more, action.toOrigin = false) : InTurn (actions ++ more) := by
  induction more using List.reverseRecOn with
  | nil => rwa [List.append_nil]
  | append_singleton more action ih =>
      rw [← List.append_assoc]
      refine (ih fun other member => unsent other (List.mem_append_left _ member)).concat ?_
      have other := unsent action (by simp)
      cases action with
      | sendOriginRequest | forwardBody | forwardEom => cases other
      | _ => trivial

theorem append_bodies (inTurn : InTurn actions) (unended : .forwardEom ∉ actions)
    (chunks : List Bytes) : InTurn (actions ++ chunks.map .forwardBody) := by
  induction chunks using List.reverseRecOn with
  | nil => rwa [List.map_nil, List.append_nil]
  | append_singleton chunks chunk ih =>
      rw [List.map_append, List.map_singleton, ← List.append_assoc]
      refine ih.concat ?_
      simpa [mayFollow] using unended

theorem append_request (inTurn : InTurn actions)
    (unsent : ∀ action ∈ actions, action.toOrigin = false) (request : RequestHead)
    (chunks : List Bytes) (eom : Bool) :
    InTurn (actions ++ (.sendOriginRequest request :: chunks.map .forwardBody ++
      (if eom then [.forwardEom] else []) ++ [.resumeIngress])) := by
  have unended : .forwardEom ∉ actions ++ [.sendOriginRequest request] := by
    intro member
    rcases List.mem_append.mp member with earlier | here
    · exact Bool.false_ne_true (unsent _ earlier).symm
    · simp at here
  have head : InTurn (actions ++ [.sendOriginRequest request]) := inTurn.concat unsent
  have bodies := head.append_bodies unended chunks
  have whole : InTurn (actions ++ [.sendOriginRequest request] ++ chunks.map .forwardBody ++
      if eom then [.forwardEom] else []) := by
    cases eom with
    | false => simpa using bodies
    | true =>
        refine bodies.concat ?_
        rw [mayFollow, List.mem_append, not_or]
        exact ⟨unended, by simp⟩
  have resumed : InTurn (_ ++ [.resumeIngress]) :=
    whole.append_unsent (by simp [Action.toOrigin])
  simpa using resumed

end InTurn

/-! ## A whole run -/

structure Sending (events : List Event) (session : Session) (actions : List Action) : Prop where
  inTurn : InTurn actions
  unsent : session.state = .new ∨ session.state = .connecting →
    ∀ action ∈ actions, action.toOrigin = false
  ended : .forwardEom ∈ actions → .clientEom ∈ events
  held : session.pendingEom = true → .clientEom ∈ events

theorem Sending.quiet {events : List Event} {session next : Session} {actions more : List Action}
    (sending : Sending events session actions) (event : Event)
    (waits : next.state = .new ∨ next.state = .connecting →
      session.state = .new ∨ session.state = .connecting)
    (held : next.pendingEom = session.pendingEom)
    (unsent : ∀ action ∈ more, action.toOrigin = false) :
    Sending (events ++ [event]) next (actions ++ more) where
  inTurn := sending.inTurn.append_unsent unsent
  unsent waiting action member := by
    rcases List.mem_append.mp member with earlier | here
    · exact sending.unsent (waits waiting) action earlier
    · exact unsent action here
  ended member := by
    rcases List.mem_append.mp member with earlier | here
    · exact List.mem_append_left _ (sending.ended earlier)
    · exact absurd (unsent _ here) (by simp [Action.toOrigin])
  held pending := by
    rw [held] at pending
    exact List.mem_append_left _ (sending.held pending)

section

variable {cache : ContentCache} {session : Session} {event : Event}
  {result : Session × List Action} {events : List Event} {actions : List Action}

theorem Moves.sending (rule : Moves cache session event result)
    (alive : session.released = false) (accounted : Accounted session)
    (last : EomLast (events ++ [event])) (sending : Sending events session actions) :
    Sending (events ++ [event]) result.1 (actions ++ result.2) := by
  have unended : event.ofClientBody = true → .forwardEom ∉ actions := by
    intro body member
    exact last.unended body (sending.ended member)
  cases rule with
  | @connected request waiting =>
      refine ⟨?_, by simp, fun member => ?_, fun pending => ?_⟩
      · exact sending.inTurn.append_request (sending.unsent (.inr waiting)) request _ _
      · have pending : session.pendingEom = true := by
          by_contra none
          rcases List.mem_append.mp member with earlier | here
          · exact absurd (sending.unsent (.inr waiting) _ earlier) (by simp [Action.toOrigin])
          · simp [none] at here
        exact List.mem_append_left _ (sending.held pending)
      · exact List.mem_append_left _ (sending.held pending)
  | unconnectedAlone waiting gone =>
      exact absurd gone (accounted.present_of_waiting alive waiting)
  | bodyForwarded _ notWaiting attached =>
      refine ⟨sending.inTurn.concat (unended rfl), fun waits => ?_, fun member => ?_,
        fun pending => ?_⟩
      · exact absurd attached (accounted.not_attached waits)
      · rw [List.mem_append, List.mem_singleton] at member
        exact List.mem_append_left _ (sending.ended (member.resolve_right (by simp)))
      · exact List.mem_append_left _ (sending.held pending)
  | eomForwarded _ notWaiting attached =>
      refine ⟨sending.inTurn.concat (unended rfl), fun waits => ?_, fun _ => ?_, fun _ => ?_⟩
      · exact absurd attached (accounted.not_attached waits)
      · simp
      · simp
  | eomHeld =>
      refine ⟨?_, ?_, fun _ => by simp, fun _ => by simp⟩
      · rw [List.append_nil]
        exact sending.inTurn
      · rw [List.append_nil]
        exact sending.unsent
  | asked start => exact sending.quiet _ (fun _ => .inl start) rfl (by simp [Action.toOrigin])
  | bodyHeld | completed | bodyKept | bodySent | detachedDone | paused | resumed =>
      exact sending.quiet _ id rfl (by simp [Action.toOrigin])
  | _ => exact sending.quiet _ (by simp) rfl (by simp [Action.toOrigin])

end

/-- A request reaches its origin in order: its head, then its body, then the end of it, which is
sent only if the client's body has ended. -/
theorem play_sending (domain : String) (origin : Option Endpoint) (transform : Option Transform)
    (turns : List Turn) (last : EomLast (turns.map Turn.event)) :
    Sending (turns.map Turn.event) ((fresh domain origin transform).play turns).1
      ((fresh domain origin transform).play turns).2 := by
  refine (play_rule_induction (motive := fun turns session actions =>
    EomLast (turns.map Turn.event) → Sending (turns.map Turn.event) session actions)
    domain origin transform ?start ?ignored ?moved turns).2 last
  case start => exact fun _ => ⟨.nil, by simp, by simp, by simp [fresh]⟩
  case ignored =>
    intro turns session actions turn _ _ sending last
    rw [List.map_append] at last ⊢
    rw [← List.append_nil actions]
    exact (sending last.of_append).quiet turn.event id rfl (by simp)
  case moved =>
    intro turns session actions turn result accounted alive rule sending last
    rw [List.map_append] at last ⊢
    exact rule.sending alive accounted last (sending last.of_append)

end CachingProxy.Session
