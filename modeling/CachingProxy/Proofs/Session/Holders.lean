import CachingProxy.Proofs.Session.Progress

/-!
# What holds a session

An origin holds a session from the connection until it is lost, and the client until the session is
told that it is gone or breaks its answer off.  No other event gives or takes either of the two.
-/

set_option autoImplicit false

namespace CachingProxy.Session

theorem abortClient_cases (session : Session) :
    session.abortClient.1 = { session with clientTerminated := true } ∨
      session.abortClient.1 =
        { session with clientTerminated := true, released := true, state := .terminal } := by
  rw [abortClient, releaseIfDone]
  split
  · exact .inr rfl
  · exact .inl rfl

theorem mem_abortClient {session : Session} {action : Action}
    (member : action ∈ session.abortClient.2) :
    action = .abortClient ∨ action = .abortOrigin ∨ action = .release := by
  rw [abortClient, releaseIfDone] at member
  repeat' split at member
  all_goals
    simp only [List.mem_append, List.mem_cons, List.not_mem_nil, or_false] at member
    tauto

section

variable {cache : ContentCache} {session : Session} {event : Event}
  {result : Session × List Action}

theorem Moves.event_of_asks (rule : Moves cache session event result) {request : RequestHead}
    (asks : .sendOriginRequest request ∈ result.2) :
    event = .connectSuccess ∧ result.1.originAttached = true := by
  cases rule with
  | connected => exact ⟨rfl, rfl⟩
  | unconnectedAlone => rcases mem_abortClient asks with own | own | own <;> cases own
  | _ => simp at asks

/-- An origin comes with its connection and goes when it is lost. -/
theorem Moves.attached_eq (rule : Moves cache session event result)
    (other : event ≠ .connectSuccess) (kept : event ≠ .originDetached) :
    result.1.originAttached = session.originAttached := by
  cases rule with
  | connected => exact absurd rfl other
  | detachedLast | detachedDone | detachedUnanswered | detachedBegun => exact absurd rfl kept
  | unconnectedAlone => rcases abortClient_cases _ with same | same <;> rw [same]
  | _ => rfl

theorem Moves.stays_gone (rule : Moves cache session event result)
    (gone : session.clientTerminated = true) : result.1.clientTerminated = true := by
  cases rule with
  | unconnectedAlone => rcases abortClient_cases _ with same | same <;> rw [same]
  | completed | completedLast | left | leftLast | failedBegun | detachedBegun => rfl
  | _ => exact gone

theorem Moves.gone_of_leaving (rule : Moves cache session event result)
    (leaving : event = .clientComplete ∨ event = .clientError) :
    result.1.clientTerminated = true := by
  cases rule with
  | completed | completedLast | left | leftLast => rfl
  | _ => simp at leaving

theorem Moves.gone_of_aborted (rule : Moves cache session event result)
    (aborted : .abortClient ∈ result.2) : result.1.clientTerminated = true := by
  cases rule with
  | unconnectedAlone => rcases abortClient_cases _ with same | same <;> rw [same]
  | failedBegun | detachedBegun => rfl
  | _ => simp at aborted

end

/-! ## One turn -/

section

variable (session : Session) (turn : Turn)

theorem take_accounted (accounted : Accounted session) : Accounted (session.take turn).1 := by
  rcases session.take_cases turn with ⟨_, same⟩ | ⟨_, alive, rule⟩
  · rwa [same]
  · exact rule.accounted alive accounted

theorem take_attached_eq (other : turn.event ≠ .connectSuccess)
    (kept : turn.event ≠ .originDetached) :
    (session.take turn).1.originAttached = session.originAttached := by
  rcases session.take_cases turn with ⟨_, same⟩ | ⟨_, _, rule⟩
  · rw [same]
  · exact rule.attached_eq other kept

theorem take_asks {request : RequestHead}
    (asks : .sendOriginRequest request ∈ (session.take turn).2) :
    turn.event = .connectSuccess ∧ (session.take turn).1.originAttached = true := by
  rcases session.take_cases turn with ⟨_, same⟩ | ⟨_, _, rule⟩
  · rw [same] at asks
    cases asks
  · exact rule.event_of_asks asks

/-- A lost origin holds the session no longer. -/
theorem take_detached (settled : Settled session) (lost : turn.event = .originDetached) :
    (session.take turn).1.originAttached = false := by
  rcases session.take_cases turn with ⟨unused, same⟩ | ⟨_, _, rule⟩
  · rw [same]
    rw [lost, ignores, Bool.or_eq_true, Bool.not_eq_true'] at unused
    exact unused.elim (fun released => (settled.released_iff.mp released).2) id
  · rw [lost] at rule
    generalize session.take turn = result at rule
    cases rule <;> rfl

theorem take_stays_gone (gone : session.clientTerminated = true) :
    (session.take turn).1.clientTerminated = true := by
  rcases session.take_cases turn with ⟨_, same⟩ | ⟨_, _, rule⟩
  · rwa [same]
  · exact rule.stays_gone gone

theorem play_stays_gone (turns : List Turn) (gone : session.clientTerminated = true) :
    (session.play turns).1.clientTerminated = true := by
  induction turns generalizing session with
  | nil => exact gone
  | cons turn rest ih => exact ih _ (session.take_stays_gone turn gone)

theorem take_leaving (settled : Settled session)
    (leaving : turn.event = .clientComplete ∨ turn.event = .clientError) :
    (session.take turn).1.clientTerminated = true := by
  rcases session.take_cases turn with ⟨unused, same⟩ | ⟨_, _, rule⟩
  · rw [same]
    have ended : session.released = true ∨ session.clientTerminated = true := by
      rcases leaving with complete | failed
      · simpa [complete, ignores] using unused
      · simpa [failed, ignores] using unused
    exact ended.elim (fun released => (settled.released_iff.mp released).1) id
  · exact rule.gone_of_leaving leaving

end

theorem play_aborted (domain : String) (origin : Option Endpoint) (transform : Option Transform)
    (turns : List Turn) :
    .abortClient ∈ ((fresh domain origin transform).play turns).2 →
      ((fresh domain origin transform).play turns).1.clientTerminated = true := by
  refine (play_rule_induction (motive := fun _ session actions =>
    .abortClient ∈ actions → session.clientTerminated = true) domain origin transform
    ?start ?ignored ?moved turns).2
  case start => exact fun aborted => by cases aborted
  case ignored => exact fun _ _ _ _ _ _ gone => gone
  case moved =>
    intro _ session _ _ _ _ _ rule gone aborted
    rcases List.mem_append.mp aborted with before | now
    · exact rule.stays_gone (gone before)
    · exact rule.gone_of_aborted now

end CachingProxy.Session
