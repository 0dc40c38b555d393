import CachingProxy.Proofs.Session.Moves

/-!
# When a session is released

A session is held by its client and by an attached origin.  Whichever lets go last releases it, in
whatever order the events come: `Settled` says that a session is released, and terminal, exactly
when neither holds it.  It is kept by every rule, and so is that `release` is answered only by the
event that brings this about (`Releases`).
-/

set_option autoImplicit false

namespace CachingProxy.Session

structure Settled (session : Session) : Prop where
  released_iff : session.released = true ↔
    session.clientTerminated = true ∧ session.originAttached = false
  terminal_iff : session.state = .terminal ↔ session.released = true

theorem fresh_settled (domain : String) (origin : Option Endpoint)
    (transform : Option Transform) : Settled (fresh domain origin transform) :=
  ⟨by simp [fresh], by simp [fresh]⟩

namespace Settled

theorem running {session : Session} (settled : Settled session)
    (alive : session.released = false) : session.state ≠ .terminal := by
  intro terminal
  rw [settled.terminal_iff, alive] at terminal
  exact Bool.false_ne_true terminal

theorem alive {session : Session} (settled : Settled session)
    (going : session.state ≠ .terminal) : session.released = false := by
  rwa [ne_eq, settled.terminal_iff, Bool.not_eq_true] at going

theorem attached_of_gone {session : Session} (settled : Settled session)
    (alive : session.released = false) (gone : session.clientTerminated = true) :
    session.originAttached = true := by
  by_contra detached
  rw [Bool.not_eq_true] at detached
  rw [settled.released_iff.mpr ⟨gone, detached⟩] at alive
  exact Bool.false_ne_true alive.symm

theorem moved {session next : Session} (settled : Settled session)
    (alive : session.released = false) (released : next.released = session.released)
    (terminated : next.clientTerminated = session.clientTerminated)
    (attached : next.originAttached = session.originAttached)
    (going : next.state ≠ .terminal) : Settled next where
  released_iff := by
    rw [released, terminated, attached]
    exact settled.released_iff
  terminal_iff := by
    rw [released, alive]
    exact ⟨fun terminal => absurd terminal going, fun freed => absurd freed Bool.false_ne_true⟩

end Settled

theorem Moves.settled {cache : ContentCache} {session : Session} {event : Event}
    {result : Session × List Action} (rule : Moves cache session event result)
    (alive : session.released = false) (settled : Settled session) : Settled result.1 := by
  have running := settled.running alive
  cases rule with
  | hit | unserved | asked | unconnected | headersKept | headersUnseen | headersSent | endUnseen
  | endSent | endAnswered | endMissing | failedUnseen | failedUnanswered =>
      exact settled.moved alive rfl rfl rfl (by simp)
  | bodyHeld | bodyForwarded | eomHeld | eomForwarded | bodyKept | bodySent | paused | resumed =>
      exact settled.moved alive rfl rfl rfl running
  | connected => exact ⟨by simp [alive], by simp [alive]⟩
  | unconnectedAlone _ gone =>
      -- A client that is gone leaves an alive session only to an attached origin.
      have attached := settled.attached_of_gone alive gone
      rw [abortClient, releaseIfDone, if_neg (by simp [attached])]
      exact ⟨by simp [alive, attached], by simp [alive]⟩
  | completed _ attached =>
      exact ⟨by simp [alive, attached], by simp [alive, running]⟩
  | completedLast _ detached => exact ⟨by simp [detached], by simp⟩
  | left _ attached => exact ⟨by simp [alive, attached], by simp [alive]⟩
  | leftLast _ detached => exact ⟨by simp [detached], by simp⟩
  | failedBegun _ attached => exact ⟨by simp [alive, attached], by simp [alive]⟩
  | detachedLast _ gone => exact ⟨by simp [gone], by simp⟩
  | detachedDone _ present => exact ⟨by simp [alive, present], by simp [alive, running]⟩
  | detachedUnanswered _ present => exact ⟨by simp [alive, present], by simp [alive]⟩
  | detachedBegun => exact ⟨by simp, by simp⟩

/-! ## The action that frees the session -/

/-- The actions of an event end with `release` if it frees the session, and hold none otherwise. -/
def Releases (before after : Session) (actions : List Action) : Prop :=
  ∃ others, Action.release ∉ others ∧
    actions = others ++ if before.released = after.released then [] else [.release]

theorem releases_nothing (before after : Session) (actions : List Action)
    (same : before.released = after.released) (clean : Action.release ∉ actions) :
    Releases before after actions :=
  ⟨actions, clean, by rw [if_pos same, List.append_nil]⟩

theorem Moves.releases {cache : ContentCache} {session : Session} {event : Event}
    {result : Session × List Action} (rule : Moves cache session event result)
    (alive : session.released = false) (settled : Settled session) :
    Releases session result.1 result.2 := by
  cases rule with
  | connected =>
      refine releases_nothing _ _ _ rfl ?_
      cases session.pendingEom <;> simp
  | unconnectedAlone _ gone =>
      have attached := settled.attached_of_gone alive gone
      rw [abortClient, releaseIfDone, if_neg (by simp [attached])]
      refine releases_nothing _ _ _ rfl ?_
      split <;> simp
  | completedLast | leftLast | detachedLast => exact ⟨[], by simp, by simp [alive]⟩
  | detachedBegun => exact ⟨[.abortClient], by simp, by simp [alive]⟩
  | _ => exact releases_nothing _ _ _ rfl (by simp)

theorem take_releases (session : Session) (turn : Turn) (settled : Settled session) :
    Settled (session.take turn).1 ∧
      Releases session (session.take turn).1 (session.take turn).2 := by
  rcases session.take_cases turn with ⟨_, same⟩ | ⟨_, alive, rule⟩
  · rw [same]
    exact ⟨settled, releases_nothing _ _ _ rfl (by simp)⟩
  · exact ⟨rule.settled alive settled, rule.releases alive settled⟩

theorem step_of_released (cache : ContentCache) (session : Session) (event : Event)
    (released : session.released = true) : session.step cache event = (cache, session, []) := by
  apply step_of_ignores
  cases event <;> simp [ignores, released]

theorem play_of_released (session : Session) (turns : List Turn)
    (released : session.released = true) : session.play turns = (session, []) := by
  induction turns with
  | nil => rfl
  | cons turn rest ih =>
      have idle : session.take turn = (session, []) := by
        rw [take, step_of_released turn.cache session turn.event released]
      rw [play_cons, idle, ih, List.append_nil]

theorem play_settled (domain : String) (origin : Option Endpoint)
    (transform : Option Transform) (turns : List Turn) :
    Settled ((fresh domain origin transform).play turns).1 ∧
      ((fresh domain origin transform).play turns).2.count .release =
        if ((fresh domain origin transform).play turns).1.released then 1 else 0 := by
  refine play_induction (motive := fun _ session actions =>
    Settled session ∧ actions.count .release = if session.released then 1 else 0)
    _ ⟨fresh_settled domain origin transform, rfl⟩ ?_ turns
  rintro _ session actions turn ⟨settled, counted⟩
  obtain ⟨settledAfter, others, clean, actionsEq⟩ := session.take_releases turn settled
  refine ⟨settledAfter, ?_⟩
  rw [List.count_append, counted, actionsEq, List.count_append,
    List.count_eq_zero_of_not_mem clean]
  cases before : session.released with
  | true =>
      have idle : (session.take turn).1 = session := by
        rw [take, step_of_released turn.cache session turn.event before]
      simp [idle, before]
  | false => cases (session.take turn).1.released <;> simp

/-- A run answers `release` at most once, as the last action of its event, and exactly if it comes
to the state in which neither the client nor an origin holds the session; from then on nothing
happens any more. -/
theorem release_exactly_once (domain : String) (origin : Option Endpoint)
    (transform : Option Transform) (turns : List Turn) :
    let session := ((fresh domain origin transform).play turns).1
    let actions := ((fresh domain origin transform).play turns).2
    (session.released = true ↔
      session.clientTerminated = true ∧ session.originAttached = false) ∧
    (session.released = true ↔ session.state = .terminal) ∧
    actions.count .release ≤ 1 ∧
    (.release ∈ actions ↔ ∃ before after, turns = before ++ after ∧
      ((fresh domain origin transform).play before).1.state = .terminal) ∧
    (∀ turn, .release ∈ (session.take turn).2 →
      ∃ others, (session.take turn).2 = others ++ [.release] ∧ .release ∉ others) ∧
    (session.released = true →
      ∀ cache event, session.step cache event = (cache, session, [])) := by
  intro session actions
  obtain ⟨settled, counted⟩ := play_settled domain origin transform turns
  refine ⟨settled.released_iff, settled.terminal_iff.symm, ?_, ?_, ?_, ?_⟩
  · rw [counted]
    split <;> simp
  · rw [← List.count_pos_iff, counted]
    constructor
    · intro positive
      refine ⟨turns, [], (List.append_nil turns).symm, settled.terminal_iff.mpr ?_⟩
      by_contra alive
      rw [if_neg alive] at positive
      exact Nat.lt_irrefl 0 positive
    · rintro ⟨before, after, rfl, terminal⟩
      have released := (play_settled domain origin transform before).1.terminal_iff.mp terminal
      rw [play_append, play_of_released _ after released, if_pos released]
      exact Nat.one_pos
  · intro turn member
    obtain ⟨_, others, clean, actionsEq⟩ := session.take_releases turn settled
    refine ⟨others, ?_, clean⟩
    rw [actionsEq] at member ⊢
    split at member
    · exact absurd (by simpa using member) clean
    · rename_i freed
      rw [if_neg freed]
  · intro released cache event
    exact step_of_released cache session event released

end CachingProxy.Session
