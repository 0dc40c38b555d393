import CachingProxy.Proofs.Session.Lifecycle

/-!
# How far the answer has come

The state of a session, its flags and what its client has been given fit together: a session that
waits has said nothing, one whose origin is done or gone has given its client a whole answer, or the
client is gone.  With this invariant `play_rule_induction` proves a property of all runs rule by
rule.
-/

set_option autoImplicit false

namespace CachingProxy.Session

structure Accounted (session : Session) : Prop extends Settled session where
  early : session.state = .new ∨ session.state = .connecting →
    session.originAttached = false ∧ session.originDone = false ∧ session.progress = .none
  running : session.state = .streaming →
    session.originAttached = true ∧ session.originDone = false
  unsent : session.originAttached = true → session.originDone = false →
    session.progress ≠ .sent
  answered : session.clientTerminated = false → session.state ≠ .new →
    session.state ≠ .connecting → session.originAttached = false ∨ session.originDone = true →
    session.progress = .sent

theorem fresh_accounted (domain : String) (origin : Option Endpoint)
    (transform : Option Transform) : Accounted (fresh domain origin transform) where
  toSettled := fresh_settled domain origin transform
  early _ := ⟨rfl, rfl, rfl⟩
  running := by simp [fresh]
  unsent := by simp [fresh]
  answered _ notNew := absurd rfl notNew

namespace Accounted

section

variable {session : Session}

theorem finished (settled : Settled session)
    (past : session.state ≠ .new ∧ session.state ≠ .connecting ∧ session.state ≠ .streaming)
    (closed : session.originAttached = true → session.originDone = true)
    (told : session.clientTerminated = false → session.progress = .sent) :
    Accounted session where
  toSettled := settled
  early waits := (waits.elim past.1 past.2.1).elim
  running streams := absurd streams past.2.2
  unsent attached undone := by
    rw [closed attached] at undone
    exact absurd undone Bool.noConfusion
  answered present _ _ _ := told present

theorem underway (settled : Settled session)
    (past : session.state ≠ .new ∧ session.state ≠ .connecting)
    (attached : session.originAttached = true) (undone : session.originDone = false)
    (unsent : session.progress ≠ .sent) : Accounted session where
  toSettled := settled
  early waits := (waits.elim past.1 past.2).elim
  running _ := ⟨attached, undone⟩
  unsent _ _ := unsent
  answered _ _ _ closed := by
    rw [attached, undone] at closed
    rcases closed with detached | done
    · exact absurd detached.symm Bool.false_ne_true
    · exact absurd done Bool.false_ne_true

theorem unbegun (accounted : Accounted session)
    (start : session.state = .new ∨ session.state = .connecting) : session.progress = .none :=
  (accounted.early start).2.2

theorem not_attached (accounted : Accounted session)
    (start : session.state = .new ∨ session.state = .connecting) :
    ¬ session.originAttached = true := by
  rw [(accounted.early start).1]
  exact Bool.false_ne_true

theorem streaming_of_begun (accounted : Accounted session)
    (attached : session.originAttached = true) (undone : session.originDone = false)
    (begun : session.progress ≠ .none) : session.progress = .streaming := by
  have unsent := accounted.unsent attached undone
  cases progress : session.progress with
  | none => exact absurd progress begun
  | streaming => rfl
  | sent => exact absurd progress unsent

theorem present_of_waiting (accounted : Accounted session) (alive : session.released = false)
    (waiting : session.state = .connecting) : ¬ session.clientTerminated = true := by
  intro gone
  exact accounted.not_attached (.inr waiting) (accounted.attached_of_gone alive gone)

end

end Accounted

section

variable {cache : ContentCache} {session : Session} {event : Event}
  {result : Session × List Action}

theorem Moves.accounted (rule : Moves cache session event result)
    (alive : session.released = false) (accounted : Accounted session) :
    Accounted result.1 := by
  have settled := rule.settled alive accounted.toSettled
  cases rule with
  | hit start | unserved start =>
      refine .finished settled (by simp) (fun attached => ?_) (fun _ => rfl)
      exact absurd attached (accounted.not_attached (.inl start))
  | asked start =>
      have early := accounted.early (.inl start)
      refine ⟨settled, fun _ => early, by simp, fun attached => ?_, fun _ _ waits => ?_⟩
      · exact absurd attached (accounted.not_attached (.inl start))
      · exact absurd rfl waits
  | connected waiting =>
      obtain ⟨_, undone, unbegun⟩ := accounted.early (.inr waiting)
      exact .underway settled (by simp) rfl undone (by simp [unbegun])
  | unconnected waiting =>
      refine .finished settled (by simp) (fun attached => ?_) (fun _ => rfl)
      exact absurd attached (accounted.not_attached (.inr waiting))
  | unconnectedAlone waiting gone =>
      exact absurd gone (accounted.present_of_waiting alive waiting)
  | bodyHeld | bodyForwarded | eomHeld | eomForwarded | bodyKept | bodySent | paused | resumed =>
      exact ⟨settled, accounted.early, accounted.running, accounted.unsent, accounted.answered⟩
  | completed =>
      exact ⟨settled, accounted.early, accounted.running, accounted.unsent, by simp⟩
  | left => exact ⟨settled, by simp, by simp, accounted.unsent, by simp⟩
  | completedLast _ detached | leftLast _ detached =>
      exact .finished settled (by simp) (by simp [detached]) (by simp)
  | headersKept attached undone | headersUnseen attached undone =>
      exact .underway settled (by simp) attached undone (accounted.unsent attached undone)
  | headersSent attached undone => exact .underway settled (by simp) attached undone (by simp)
  | endUnseen _ gone | failedUnseen _ _ gone =>
      exact .finished settled (by simp) (fun _ => rfl) (by simp [gone])
  | endSent | endAnswered | endMissing | failedUnanswered | detachedUnanswered =>
      exact .finished settled (by simp) (fun _ => rfl) (fun _ => rfl)
  | failedBegun | detachedBegun => exact .finished settled (by simp) (fun _ => rfl) (by simp)
  | detachedLast _ gone => exact .finished settled (by simp) (by simp) (by simp [gone])
  | detachedDone attached present done =>
      refine ⟨settled, fun waits => ?_, fun streams => ?_, by simp, fun _ notNew notWaiting _ => ?_⟩
      · exact ⟨rfl, (accounted.early waits).2⟩
      · have undone := (accounted.running streams).2
        rw [done] at undone
        exact absurd undone.symm Bool.false_ne_true
      · exact accounted.answered present notNew notWaiting (.inr done)

/-! ## The request -/

/-- What a session knows of its request, after the given events. -/
structure Asked (events : List Event) (session : Session) : Prop where
  unasked : session.state = .new → asked? events = none
  asked : session.state ≠ .new → session.released = false → ∃ request,
    asked? events = some request ∧ session.method = request.method ∧ session.path = request.path

theorem Asked.carried {events : List Event} {next : Session} (asked : Asked events session)
    (alive : session.released = false) (other : event.request? = none)
    (method : next.method = session.method)
    (path : next.path = session.path) (new : next.state = .new → session.state = .new)
    (old : next.state ≠ .new → next.released = false → session.state ≠ .new) :
    Asked (events ++ [event]) next := by
  have same : asked? (events ++ [event]) = asked? events := by
    rw [asked?_concat, other, Option.or_none]
  refine ⟨fun start => ?_, fun started held => ?_⟩
  · rw [same]
    exact asked.unasked (new start)
  · rw [same, method, path]
    exact asked.asked (old started held) alive

theorem Asked.ignored {events : List Event} (asked : Asked events session)
    (settled : Settled session) (unused : session.ignores event = true) :
    Asked (events ++ [event]) session := by
  cases alive : session.released with
  | true =>
      refine ⟨fun new => ?_, fun _ held => absurd (alive.symm.trans held) Bool.noConfusion⟩
      rw [settled.terminal_iff.mpr alive] at new
      cases new
  | false =>
      cases event with
      | request head =>
          have started : session.state ≠ .new := by simpa [ignores, alive] using unused
          obtain ⟨request, first, same⟩ := asked.asked started alive
          refine ⟨fun new => absurd new started, fun _ _ => ⟨request, ?_, same⟩⟩
          rw [asked?_concat, first, Option.some_or]
      | _ => exact asked.carried alive rfl rfl rfl id (fun started _ => started)

theorem Moves.request_known {events : List Event}
    (rule : Moves cache session event result) (alive : session.released = false)
    (accounted : Accounted session) (asked : Asked events session) :
    Asked (events ++ [event]) result.1 := by
  -- An origin is attached only after the request.
  have started : session.originAttached = true → session.state ≠ .new := by
    intro attached new
    exact accounted.not_attached (.inl new) attached
  cases rule with
  | hit start | unserved start | asked start =>
      refine ⟨by simp, fun _ _ => ⟨_, ?_, rfl, rfl⟩⟩
      rw [asked?_concat, asked.unasked start]
      rfl
  | bodyHeld | bodyForwarded | eomHeld | eomForwarded | completed | bodyKept | bodySent
  | detachedDone | paused | resumed =>
      exact asked.carried alive rfl rfl rfl id (fun old _ => old)
  | connected waiting | unconnected waiting =>
      exact asked.carried alive rfl rfl rfl (by simp) (fun _ _ => by simp [waiting])
  | unconnectedAlone waiting gone =>
      exact absurd gone (accounted.present_of_waiting alive waiting)
  | endUnseen running | endSent running | endAnswered running | endMissing running =>
      exact asked.carried alive rfl rfl rfl (by simp) (fun _ _ => by simp [running])
  | completedLast | leftLast | detachedLast | detachedBegun =>
      exact asked.carried alive rfl rfl rfl (by simp) (by simp)
  | left _ attached | failedUnseen _ attached | failedUnanswered _ attached
  | failedBegun _ attached =>
      exact asked.carried alive rfl rfl rfl (by simp) (fun _ _ => started attached)
  | headersKept attached | headersUnseen attached | headersSent attached
  | detachedUnanswered attached =>
      exact asked.carried alive rfl rfl rfl (by simp) (fun _ _ => started attached)

end

/-! ## All runs -/

/-- A property of all runs of a new session: it holds at the start, a turn that is ignored keeps it,
and so does every rule. -/
theorem play_rule_induction {motive : List Turn → Session → List Action → Prop}
    (domain : String) (origin : Option Endpoint) (transform : Option Transform)
    (start : motive [] (fresh domain origin transform) [])
    (ignored : ∀ turns session actions turn, Accounted session →
      session.ignores turn.event = true → motive turns session actions →
      motive (turns ++ [turn]) session actions)
    (moved : ∀ turns session actions turn result, Accounted session →
      session.released = false → Moves turn.cache session turn.event result →
      motive turns session actions → motive (turns ++ [turn]) result.1 (actions ++ result.2))
    (turns : List Turn) :
    Accounted ((fresh domain origin transform).play turns).1 ∧
      motive turns ((fresh domain origin transform).play turns).1
        ((fresh domain origin transform).play turns).2 := by
  refine play_induction (motive := fun turns session actions =>
    Accounted session ∧ motive turns session actions)
    _ ⟨fresh_accounted domain origin transform, start⟩ ?_ turns
  rintro turns session actions turn ⟨accounted, holds⟩
  rcases session.take_cases turn with ⟨unused, same⟩ | ⟨_, alive, rule⟩
  · rw [same, List.append_nil]
    exact ⟨accounted, ignored turns session actions turn accounted unused holds⟩
  · exact ⟨rule.accounted alive accounted,
      moved turns session actions turn _ accounted alive rule holds⟩

theorem play_accounted (domain : String) (origin : Option Endpoint)
    (transform : Option Transform) (turns : List Turn) :
    Accounted ((fresh domain origin transform).play turns).1 :=
  (play_rule_induction (motive := fun _ _ _ => True) domain origin transform trivial
    (fun _ _ _ _ _ _ => id) (fun _ _ _ _ _ _ _ _ => id) turns).1

theorem play_asked (domain : String) (origin : Option Endpoint) (transform : Option Transform)
    (turns : List Turn) :
    Asked (turns.map Turn.event) ((fresh domain origin transform).play turns).1 := by
  refine (play_rule_induction (motive := fun turns session _ =>
    Asked (turns.map Turn.event) session) domain origin transform
    ⟨fun _ => rfl, fun old => absurd rfl old⟩ ?_ ?_ turns).2
  · intro turns session _ turn accounted unused asked
    rw [List.map_append]
    exact asked.ignored accounted.toSettled unused
  · intro turns session _ turn result accounted alive rule asked
    rw [List.map_append]
    exact rule.request_known alive accounted asked

end CachingProxy.Session
