import CachingProxy.Proofs.Session.Progress

/-!
# What a client is told

The actions of a session that its client can see form one answer: none yet, a complete one, or a
streamed one that goes on, has ended or was broken off.  `Told` gives these shapes, by how far the
session believes its answer to be and by whether its client is gone.
-/

set_option autoImplicit false

namespace CachingProxy.Session

def Action.toClient : Action → Bool
  | .respond _ | .sendHeaders _ | .sendBody _ | .sendEom | .abortClient => true
  | _ => false

def streamed (head : ResponseHead) (chunks : List Bytes) : List Action :=
  .sendHeaders head :: chunks.map .sendBody

inductive Told : Progress → Bool → List Action → Prop where
  | nothing (gone : Bool) : Told .none gone []
  | whole (gone : Bool) (response : Response) : Told .sent gone [.respond response]
  | partly (gone : Bool) (head : ResponseHead) (chunks : List Bytes) :
      Told .streaming gone (streamed head chunks)
  | ended (gone : Bool) (head : ResponseHead) (chunks : List Bytes) :
      Told .sent gone (streamed head chunks ++ [.sendEom])
  | broken (head : ResponseHead) (chunks : List Bytes) :
      Told .streaming true (streamed head chunks ++ [.abortClient])

namespace Told

variable {progress : Progress} {gone : Bool} {told : List Action}

theorem leave (sofar : Told progress gone told) : Told progress true told := by
  cases sofar with
  | nothing => exact .nothing true
  | whole _ response => exact .whole true response
  | partly _ head chunks => exact .partly true head chunks
  | ended _ head chunks => exact .ended true head chunks
  | broken head chunks => exact .broken head chunks

theorem answer (sofar : Told progress gone told) (unbegun : progress = .none)
    (response : Response) : Told .sent gone (told ++ [.respond response]) := by
  subst unbegun
  cases sofar
  exact .whole gone response

theorem begin (sofar : Told progress gone told) (unbegun : progress = .none)
    (head : ResponseHead) : Told .streaming gone (told ++ [.sendHeaders head]) := by
  subst unbegun
  cases sofar
  exact .partly gone head []

theorem add (sofar : Told progress gone told) (begun : progress = .streaming)
    (present : gone = false) (chunk : Bytes) :
    Told progress gone (told ++ [.sendBody chunk]) := by
  subst begun present
  cases sofar with
  | partly _ head chunks =>
      have longer := Told.partly false head (chunks ++ [chunk])
      rw [streamed, List.map_append] at longer
      exact longer

theorem finish (sofar : Told progress gone told) (begun : progress = .streaming)
    (present : gone = false) : Told .sent gone (told ++ [.sendEom]) := by
  subst begun present
  cases sofar with
  | partly _ head chunks => exact .ended false head chunks

theorem abort (sofar : Told progress gone told) (begun : progress = .streaming)
    (present : gone = false) : Told progress true (told ++ [.abortClient]) := by
  subst begun present
  cases sofar with
  | partly _ head chunks => exact .broken head chunks

end Told

/-! ## Answers -/

def CompleteAnswer (shown : List Action) : Prop :=
  (∃ response, shown = [.respond response]) ∨
    ∃ head chunks, shown = streamed head chunks ++ [.sendEom]

/-- One answer at most, as far as it has come. -/
def OneAnswer (shown : List Action) : Prop :=
  shown = [] ∨ CompleteAnswer shown ∨
    ∃ head chunks, shown = streamed head chunks ∨ shown = streamed head chunks ++ [.abortClient]

theorem Told.oneAnswer {progress : Progress} {gone : Bool} {told : List Action}
    (sofar : Told progress gone told) : OneAnswer told := by
  cases sofar with
  | nothing => exact .inl rfl
  | whole _ response => exact .inr (.inl (.inl ⟨response, rfl⟩))
  | partly _ head chunks => exact .inr (.inr ⟨head, chunks, .inl rfl⟩)
  | ended _ head chunks => exact .inr (.inl (.inr ⟨head, chunks, rfl⟩))
  | broken head chunks => exact .inr (.inr ⟨head, chunks, .inr rfl⟩)

theorem Told.completeAnswer {gone : Bool} {told : List Action} (sofar : Told .sent gone told) :
    CompleteAnswer told := by
  cases sofar with
  | whole _ response => exact .inl ⟨response, rfl⟩
  | ended _ head chunks => exact .inr ⟨head, chunks, rfl⟩

/-- Whether a client may be shown an action behind others: a head or a whole answer before all
else, and of a stream nothing behind its end. -/
def mayTell (before : List Action) : Action → Prop
  | .respond _ | .sendHeaders _ => ∀ action ∈ before, action.toClient = false
  | .sendBody _ | .sendEom | .abortClient =>
      (∃ head, .sendHeaders head ∈ before) ∧ .sendEom ∉ before ∧ .abortClient ∉ before
  | _ => True

theorem mem_streamed {chunks : List Bytes} {last before after : List Action} {action : Action}
    (short : last.length ≤ 1) (listed : chunks.map .sendBody ++ last = before ++ action :: after) :
    (∀ other ∈ before, ∃ chunk, other = .sendBody chunk) ∧
      (action ∈ last ∨ ∃ chunk, action = .sendBody chunk) := by
  have bodies : ∀ other ∈ chunks.map Action.sendBody, ∃ chunk, other = .sendBody chunk := by
    intro other member
    obtain ⟨chunk, _, rfl⟩ := List.mem_map.mp member
    exact ⟨chunk, rfl⟩
  rcases List.append_eq_append_iff.mp listed with ⟨between, rfl, split⟩ | ⟨between, split, rest⟩
  · -- The action is the last, since no more than one is left.
    rw [split, List.length_append, List.length_cons] at short
    have none : between = [] := List.eq_nil_of_length_eq_zero (by omega)
    subst none
    rw [List.append_nil]
    refine ⟨bodies, .inl ?_⟩
    rw [split]
    exact List.mem_cons_self
  · refine ⟨fun other member => bodies other ?_, ?_⟩
    · rw [split]
      exact List.mem_append_left _ member
    · cases between with
      | nil =>
          rw [List.nil_append] at rest
          rw [← rest]
          exact .inl List.mem_cons_self
      | cons first between =>
          rw [List.cons_append, List.cons.injEq] at rest
          refine .inr (bodies action ?_)
          rw [split, rest.1]
          exact List.mem_append_right _ List.mem_cons_self

theorem not_toClient {before : List Action} (nothing : before.filter Action.toClient = []) :
    ∀ action ∈ before, action.toClient = false := by
  intro action member
  simpa using List.filter_eq_nil_iff.mp nothing action member

theorem mayTell_of_streamed {head : ResponseHead} {chunks : List Bytes}
    {last before after : List Action} {action : Action}
    (ends : last = [] ∨ last = [.sendEom] ∨ last = [.abortClient])
    (listed : before.filter Action.toClient ++ action :: after = streamed head chunks ++ last) :
    mayTell before action := by
  have short : last.length ≤ 1 := by rcases ends with rfl | rfl | rfl <;> simp
  cases shown : before.filter Action.toClient with
  | nil =>
      rw [shown, streamed, List.nil_append, List.cons_append, List.cons.injEq] at listed
      rw [listed.1]
      exact not_toClient shown
  | cons first others =>
      rw [shown, streamed, List.cons_append, List.cons_append, List.cons.injEq] at listed
      obtain ⟨rfl, listed⟩ := listed
      obtain ⟨bodies, now⟩ := mem_streamed short listed.symm
      have begun : .sendHeaders head ∈ before.filter Action.toClient := by
        rw [shown]
        exact List.mem_cons_self
      have unended : ∀ other, other ∈ before → other.toClient = true →
          other = .sendHeaders head ∨ ∃ chunk, other = .sendBody chunk := by
        intro other member visible
        have listed := List.mem_filter.mpr ⟨member, visible⟩
        rw [shown, List.mem_cons] at listed
        exact listed.imp_right (bodies other)
      cases action with
      | sendBody | sendEom | abortClient =>
          refine ⟨⟨head, (List.mem_filter.mp begun).1⟩, fun ended => ?_, fun broken => ?_⟩
          · simpa using unended _ ended rfl
          · simpa using unended _ broken rfl
      | respond | sendHeaders =>
          rcases now with final | ⟨chunk, same⟩
          · rcases ends with rfl | rfl | rfl <;> simp at final
          · cases same
      | _ => trivial

theorem OneAnswer.mayTell {before after : List Action} {action : Action}
    (one : OneAnswer ((before ++ action :: after).filter Action.toClient)) :
    mayTell before action := by
  rw [List.filter_append] at one
  cases visible : action.toClient with
  | false => cases action <;> trivial
  | true =>
      rw [List.filter_cons_of_pos visible] at one
      rcases one with none | (⟨response, whole⟩ | ⟨head, chunks, ended⟩) |
        ⟨head, chunks, part | broken⟩
      · simp at none
      · obtain ⟨nothing, rest⟩ := (List.append_eq_singleton_iff.mp whole).resolve_right (by simp)
        rw [List.cons.injEq] at rest
        rw [rest.1]
        exact not_toClient nothing
      · exact mayTell_of_streamed (.inr (.inl rfl)) ended
      · exact mayTell_of_streamed (.inl rfl) (part.trans (List.append_nil _).symm)
      · exact mayTell_of_streamed (.inr (.inr rfl)) broken

/-! ## One event -/

theorem connected_unseen (request : RequestHead) (pending : List Bytes) (eom : Bool) :
    (Action.sendOriginRequest request :: pending.map .forwardBody ++
      (if eom then [Action.forwardEom] else []) ++ [Action.resumeIngress]).filter Action.toClient =
      [] := by
  have bodies : (pending.map Action.forwardBody).filter Action.toClient = [] := by
    rw [List.filter_eq_nil_iff]
    intro action member
    obtain ⟨chunk, _, rfl⟩ := List.mem_map.mp member
    exact Bool.false_ne_true
  cases eom <;> simp [bodies, Action.toClient]

section

variable {cache : ContentCache} {session : Session} {event : Event}
  {result : Session × List Action}

theorem Moves.told {told : List Action} (rule : Moves cache session event result)
    (alive : session.released = false) (accounted : Accounted session)
    (fresh : event.isOriginHeaders = true → session.progress ≠ .streaming)
    (sofar : Told session.progress session.clientTerminated told) :
    Told result.1.progress result.1.clientTerminated
      (told ++ result.2.filter Action.toClient) := by
  cases rule with
  | hit start | unserved start => exact sofar.answer (accounted.unbegun (.inl start)) _
  | unconnected waiting => exact sofar.answer (accounted.unbegun (.inr waiting)) _
  | connected =>
      rw [connected_unseen, List.append_nil]
      exact sofar
  | unconnectedAlone waiting gone =>
      exact absurd gone (accounted.present_of_waiting alive waiting)
  | asked | bodyHeld | bodyForwarded | eomHeld | eomForwarded | headersKept | headersUnseen
  | bodyKept | endUnseen | failedUnseen | detachedLast | detachedDone | paused | resumed =>
      simpa [Action.toClient] using sofar
  | completed | completedLast | left | leftLast =>
      simpa [Action.toClient] using sofar.leave
  | headersSent attached undone =>
      have unsent := accounted.unsent attached undone
      have unbegun : session.progress = .none := by
        by_contra begun
        exact fresh rfl (accounted.streaming_of_begun attached undone begun)
      exact sofar.begin unbegun _
  | bodySent _ _ begun present => exact sofar.add begun present _
  | endSent _ present begun => exact sofar.finish begun present
  | endAnswered running _ unbegun | endMissing running _ unbegun =>
      obtain ⟨attached, undone⟩ := accounted.running running
      refine sofar.answer ?_ _
      by_contra begun
      exact unbegun (accounted.streaming_of_begun attached undone begun)
  | failedUnanswered _ _ _ unbegun | detachedUnanswered _ _ _ unbegun =>
      exact sofar.answer unbegun _
  | failedBegun undone attached present begun =>
      exact sofar.abort (accounted.streaming_of_begun attached undone begun) present
  | detachedBegun attached present undone begun =>
      exact sofar.abort (accounted.streaming_of_begun attached undone begun) present

/-- Only a head of the origin begins a streamed answer. -/
theorem Moves.begun (rule : Moves cache session event result)
    (unbegun : session.progress ≠ .streaming) (other : event.isOriginHeaders = false) :
    result.1.progress ≠ .streaming := by
  cases rule with
  | headersKept | headersUnseen | headersSent => exact absurd other Bool.noConfusion
  | unconnectedAlone =>
      rw [abortClient, releaseIfDone]
      split <;> exact unbegun
  | hit | unserved | unconnected | endSent | endAnswered | endMissing | failedUnanswered
  | detachedUnanswered => simp
  | _ => exact unbegun

/-- A client is gone by its own doing, or because its answer was broken off. -/
theorem Moves.gone (rule : Moves cache session event result) (alive : session.released = false)
    (accounted : Accounted session) (gone : result.1.clientTerminated = true) :
    session.clientTerminated = true ∨ event = .clientComplete ∨ event = .clientError ∨
      .abortClient ∈ result.2 := by
  cases rule with
  | completed | completedLast => exact .inr (.inl rfl)
  | left | leftLast => exact .inr (.inr (.inl rfl))
  | failedBegun | detachedBegun => exact .inr (.inr (.inr (by simp)))
  | unconnectedAlone waiting alone =>
      exact absurd alone (accounted.present_of_waiting alive waiting)
  | _ => exact .inl gone

end

/-! ## A whole run -/

theorem play_gone (domain : String) (origin : Option Endpoint) (transform : Option Transform)
    (turns : List Turn) :
    ((fresh domain origin transform).play turns).1.clientTerminated = true →
      .clientComplete ∈ turns.map Turn.event ∨ .clientError ∈ turns.map Turn.event ∨
        .abortClient ∈ ((fresh domain origin transform).play turns).2 := by
  refine (play_rule_induction (motive := fun turns session actions =>
    session.clientTerminated = true → .clientComplete ∈ turns.map Turn.event ∨
      .clientError ∈ turns.map Turn.event ∨ .abortClient ∈ actions)
    domain origin transform ?start ?ignored ?moved turns).2
  case start => exact fun gone => absurd gone Bool.false_ne_true
  case ignored =>
    intro turns session actions turn _ _ reason gone
    rw [List.map_append]
    exact (reason gone).imp (List.mem_append_left _) (Or.imp_left (List.mem_append_left _))
  case moved =>
    intro turns session actions turn result accounted alive rule reason gone
    simp only [List.map_append, List.mem_append]
    rcases rule.gone alive accounted gone with before | complete | failed | broken
    · exact (reason before).imp .inl (Or.imp .inl .inl)
    · exact .inl (.inr (by simp [complete]))
    · exact .inr (.inl (.inr (by simp [failed])))
    · exact .inr (.inr (.inr broken))

theorem play_told (domain : String) (origin : Option Endpoint) (transform : Option Transform)
    (turns : List Turn) :
    let session := ((fresh domain origin transform).play turns).1
    let actions := ((fresh domain origin transform).play turns).2
    Accounted session ∧
      (turns.countP (fun turn => turn.event.isOriginHeaders) = 0 →
        session.progress ≠ .streaming) ∧
      (turns.countP (fun turn => turn.event.isOriginHeaders) ≤ 1 →
        Told session.progress session.clientTerminated (actions.filter Action.toClient)) := by
  refine play_rule_induction (motive := fun turns session actions =>
    (turns.countP (fun turn => turn.event.isOriginHeaders) = 0 →
      session.progress ≠ .streaming) ∧
    (turns.countP (fun turn => turn.event.isOriginHeaders) ≤ 1 →
      Told session.progress session.clientTerminated (actions.filter Action.toClient)))
    domain origin transform ?start ?ignored ?moved turns
  case start => exact ⟨by simp [fresh], fun _ => .nothing false⟩
  case ignored =>
    rintro turns session actions turn - - ⟨unbegun, told⟩
    rw [List.countP_append]
    exact ⟨fun none => unbegun (by omega), fun few => told (by omega)⟩
  case moved =>
    rintro turns session actions turn result accounted alive rule ⟨unbegun, told⟩
    rw [List.countP_append, List.countP_singleton, List.filter_append]
    refine ⟨fun none => ?_, fun few => ?_⟩
    · split at none
      · omega
      · rename_i other
        exact rule.begun (unbegun (by omega)) (by simpa using other)
    · refine rule.told alive accounted (fun head => ?_) (told (by omega))
      rw [if_pos head] at few
      exact unbegun (by omega)

/-- When the origin begins its answer at most once, the client sees one answer at most, and a client
that waits for neither a connection nor an origin has been given a complete one. -/
theorem client_told_one_answer (domain : String) (origin : Option Endpoint)
    (transform : Option Transform) (turns : List Turn)
    (once : turns.countP (fun turn => turn.event.isOriginHeaders) ≤ 1) :
    let session := ((fresh domain origin transform).play turns).1
    let shown := ((fresh domain origin transform).play turns).2.filter Action.toClient
    OneAnswer shown ∧
      (asked? (turns.map Turn.event) ≠ none → session.clientTerminated = false →
        session.state ≠ .connecting → session.originAttached = false → CompleteAnswer shown) := by
  intro session shown
  obtain ⟨accounted, _, told⟩ := play_told domain origin transform turns
  have sofar := told once
  refine ⟨sofar.oneAnswer, ?_⟩
  intro asked present notWaiting detached
  have notNew : session.state ≠ .new := by
    intro new
    exact asked ((play_asked domain origin transform turns).unasked new)
  have sent : session.progress = .sent :=
    accounted.answered present notNew notWaiting (.inl detached)
  rw [sent] at sofar
  exact sofar.completeAnswer

/-- A request that is not a GET is answered in a stream. -/
theorem post_told_whole_stream :
    let cache : ContentCache := { partitions := [], maxEntries := 1 }
    let turns := [.request { method := "POST", uri := .rooted "/" none }, .connectSuccess,
      .originHeaders ⟨201, []⟩, .originBody [1], .originBody [2, 3], .originEom,
      .originDetached].map (Turn.mk cache)
    let shown := ((fresh "example.com" (some ⟨"10.0.0.1", 80⟩) none).play turns).2.filter
      Action.toClient
    turns.countP (fun turn => turn.event.isOriginHeaders) ≤ 1 ∧ CompleteAnswer shown ∧
      shown = streamed ⟨201, []⟩ [[1], [2, 3]] ++ [.sendEom] := by
  intro cache turns shown
  have once : turns.countP (fun turn => turn.event.isOriginHeaders) ≤ 1 := by decide
  refine ⟨once, ?_, by decide⟩
  exact (client_told_one_answer _ _ _ turns once).2 (by decide) (by decide) (by decide) (by decide)

end CachingProxy.Session
