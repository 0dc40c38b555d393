import CachingProxy.Proofs.Cache.FirstOffer
import CachingProxy.Proofs.Session.Assembly

/-!
# What a session does to the cache

A session looks its request up once and offers its complete answer once, if at all.  `offer?` names
that one event; no other event changes a cache, and after it none does.
-/

set_option autoImplicit false

namespace CachingProxy

namespace Session

/-- The answer that a session completes at an event: to a GET, with status 200, while its client is
there. -/
def offer? (session : Session) : Event → Option Offer
  | .originEom =>
      if session.state = .streaming ∧ session.clientTerminated = false ∧
          session.method = "GET" then
        match session.responseHead, session.responseBody with
        | some head, some body =>
            if head.status = 200 then some ⟨session.domain, session.path, body, head.headers⟩
            else none
        | _, _ => none
      else none
  | _ => none

/-! ## One event -/

theorem onOriginEom_of_kept (cache : ContentCache) {session : Session} {head : ResponseHead}
    {body : Bytes} (alive : session.released = false) (running : session.state = .streaming)
    (present : session.clientTerminated = false) (unbegun : session.progress ≠ .streaming)
    (keptHead : session.responseHead = some head) (kept : session.responseBody = some body) :
    session.onOriginEom cache =
      (session.store cache head body,
        { session with
          state := .originComplete, originDone := true
          responseHead := none, responseBody := none, progress := .sent },
        [.respond ⟨{ head with headers := head.headers.erase "content-length" }, body⟩]) := by
  rw [onOriginEom, if_neg (by simp [alive, running])]
  simp only [present, Bool.false_eq_true, if_false, if_neg unbegun, keptHead, kept, store]

theorem onOriginEom_cache (cache : ContentCache) (session : Session) :
    (session.onOriginEom cache).1 = cache ∨ ∃ offer, session.offer? .originEom = some offer ∧
      (session.onOriginEom cache).1 = offer.storeIn cache := by
  cases used : session.ignores .originEom with
  | true => exact .inl (congrArg Prod.fst (step_of_ignores cache session .originEom used))
  | false =>
      obtain ⟨alive, running⟩ : session.released = false ∧ session.state = .streaming := by
        simpa [ignores] using used
      rw [onOriginEom, if_neg (by simp [alive, running])]
      by_cases gone : session.clientTerminated = true
      · exact .inl (by simp only [if_pos gone])
      by_cases begun : session.progress = .streaming
      · exact .inl (by simp only [if_neg gone, if_pos begun])
      simp only [if_neg gone, if_neg begun]
      split
      · rename_i head body keptHead kept
        by_cases stored : session.method = "GET" ∧ head.status = 200
        · refine .inr ⟨⟨session.domain, session.path, body, head.headers⟩, ?_, ?_⟩
          · simp [offer?, running, gone, stored, keptHead, kept]
          · simp [store, stored, Offer.storeIn]
        · exact .inl (by simp [store, stored])
      · exact .inl rfl

theorem step_cache (cache : ContentCache) (session : Session) (event : Event) :
    (session.step cache event).1 = cache ∨
      (session.state = .new ∧ ∃ head, event = .request head ∧ head.method = "GET" ∧
        (session.step cache event).1 = (cache.get session.domain head.path).2) ∨
      ∃ offer, session.offer? event = some offer ∧
        (session.step cache event).1 = offer.storeIn cache := by
  cases event with
  | request head =>
      cases used : session.ignores (.request head) with
      | true => exact .inl (by rw [step_of_ignores cache session _ used])
      | false =>
          obtain ⟨alive, start⟩ : session.released = false ∧ session.state = .new := by
            simpa [ignores] using used
          rw [step, onRequest, if_neg (by simp [alive, start])]
          by_cases get : head.method = "GET"
          · refine .inr (.inl ⟨start, head, rfl, get, ?_⟩)
            simp only [if_pos get]
            split <;> rename_i answer <;> rw [answer]
          · exact .inl (by simp only [if_neg get])
  | originEom => exact (onOriginEom_cache cache session).imp id .inr
  | _ => exact .inl rfl

theorem running_of_offer {session : Session} {event : Event} {offer : Offer}
    (offered : session.offer? event = some offer) :
    event = .originEom ∧ session.state = .streaming ∧ session.clientTerminated = false ∧
      session.method = "GET" := by
  cases event with
  | originEom =>
      rw [offer?] at offered
      split at offered
      · rename_i complete
        exact ⟨rfl, complete⟩
      · cases offered
  | _ => cases offered

/-! ## A session whose origin is done -/

section

variable {cache : ContentCache} {session : Session} {event : Event}
  {result : Session × List Action}

structure Closed (session : Session) : Prop where
  old : session.state ≠ .new
  unasking : session.state ≠ .connecting
  stopped : session.state ≠ .streaming
  done : session.originDone = true

theorem Moves.closed (rule : Moves cache session event result) (closed : Closed session) :
    Closed result.1 := by
  cases rule with
  | hit start | unserved start | asked start => exact absurd start closed.old
  | connected waiting | unconnected waiting | unconnectedAlone waiting =>
      exact absurd waiting closed.unasking
  | headersKept _ undone | headersUnseen _ undone | headersSent _ undone =>
      exact absurd (closed.done.symm.trans undone) (by simp)
  | endUnseen running | endSent running | endAnswered running | endMissing running =>
      exact absurd running closed.stopped
  | completedLast | left | leftLast | detachedLast => exact ⟨by simp, by simp, by simp, closed.done⟩
  | failedUnseen | failedUnanswered | failedBegun | detachedUnanswered | detachedBegun =>
      exact ⟨by simp, by simp, by simp, rfl⟩
  | _ => exact ⟨closed.old, closed.unasking, closed.stopped, closed.done⟩

theorem Closed.play (closed : Closed session) (turns : List Turn) :
    Closed (session.play turns).1 := by
  induction turns using List.reverseRecOn with
  | nil => exact closed
  | append_singleton turns turn ih =>
      rw [play_concat]
      rcases (session.play turns).1.take_cases turn with ⟨_, same⟩ | ⟨_, _, rule⟩
      · rw [same]
        exact ih
      · exact rule.closed ih

theorem Closed.step_cache (closed : Closed session) (cache : ContentCache) (event : Event) :
    (session.step cache event).1 = cache := by
  rcases session.step_cache cache event with same | ⟨start, _⟩ | ⟨offer, offered, _⟩
  · exact same
  · exact absurd start closed.old
  · exact absurd (running_of_offer offered).2.1 closed.stopped

/-! ## The session does not see the cache again -/

/-- Only the request reads the cache. -/
theorem step_congr (blind : session.state ≠ .new ∨ event.request? = none)
    (first second : ContentCache) :
    (session.step first event).2 = (session.step second event).2 := by
  cases event with
  | request head =>
      have old : session.state ≠ .new := blind.resolve_right (by simp [Event.request?])
      have unused : session.ignores (.request head) = true := by simp [ignores, old]
      rw [step_of_ignores first session _ unused, step_of_ignores second session _ unused]
  | originEom =>
      simp only [step, onOriginEom]
      split
      · rfl
      split
      · rfl
      split
      · rfl
      split <;> rfl
  | _ => rfl

theorem Moves.old (rule : Moves cache session event result) (old : session.state ≠ .new) :
    result.1.state ≠ .new := by
  cases rule with
  | unconnectedAlone =>
      rw [abortClient, releaseIfDone]
      split <;> simp
  | bodyHeld | bodyForwarded | eomHeld | eomForwarded | completed | bodyKept | bodySent
  | detachedDone | paused | resumed => exact old
  | _ => simp

theorem take_old (old : session.state ≠ .new) (turn : Turn) :
    (session.take turn).1.state ≠ .new := by
  rcases session.take_cases turn with ⟨_, same⟩ | ⟨_, _, rule⟩
  · rw [same]
    exact old
  · exact rule.old old

theorem play_congr (first second : List Turn)
    (blind : session.state ≠ .new ∨ asked? (first.map Turn.event) = none)
    (same : first.map Turn.event = second.map Turn.event) :
    session.play first = session.play second := by
  induction first generalizing session second with
  | nil => rw [List.map_eq_nil_iff.mp same.symm]
  | cons turn rest ih =>
      obtain ⟨turn', rest', rfl, event, events⟩ := List.map_eq_cons_iff.mp same.symm
      have blinds : (session.state ≠ .new ∨ turn.event.request? = none) ∧
          ((session.take turn).1.state ≠ .new ∨ asked? (rest.map Turn.event) = none) := by
        rcases blind with old | unasked
        · exact ⟨.inl old, .inl (take_old old turn)⟩
        · obtain ⟨other, later⟩ := asked?_cons_eq_none.mp unasked
          exact ⟨.inr other, .inr later⟩
      have taken : session.take turn = session.take turn' := by
        rw [take, take, event]
        exact step_congr blinds.1 turn.cache turn'.cache
      rw [play_cons, play_cons, ← taken, ih rest' blinds.2 events.symm]

/-! ## A whole run -/

theorem Moves.domain_eq (rule : Moves cache session event result) :
    result.1.domain = session.domain := by
  cases rule with
  | unconnectedAlone =>
      rw [abortClient, releaseIfDone]
      split <;> rfl
  | _ => rfl

theorem take_domain (session : Session) (turn : Turn) :
    (session.take turn).1.domain = session.domain := by
  rcases session.take_cases turn with ⟨_, same⟩ | ⟨_, _, rule⟩
  · rw [same]
  · exact rule.domain_eq

theorem play_domain (session : Session) (turns : List Turn) :
    (session.play turns).1.domain = session.domain := by
  induction turns generalizing session with
  | nil => rfl
  | cons turn rest ih => rw [play_cons, ih, take_domain]

theorem Asked.of_streaming {events : List Event} (asked : Asked events session)
    (accounted : Accounted session) (running : session.state = .streaming) : ∃ request,
    asked? events = some request ∧ session.method = request.method ∧
      session.path = request.path :=
  asked.asked (by simp [running]) (accounted.alive (by simp [running]))

theorem onOriginEom_of_streaming {events : List Event} {request : RequestHead}
    (accounted : Accounted session) (asked : Asked events session)
    (assembled : Assembled events session) (first : asked? events = some request)
    (get : request.method = "GET") (running : session.state = .streaming)
    (present : session.clientTerminated = false) :
    ∃ head, (received events).head? = some head ∧
      session.offer? .originEom = (if head.status = 200 then
        some ⟨session.domain, request.path, (received events).body, head.headers.stripResponse⟩
        else none) ∧
      ∀ cache, session.onOriginEom cache =
        ((session.offer? .originEom).elim cache fun offer => offer.storeIn cache,
          { session with
            state := .originComplete, originDone := true
            responseHead := none, responseBody := none, progress := .sent },
          [.respond ⟨⟨head.status, head.headers.stripResponse.erase "content-length"⟩,
            (received events).body⟩]) := by
  have alive := accounted.alive (by simp [running])
  obtain ⟨known, knownFirst, method, path⟩ := asked.of_streaming accounted running
  obtain rfl := Option.some.inj (first.symm.trans knownFirst)
  rw [get] at method
  obtain ⟨head, last, keptHead, kept⟩ := assembled.kept running method
  have offered : session.offer? .originEom = (if head.status = 200 then
      some ⟨session.domain, request.path, (received events).body, head.headers.stripResponse⟩
      else none) := by
    simp [offer?, running, present, method, keptHead, kept, path]
  refine ⟨head, last, offered, fun cache => ?_⟩
  rw [onOriginEom_of_kept cache alive running present (assembled.unbegun method) keptHead kept,
    offered]
  by_cases ok : head.status = 200 <;> simp [store, method, ok, Offer.storeIn, path]

theorem step_cache_of_offer {events : List Event} {offer : Offer}
    (accounted : Accounted session) (asked : Asked events session)
    (assembled : Assembled events session) (offered : session.offer? event = some offer)
    (cache : ContentCache) : (session.step cache event).1 = offer.storeIn cache := by
  obtain ⟨rfl, running, present, get⟩ := running_of_offer offered
  obtain ⟨request, first, method, _⟩ := asked.of_streaming accounted running
  obtain ⟨_, _, _, completed⟩ := onOriginEom_of_streaming accounted asked assembled first
    (method.symm.trans get) running present
  rw [step, completed cache, offered]
  rfl

end

/-- At the end of the origin's answer to a GET the client is given what the origin has sent since
its last head, in one piece, and exactly an answer with status 200 is stored, once.  No other event
stores anything, and what comes of storing is not seen by the session. -/
theorem complete_get_answered_and_stored (domain : String) (origin : Option Endpoint)
    (transform : Option Transform) (turns : List Turn) :
    let session := ((fresh domain origin transform).play turns).1
    let events := turns.map Turn.event
    (∀ request, asked? events = some request → request.method = "GET" →
      session.state = .streaming → session.clientTerminated = false →
      ∃ head, (received events).head? = some head ∧ ∀ cache,
        (session.step cache .originEom).2.2 =
          [.respond ⟨⟨head.status, head.headers.stripResponse.erase "content-length"⟩,
            (received events).body⟩] ∧
        (session.step cache .originEom).1 =
          (if head.status = 200 then
            (cache.put domain request.path (received events).body head.headers.stripResponse).2
          else cache) ∧
        ∀ later other event,
          (((session.step cache .originEom).2.1.play later).1.step other event).1 = other) ∧
    (∀ event cache,
      (session.step cache event).1 = cache ∨
      (∃ head, event = .request head ∧ head.method = "GET" ∧
        (session.step cache event).1 = (cache.get domain head.path).2) ∨
      event = .originEom ∧ session.state = .streaming ∧ session.clientTerminated = false ∧
        ∃ request head, asked? events = some request ∧ request.method = "GET" ∧
          (received events).head? = some head ∧ head.status = 200) ∧
    (session.state ≠ .new → ∀ first second : List Turn,
      first.map Turn.event = second.map Turn.event → session.play first = session.play second) := by
  intro session events
  have accounted := play_accounted domain origin transform turns
  have asked := play_asked domain origin transform turns
  have assembled := play_assembled domain origin transform turns
  have home : session.domain = domain := play_domain _ turns
  refine ⟨?_, ?_, fun old first second same => play_congr first second (.inl old) same⟩
  · intro request first get running present
    obtain ⟨head, last, offered, completed⟩ :=
      onOriginEom_of_streaming accounted asked assembled first get running present
    refine ⟨head, last, fun cache => ?_⟩
    rw [step, completed cache]
    refine ⟨rfl, ?_, fun later other event => ?_⟩
    · rw [offered, home]
      split <;> rfl
    · refine Closed.step_cache (Closed.play ?_ later) other event
      exact ⟨by simp, by simp, by simp, rfl⟩
  · intro event cache
    rcases session.step_cache cache event with same | ⟨_, looked⟩ | ⟨offer, offered, _⟩
    · exact .inl same
    · rw [home] at looked
      exact .inr (.inl looked)
    · obtain ⟨rfl, running, present, get⟩ := running_of_offer offered
      obtain ⟨request, first, method, _⟩ := asked.of_streaming accounted running
      rw [get] at method
      obtain ⟨head, last, offers, _⟩ :=
        onOriginEom_of_streaming accounted asked assembled first method.symm running present
      refine .inr (.inr ⟨rfl, running, present, request, head, first, method.symm, last, ?_⟩)
      by_contra other
      rw [if_neg other, offered] at offers
      cases offers

end Session

end CachingProxy
