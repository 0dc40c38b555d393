import CachingProxy.Proofs.Session.Storing

/-!
# What a session makes of its request

Before its request a session is as it started, or its client is gone and it is released.  The
request reads the cache; what it finds decides the rest.  A session that is served from the cache
has nothing more to say, and one that is not behaves in all runs with the same events alike.
-/

set_option autoImplicit false

namespace CachingProxy.Session

variable (domain : String) (origin : Option Endpoint) (transform : Option Transform)

/-! ## Before the request -/

theorem take_fresh (turn : Turn) (other : turn.event.request? = none) :
    (fresh domain origin transform).take turn = (fresh domain origin transform, []) ∨
      ((turn.event = .clientComplete ∨ turn.event = .clientError) ∧
        ((fresh domain origin transform).take turn).1.released = true ∧
        ((fresh domain origin transform).take turn).2 = [.release]) := by
  rcases (fresh domain origin transform).take_cases turn with ⟨_, same⟩ | ⟨used, -, -⟩
  · exact .inl same
  · right
    cases event : turn.event with
    | request head => simp [event, Event.request?] at other
    | clientComplete => exact ⟨.inl rfl, by rw [take, event]; exact ⟨rfl, rfl⟩⟩
    | clientError => exact ⟨.inr rfl, by rw [take, event]; exact ⟨rfl, rfl⟩⟩
    | _ => simp [event, ignores, fresh, originOpen] at used

theorem play_unasked (turns : List Turn) (unasked : asked? (turns.map Turn.event) = none) :
    (fresh domain origin transform).play turns = (fresh domain origin transform, []) ∨
      ((.clientComplete ∈ turns.map Turn.event ∨ .clientError ∈ turns.map Turn.event) ∧
        ((fresh domain origin transform).play turns).1.released = true ∧
        ((fresh domain origin transform).play turns).2 = [.release]) := by
  induction turns with
  | nil => exact .inl rfl
  | cons turn rest ih =>
      obtain ⟨other, later⟩ := asked?_cons_eq_none.mp unasked
      rw [play_cons, List.map_cons, List.mem_cons, List.mem_cons]
      rcases take_fresh domain origin transform turn other with idle | ⟨ended, freed, released⟩
      · rw [idle]
        rcases ih later with same | ⟨left, freed, told⟩
        · left
          rw [same]
          rfl
        · exact .inr ⟨left.imp .inr .inr, freed, told⟩
      · right
        rw [play_of_released _ rest freed, released]
        exact ⟨ended.imp (.inl ·.symm) (.inl ·.symm), freed, rfl⟩

/-! ## The request -/

theorem take_request_found {cache : ContentCache} {head : RequestHead} {route : Route}
    (get : head.method = "GET") (found : (cache.get domain head.path).1 = some route) :
    let result := (fresh domain origin transform).take ⟨cache, .request head⟩
    result.1.state = .cacheHitRespond ∧ result.1.originAttached = false ∧
      result.2 = [.respond (hitResponse transform route)] := by
  rw [take, step, onRequest_of_found rfl rfl get found]
  exact ⟨rfl, rfl, rfl⟩

theorem take_request_congr (session : Session) {first second : ContentCache}
    {head : RequestHead} (alike : (first.get session.domain head.path).1 =
      (second.get session.domain head.path).1) :
    session.take ⟨first, .request head⟩ = session.take ⟨second, .request head⟩ := by
  rw [take, take, step, step, onRequest, onRequest]
  split
  · rfl
  by_cases get : head.method = "GET"
  · simp only [if_pos get]
    revert alike
    generalize first.get session.domain head.path = here
    generalize second.get session.domain head.path = there
    obtain ⟨found, cache⟩ := here
    obtain ⟨found', cache'⟩ := there
    rintro rfl
    cases found <;> rfl
  · simp only [if_neg get]

/-! ## After the request -/

theorem Moves.served {cache : ContentCache} {session : Session} {event : Event}
    {result : Session × List Action} (rule : Moves cache session event result)
    (served : session.state = .cacheHitRespond) (detached : session.originAttached = false) :
    result.1.released = true ∧ result.2 = [.release] := by
  cases rule with
  | completedLast | leftLast => exact ⟨rfl, rfl⟩
  | hit other | unserved other | asked other | connected other | unconnected other
  | unconnectedAlone other | bodyHeld _ other | eomHeld _ other | bodyKept other | bodySent other
  | endUnseen other | endSent other | endAnswered other | endMissing other =>
      exact absurd (served.symm.trans other) (by simp)
  | bodyForwarded _ _ attached | eomForwarded _ _ attached | completed _ attached
  | left _ attached | headersKept attached | headersUnseen attached | headersSent attached
  | failedUnseen _ attached | failedUnanswered _ attached | failedBegun _ attached
  | detachedLast attached | detachedDone attached | detachedUnanswered attached
  | detachedBegun attached | paused _ attached | resumed _ attached =>
      exact absurd (detached.symm.trans attached) (by simp)

theorem play_served {session : Session} (served : session.state = .cacheHitRespond)
    (detached : session.originAttached = false) (turns : List Turn) :
    (session.play turns).2 = [] ∨ (session.play turns).2 = [.release] := by
  induction turns with
  | nil => exact .inl rfl
  | cons turn rest ih =>
      rw [play_cons]
      rcases session.take_cases turn with ⟨_, same⟩ | ⟨_, _, rule⟩
      · rw [same]
        exact ih
      · right
        obtain ⟨freed, released⟩ := rule.served served detached
        rw [play_of_released _ rest freed, released]
        rfl

/-! ## The whole run -/

/-- A session that finds its request answers it, unless its client has gone before, and does nothing
else. -/
theorem play_found {cache : ContentCache} {head : RequestHead} {route : Route}
    (before after : List Turn) (unasked : asked? (before.map Turn.event) = none)
    (get : head.method = "GET") (found : (cache.get domain head.path).1 = some route) :
    let actions :=
      ((fresh domain origin transform).play (before ++ ⟨cache, .request head⟩ :: after)).2
    actions = [.respond (hitResponse transform route)] ∨
      actions = [.respond (hitResponse transform route), .release] ∨
      actions = [.release] ∧ (.clientComplete ∈ before.map Turn.event ∨
        .clientError ∈ before.map Turn.event) := by
  intro actions
  have parts : actions = ((fresh domain origin transform).play before).2 ++
      (((fresh domain origin transform).play before).1.play
        (⟨cache, .request head⟩ :: after)).2 :=
    congrArg Prod.snd (play_append _ before (⟨cache, .request head⟩ :: after))
  rcases play_unasked domain origin transform before unasked with idle | ⟨ended, freed, released⟩
  · obtain ⟨served, detached, answer⟩ :=
      take_request_found domain origin transform get found
    rw [idle, play_cons, answer] at parts
    rcases play_served served detached after with quiet | released
    · left
      rw [parts, quiet]
      rfl
    · right; left
      rw [parts, released]
      rfl
  · rw [play_of_released _ _ freed, released] at parts
    exact .inr (.inr ⟨parts, ended⟩)

/-- Nothing but the request, and of that only what it finds, depends on the caches. -/
theorem play_alike {first second : ContentCache} {head : RequestHead}
    (before before' after after' : List Turn) (unasked : asked? (before.map Turn.event) = none)
    (sameBefore : before.map Turn.event = before'.map Turn.event)
    (alike : (first.get domain head.path).1 = (second.get domain head.path).1)
    (sameAfter : after.map Turn.event = after'.map Turn.event) :
    (fresh domain origin transform).play (before ++ ⟨first, .request head⟩ :: after) =
      (fresh domain origin transform).play (before' ++ ⟨second, .request head⟩ :: after') := by
  rw [play_append, play_append, ← play_congr before before' (.inr unasked) sameBefore]
  rcases play_unasked domain origin transform before unasked with idle | ⟨_, freed, _⟩
  · have taken := take_request_congr (fresh domain origin transform) alike
    have old : ((fresh domain origin transform).take ⟨first, .request head⟩).1.state ≠ .new := by
      have rule := step_moves first (fresh domain origin transform) (.request head) rfl
      rw [take]
      generalize ((fresh domain origin transform).step first (.request head)).2 = result at rule
      cases rule <;> simp
    rw [idle, play_cons, play_cons, ← taken, play_congr after after' (.inl old) sameAfter]
  · rw [play_of_released _ _ freed, play_of_released _ _ freed]

theorem run_of_released {session : Session} (released : session.released = true)
    (cache : ContentCache) (events : List Event) :
    session.run cache events = (cache, session, []) := by
  induction events with
  | nil => rfl
  | cons event rest ih =>
      rw [run, step_of_released cache session event released]
      simp only [ih, List.append_nil]

theorem run_unasked (cache : ContentCache) (events : List Event)
    (unasked : asked? events = none) :
    ((fresh domain origin transform).run cache events).1 = cache := by
  induction events with
  | nil => rfl
  | cons event rest ih =>
      obtain ⟨other, later⟩ := asked?_cons_eq_none.mp unasked
      have same : ((fresh domain origin transform).step cache event).1 = cache := by
        rcases (fresh domain origin transform).step_cache cache event with
          same | ⟨_, head, rfl, _⟩ | ⟨offer, offered, _⟩
        · exact same
        · cases other
        · exact absurd (running_of_offer offered).2.1 (by simp [fresh])
      have began := take_fresh domain origin transform ⟨cache, event⟩ other
      rw [take] at began
      rw [run]
      generalize (fresh domain origin transform).step cache event = result at same began
      obtain ⟨kept, next, actions⟩ := result
      subst same
      rcases began with idle | ⟨_, freed, _⟩
      · have unchanged : next = fresh domain origin transform := congrArg Prod.fst idle
        rw [unchanged]
        exact ih later
      · have stopped := run_of_released freed kept rest
        exact congrArg (fun final => final.1) stopped

theorem run_eq_play_of_asked (cache : ContentCache) (head : RequestHead)
    (earlier later : List Event) (unasked : asked? earlier = none) :
    ∃ before after : List Turn, before.map Turn.event = earlier ∧
      after.map Turn.event = later ∧
      ((fresh domain origin transform).run cache (earlier ++ .request head :: later)).2 =
        (fresh domain origin transform).play (before ++ ⟨cache, .request head⟩ :: after) := by
  obtain ⟨before, earlierEq, beforeEq⟩ :=
    run_eq_play cache (fresh domain origin transform) earlier
  generalize started : (fresh domain origin transform).run cache earlier = run at beforeEq
  obtain ⟨kept, session, actions⟩ := run
  have same : kept = cache := by
    rw [← run_unasked domain origin transform cache earlier unasked, started]
  subst same
  obtain ⟨after, laterEq, afterEq⟩ := run_eq_play (session.step kept (.request head)).1
    (session.step kept (.request head)).2.1 later
  refine ⟨before, after, earlierEq, laterEq, ?_⟩
  rw [run_append, started, play_append, ← beforeEq, play_cons, take]
  simp only [run, ← afterEq]

end CachingProxy.Session
