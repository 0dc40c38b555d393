import CachingProxy.Proofs.Cache.Lookups
import CachingProxy.Proofs.Session.Independence

/-!
# Hits

A request that is found is answered with the stored route, and with that the session is done with
the cache and has no use for an origin: whatever comes after, it looks nothing up, stores nothing
and connects to nowhere.
-/

set_option autoImplicit false

namespace CachingProxy.Session

/-! ## The answer -/

def validators : List String := ["etag", "last-modified"]

/-- An answer that replays a route: as it is stored, or with its body changed and without the
validators of the stored one. -/
inductive Replays (transform : Option Transform) (route : Route) : Response → Prop where
  | stored (unchanged : ∀ change contentType, transform = some change →
      route.contentType? = some contentType → Worker.isHtml contentType = true →
      change route.content contentType = []) :
      Replays transform route ⟨⟨200, route.headers⟩, route.content⟩
  | changed {change : Transform} {contentType : String} (given : transform = some change)
      (typed : route.contentType? = some contentType) (page : Worker.isHtml contentType = true)
      (nonempty : change route.content contentType ≠ []) :
      Replays transform route
        ⟨⟨200, route.headers.filter fun field => !validators.contains field.name⟩,
          change route.content contentType⟩

theorem erase_validators (headers : Headers) :
    (headers.erase "etag").erase "last-modified" =
      headers.filter fun field => !validators.contains field.name := by
  rw [Headers.erase, Headers.erase, List.filter_filter]
  refine List.filter_congr fun field _ => ?_
  rw [validators, List.contains_cons, List.contains_cons, List.contains_nil, Bool.or_false,
    Bool.not_or, Bool.and_comm, bne, bne]

theorem replays_hitResponse (transform : Option Transform) (route : Route) :
    Replays transform route (hitResponse transform route) := by
  rw [hitResponse.eq_def]
  dsimp only
  split
  · rename_i change contentType typed
    -- There is no other change, and no other type is read.
    have only {change' : Transform} {contentType' : String} (given : some change = some change')
        (typed' : route.contentType? = some contentType') :
        change' = change ∧ contentType' = contentType :=
      ⟨(Option.some.inj given).symm, Option.some.inj (typed'.symm.trans typed)⟩
    split
    · rename_i page
      split
      · rename_i empty
        refine .stored fun change' contentType' given typed' _ => ?_
        obtain ⟨rfl, rfl⟩ := only given typed'
        exact empty
      · rename_i nonempty
        rw [erase_validators]
        exact .changed rfl typed page nonempty
    · rename_i other
      refine .stored fun change' contentType' given typed' page => ?_
      rw [(only given typed').2] at page
      exact absurd page other
  · rename_i apart
    exact .stored fun change contentType given typed _ => (apart change contentType given typed).elim

/-! ## What is asked of the cache -/

section

variable {cache : ContentCache} {session : Session} {event : Event}
  {result : Session × List Action}

theorem calls_cons (session : Session) (turn : Turn) (rest : List Turn) :
    session.calls (turn :: rest) =
      (session.call? turn.event).toList ++ (session.take turn).1.calls rest := rfl

theorem calls_append (session : Session) (first second : List Turn) :
    session.calls (first ++ second) =
      session.calls first ++ (session.play first).1.calls second := by
  induction first generalizing session with
  | nil => rfl
  | cons turn rest ih =>
      rw [List.cons_append, calls_cons, calls_cons, ih, List.append_assoc]
      rfl

theorem mem_calls {front back : List Turn} {turn : Turn} {call : Call}
    (made : (session.play front).1.call? turn.event = some call) :
    call ∈ session.calls (front ++ turn :: back) := by
  rw [calls_append, calls_cons, made]
  exact List.mem_append_right _ (List.mem_append_left _ (Option.mem_toList.mpr rfl))

theorem call?_eq_none (old : session.state ≠ .new ∨ event.request? = none)
    (still : session.state ≠ .streaming) : session.call? event = none := by
  have unoffered : session.offer? event = none := by
    cases offered : session.offer? event with
    | none => rfl
    | some offer => exact absurd (running_of_offer offered).2.1 still
  cases event with
  | request head =>
      have late := old.resolve_right (by simp [Event.request?])
      rw [call?, if_neg (by simp [ignores, late])]
  | _ => exact congrArg (Option.map Call.put) unoffered

/-- A session that has had its request and has to do with no origin. -/
structure Settling (session : Session) : Prop where
  old : session.state ≠ .new
  unasking : session.state ≠ .connecting
  stopped : session.state ≠ .streaming
  detached : session.originAttached = false

theorem Moves.settling (rule : Moves cache session event result) (settling : Settling session) :
    Settling result.1 := by
  have unattached : session.originAttached ≠ true := by
    rw [settling.detached]
    exact Bool.false_ne_true
  -- Only what the client does is left, and that is its end.
  cases rule with
  | hit start | unserved start | asked start => exact absurd start settling.old
  | connected waiting | unconnected waiting | unconnectedAlone waiting | bodyHeld _ waiting
  | eomHeld _ waiting => exact absurd waiting settling.unasking
  | bodyKept running | bodySent running | endUnseen running | endSent running
  | endAnswered running | endMissing running => exact absurd running settling.stopped
  | completedLast | leftLast => exact ⟨by simp, by simp, by simp, settling.detached⟩
  | bodyForwarded _ _ attached | eomForwarded _ _ attached | completed _ attached
  | left _ attached | headersKept attached | headersUnseen attached | headersSent attached
  | failedUnseen _ attached | failedUnanswered _ attached | failedBegun _ attached
  | detachedLast attached | detachedDone attached | detachedUnanswered attached
  | detachedBegun attached | paused _ attached | resumed _ attached =>
      exact absurd attached unattached

theorem Settling.calls (settling : Settling session) (turns : List Turn) :
    session.calls turns = [] := by
  induction turns generalizing session with
  | nil => rfl
  | cons turn rest ih =>
      have next : Settling (session.take turn).1 := by
        rcases session.take_cases turn with ⟨_, same⟩ | ⟨_, _, rule⟩
        · rw [same]
          exact settling
        · exact rule.settling settling
      rw [calls_cons, ih next, call?_eq_none (.inl settling.old) settling.stopped]
      rfl

end

section

variable (domain : String) (origin : Option Endpoint) (transform : Option Transform)

theorem play_of_waiting {turns : List Turn} {head : RequestHead}
    (waiting : ((fresh domain origin transform).play turns).1.ignores (.request head) = false) :
    (fresh domain origin transform).play turns = (fresh domain origin transform, []) ∧
      asked? (turns.map Turn.event) = none := by
  obtain ⟨alive, new⟩ : ((fresh domain origin transform).play turns).1.released = false ∧
      ((fresh domain origin transform).play turns).1.state = .new := by
    simpa [ignores] using waiting
  have unasked := (play_asked domain origin transform turns).unasked new
  rcases play_unasked domain origin transform turns unasked with same | ⟨_, freed, _⟩
  · exact ⟨same, unasked⟩
  · rw [alive] at freed
    cases freed

theorem calls_of_waiting {turns : List Turn} {head : RequestHead}
    (waiting : ((fresh domain origin transform).play turns).1.ignores (.request head) = false) :
    (fresh domain origin transform).calls turns = [] := by
  have unasked := (play_of_waiting domain origin transform waiting).2
  induction turns with
  | nil => rfl
  | cons turn rest ih =>
      obtain ⟨other, later⟩ := asked?_cons_eq_none.mp unasked
      rw [play_cons] at waiting
      rcases take_fresh domain origin transform turn other with idle | ⟨_, freed, _⟩
      · rw [idle] at waiting
        rw [calls_cons, idle, ih waiting later, call?_eq_none (.inr other) (by simp [fresh])]
        rfl
      · rw [play_of_released _ rest freed] at waiting
        simp [ignores, freed] at waiting

theorem of_finds? {session : Session} {cache : ContentCache} {head : RequestHead} {route : Route}
    (finds : session.finds? ⟨cache, .request head⟩ = some (some route)) :
    session.ignores (.request head) = false ∧ head.method = "GET" ∧
      (cache.get session.domain head.path).1 = some route := by
  by_cases looks : session.ignores (.request head) = false ∧ head.method = "GET"
  · simp only [finds?, call?, if_pos looks, Option.some.injEq] at finds
    exact ⟨looks.1, looks.2, finds⟩
  · simp only [finds?, call?, if_neg looks, reduceCtorEq] at finds

section

variable {cache : ContentCache} {head : RequestHead} {route : Route} {before : List Turn}
  (after : List Turn)

/-- The actions of a session that finds its request are its answer and at most a release. -/
theorem actions_of_found
    (waiting : ((fresh domain origin transform).play before).1.ignores (.request head) = false)
    (get : head.method = "GET") (found : (cache.get domain head.path).1 = some route) :
    let actions :=
      ((fresh domain origin transform).play (before ++ ⟨cache, .request head⟩ :: after)).2
    actions = [.respond (hitResponse transform route)] ∨
      actions = [.respond (hitResponse transform route), .release] := by
  intro actions
  obtain ⟨idle, _⟩ := play_of_waiting domain origin transform waiting
  obtain ⟨served, detached, answer⟩ := take_request_found domain origin transform get found
  have parts : actions = [.respond (hitResponse transform route)] ++
      (((fresh domain origin transform).take ⟨cache, .request head⟩).1.play after).2 := by
    simp only [actions, play_append, idle, play_cons, answer, List.nil_append]
  rcases play_served served detached after with quiet | released
  · exact .inl (by rw [parts, quiet, List.append_nil])
  · exact .inr (by rw [parts, released]; rfl)

theorem calls_of_found
    (waiting : ((fresh domain origin transform).play before).1.ignores (.request head) = false)
    (get : head.method = "GET") (found : (cache.get domain head.path).1 = some route) :
    (fresh domain origin transform).calls (before ++ ⟨cache, .request head⟩ :: after) =
      [.get domain head.path] := by
  obtain ⟨idle, _⟩ := play_of_waiting domain origin transform waiting
  obtain ⟨served, detached, _⟩ := take_request_found domain origin transform get found
  have settling : Settling ((fresh domain origin transform).take ⟨cache, .request head⟩).1 :=
    ⟨by simp [served], by simp [served], by simp [served], detached⟩
  have looks : (fresh domain origin transform).call? (.request head) =
      some (.get domain head.path) := by
    rw [idle] at waiting
    rw [call?, if_pos ⟨waiting, get⟩]
    rfl
  rw [calls_append, calls_of_waiting domain origin transform waiting, idle, calls_cons,
    settling.calls, looks]
  rfl

end

/-- A GET that is found in the cache is answered with what is stored, and the whole run comes to
that answer and at most a release, whatever happens before and after it and to the cache meanwhile.
The lookup is all that it asks of the cache: no turn changes what any path finds, and as long as the
path finds something in the cache that the hit leaves, it finds the same route. -/
theorem hit_replays_route {cache : ContentCache} {head : RequestHead} {route : Route}
    (before after : List Turn)
    (finds : ((fresh domain origin transform).play before).1.finds? ⟨cache, .request head⟩ =
      some (some route)) :
    let start := fresh domain origin transform
    let turns := before ++ ⟨cache, .request head⟩ :: after
    (∃ response, Replays transform route response ∧
      ((start.play turns).2 = [.respond response] ∨
        (start.play turns).2 = [.respond response, .release])) ∧
    start.calls turns = [.get domain head.path] ∧
    (∀ front turn back, turns = front ++ turn :: back → ∀ name path,
      (((start.play front).1.step turn.cache turn.event).1.get name path).1 =
        (turn.cache.get name path).1) ∧
    ∀ calls, (cache.get domain head.path).2.stays domain head.path calls = true →
      (((cache.get domain head.path).2.serve calls).2.get domain head.path).1 = some route := by
  intro start turns
  obtain ⟨waiting, get, found⟩ := of_finds? finds
  rw [play_domain] at found
  have calls : start.calls turns = [.get domain head.path] :=
    calls_of_found domain origin transform after waiting get found
  refine ⟨⟨hitResponse transform route, replays_hitResponse transform route,
    actions_of_found domain origin transform after waiting get found⟩, calls, ?_, ?_⟩
  · rintro front turn back cut name path
    rw [step_serves (play_accounted domain origin transform front)
      (play_asked domain origin transform front) (play_assembled domain origin transform front)]
    cases made : (start.play front).1.call? turn.event with
    | none => rfl
    | some call =>
        have listed : call ∈ start.calls turns := cut ▸ mem_calls made
        rw [calls, List.mem_singleton] at listed
        rw [listed]
        exact (turn.cache.get_accessed domain head.path).get_of_looked name path
  · intro later stays
    refine ContentCache.serve_get_of_stays ?_ stays
    rw [(cache.get_accessed domain head.path).get_of_looked]
    exact found

end

/-- A changed page is answered without its validator, also to a client that goes on sending, and is
found unchanged behind another path. -/
theorem page_replayed_changed :
    let html : Field := ⟨"content-type", Bytes.ofText "text/html; charset=utf-8"⟩
    let page : Route := ⟨"example.com", "/", [1, 2], [html, ⟨"etag", [34, 34]⟩]⟩
    let cache : ContentCache := { partitions := [("example.com", [("/", page)])], maxEntries := 2 }
    let other : ContentCache := { partitions := [], maxEntries := 2 }
    let head : RequestHead := { method := "GET", uri := .rooted "/" none }
    let before := [.clientBody [5]].map (Turn.mk other)
    let after := [.connectSuccess, .request head, .originEom, .clientComplete, .clientError].map
      (Turn.mk other)
    let start := fresh "example.com" (some ⟨"10.0.0.1", 80⟩) (some fun content _ => 60 :: content)
    let turns := before ++ ⟨cache, .request head⟩ :: after
    let calls := [.put ⟨"Example.com", "/a", [3], []⟩, .get "example.com" "/a"]
    (start.play turns).2 = [.respond ⟨⟨200, [html]⟩, [60, 1, 2]⟩, .release] ∧
      start.calls turns = [.get "example.com" "/"] ∧
      (((cache.get "example.com" "/").2.serve calls).2.get "example.com" "/").1 = some page := by
  intro html page cache other head before after start turns calls
  have finds : (start.play before).1.finds? ⟨cache, .request head⟩ = some (some page) := by decide
  obtain ⟨_, called, _, found⟩ := hit_replays_route "example.com" (some ⟨"10.0.0.1", 80⟩)
    (some fun content _ => 60 :: content) before after finds
  exact ⟨by decide, called, found calls (by decide)⟩

end CachingProxy.Session
