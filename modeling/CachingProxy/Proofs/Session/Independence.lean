import CachingProxy.Proofs.Cache.Accesses
import CachingProxy.Proofs.Session.Requests

/-!
# The answer does not depend on the upload

The body of a request, its end and the pace of the origin that takes it are events of the upload.
A session keeps a part of the body while it waits for its origin, and reads it for the upload alone:
two runs whose other events are the same, and whose lookups find the same, differ in nothing but
their upload.
-/

set_option autoImplicit false

namespace CachingProxy.Session

/-! ## The upload and the rest -/

def Event.isUpload : Event → Bool
  | .clientBody _ | .clientEom | .egressPaused | .egressResumed => true
  | _ => false

def Action.isUpload : Action → Bool
  | .forwardBody _ | .forwardEom | .pauseIngress | .resumeIngress => true
  | _ => false

/-- A session but for the part of the upload that it holds. -/
def withoutUpload (session : Session) : Session :=
  { session with pendingBody := [], pendingEom := false }

def besideUpload (result : Session × List Action) : Session × List Action :=
  (result.1.withoutUpload, result.2.filter (!·.isUpload))

def call? (session : Session) : Event → Option Call
  | .request head =>
      if session.ignores (.request head) = false ∧ head.method = "GET" then
        some (.get session.domain head.path)
      else none
  | event => (session.offer? event).map .put

def finds? (session : Session) (turn : Turn) : Option (Option Route) :=
  match session.call? turn.event with
  | some (.get domain path) => some (turn.cache.get domain path).1
  | _ => none

/-- What is seen of a session, turn by turn. -/
def seen {α : Type} (sight? : Session → Turn → Option α) (session : Session) : List Turn → List α
  | [] => []
  | turn :: rest => (sight? session turn).toList ++ seen sight? (session.take turn).1 rest

def calls (session : Session) (turns : List Turn) : List Call :=
  seen (fun session turn => session.call? turn.event) session turns

/-- What the lookups of a session find. -/
def answers (session : Session) (turns : List Turn) : List (Option Route) :=
  seen finds? session turns

section

variable {cache : ContentCache} {session : Session} {event : Event}
  {result : Session × List Action}

theorem ignores_withoutUpload (session : Session) (event : Event) :
    session.withoutUpload.ignores event = session.ignores event := by
  cases event <;> rfl

theorem call?_withoutUpload (session : Session) (event : Event) :
    session.withoutUpload.call? event = session.call? event := by
  cases event <;> rfl

theorem call?_of_upload (session : Session) (upload : event.isUpload = true) :
    session.call? event = none := by
  cases event with
  | clientBody | clientEom | egressPaused | egressResumed => rfl
  | _ => cases upload

/-! ## One event -/

theorem Moves.upload (rule : Moves cache session event result) (upload : event.isUpload = true) :
    besideUpload result = (session.withoutUpload, []) := by
  cases rule with
  | bodyHeld | bodyForwarded | eomHeld | eomForwarded | paused | resumed => rfl
  | _ => cases upload

theorem besideUpload_connected (next : Session) (request : RequestHead) (chunks : List Bytes)
    (ended : Bool) :
    besideUpload (next, .sendOriginRequest request :: chunks.map .forwardBody ++
      (if ended then [.forwardEom] else []) ++ [.resumeIngress]) =
      (next.withoutUpload, [.sendOriginRequest request]) := by
  cases ended <;> simp [besideUpload, Action.isUpload]

/-- Every other event follows the same rule in a session that holds none of the upload. -/
theorem Moves.withoutUpload (rule : Moves cache session event result)
    (beside : event.isUpload = false) : ∃ alike,
      Moves cache session.withoutUpload event alike ∧ besideUpload alike = besideUpload result := by
  cases rule with
  | bodyHeld | bodyForwarded | eomHeld | eomForwarded | paused | resumed => cases beside
  | connected waiting held =>
      refine ⟨_, .connected waiting held, ?_⟩
      rw [besideUpload_connected, besideUpload_connected]
      rfl
  | unconnectedAlone waiting gone =>
      refine ⟨_, .unconnectedAlone waiting gone, ?_⟩
      cases attached : session.originAttached <;> cases alive : session.released <;>
        simp [abortClient, releaseIfDone, Session.withoutUpload, besideUpload, originOpen,
          attached, alive]
  | hit start get found => exact ⟨_, .hit start get found, rfl⟩
  | unserved start missed nowhere => exact ⟨_, .unserved start missed nowhere, rfl⟩
  | asked start missed known => exact ⟨_, .asked start missed known, rfl⟩
  | unconnected waiting present => exact ⟨_, .unconnected waiting present, rfl⟩
  | completed present attached => exact ⟨_, .completed present attached, rfl⟩
  | completedLast present detached => exact ⟨_, .completedLast present detached, rfl⟩
  | left present attached => exact ⟨_, .left present attached, rfl⟩
  | leftLast present detached => exact ⟨_, .leftLast present detached, rfl⟩
  | headersKept attached undone get => exact ⟨_, .headersKept attached undone get, rfl⟩
  | headersUnseen attached undone other gone =>
      exact ⟨_, .headersUnseen attached undone other gone, rfl⟩
  | headersSent attached undone other present =>
      exact ⟨_, .headersSent attached undone other present, rfl⟩
  | bodyKept running kept => exact ⟨_, .bodyKept running kept, rfl⟩
  | bodySent running unkept begun present =>
      exact ⟨_, .bodySent running unkept begun present, rfl⟩
  | endUnseen running gone => exact ⟨_, .endUnseen running gone, rfl⟩
  | endSent running present begun => exact ⟨_, .endSent running present begun, rfl⟩
  | endAnswered running present unbegun keptHead kept =>
      exact ⟨_, .endAnswered running present unbegun keptHead kept, rfl⟩
  | endMissing running present unbegun unkept =>
      exact ⟨_, .endMissing running present unbegun unkept, rfl⟩
  | failedUnseen undone attached gone => exact ⟨_, .failedUnseen undone attached gone, rfl⟩
  | failedUnanswered undone attached present unbegun =>
      exact ⟨_, .failedUnanswered undone attached present unbegun, rfl⟩
  | failedBegun undone attached present begun =>
      exact ⟨_, .failedBegun undone attached present begun, rfl⟩
  | detachedLast attached gone => exact ⟨_, .detachedLast attached gone, rfl⟩
  | detachedDone attached present done => exact ⟨_, .detachedDone attached present done, rfl⟩
  | detachedUnanswered attached present undone unbegun =>
      exact ⟨_, .detachedUnanswered attached present undone unbegun, rfl⟩
  | detachedBegun attached present undone begun =>
      exact ⟨_, .detachedBegun attached present undone begun, rfl⟩

theorem take_upload (session : Session) (turn : Turn) (upload : turn.event.isUpload = true) :
    besideUpload (session.take turn) = (session.withoutUpload, []) := by
  rcases session.take_cases turn with ⟨_, same⟩ | ⟨_, _, rule⟩
  · rw [same]
    rfl
  · exact rule.upload upload

theorem take_withoutUpload (session : Session) (turn : Turn)
    (beside : turn.event.isUpload = false) :
    besideUpload (session.withoutUpload.take turn) = besideUpload (session.take turn) := by
  rcases session.take_cases turn with ⟨unused, same⟩ | ⟨_, alive, rule⟩
  · have unused' : session.withoutUpload.ignores turn.event = true := by
      rw [ignores_withoutUpload, unused]
    rw [same, take, step_of_ignores turn.cache _ _ unused']
    rfl
  · obtain ⟨alike, rule', same⟩ := rule.withoutUpload beside
    rw [take, rule'.eq_step alive, same]

end

/-! ## The events beside the upload -/

theorem play_seen {α : Type} {sight? : Session → Turn → Option α}
    (blind : ∀ session turn, sight? session.withoutUpload turn = sight? session turn)
    (quiet : ∀ session turn, turn.event.isUpload = true → sight? session turn = none)
    {session alike : Session} (same : session.withoutUpload = alike.withoutUpload)
    (turns : List Turn) :
    seen sight? session turns = seen sight? alike (turns.filter (!·.event.isUpload)) := by
  induction turns generalizing session alike with
  | nil => rfl
  | cons turn rest ih =>
      cases upload : turn.event.isUpload with
      | true =>
          have next := congrArg Prod.fst (session.take_upload turn upload)
          rw [List.filter_cons_of_neg (by simp [upload]), seen, quiet session turn upload]
          exact ih (next.trans same)
      | false =>
          have next : (session.take turn).1.withoutUpload = (alike.take turn).1.withoutUpload := by
            have taken := take_withoutUpload session turn upload
            rw [same, take_withoutUpload alike turn upload] at taken
            exact congrArg Prod.fst taken.symm
          rw [List.filter_cons_of_pos (by simp [upload]), seen, seen, ih next,
            ← blind session turn, same, blind alike turn]

theorem play_beside {session alike : Session} (same : session.withoutUpload = alike.withoutUpload)
    (turns : List Turn) :
    besideUpload (session.play turns) =
      besideUpload (alike.play (turns.filter (!·.event.isUpload))) := by
  induction turns generalizing session alike with
  | nil => exact congrArg (·, []) same
  | cons turn rest ih =>
      cases upload : turn.event.isUpload with
      | true =>
          obtain ⟨next, silent⟩ := Prod.ext_iff.mp (session.take_upload turn upload)
          rw [List.filter_cons_of_neg (by simp [upload]), ← ih (next.trans same), play_cons]
          simp only [besideUpload] at silent ⊢
          rw [List.filter_append, silent, List.nil_append]
      | false =>
          have taken := take_withoutUpload session turn upload
          rw [same, take_withoutUpload alike turn upload] at taken
          obtain ⟨next, actions⟩ := Prod.ext_iff.mp taken.symm
          obtain ⟨final, more⟩ := Prod.ext_iff.mp (ih next)
          rw [List.filter_cons_of_pos (by simp [upload]), play_cons, play_cons]
          simp only [besideUpload] at actions final more ⊢
          rw [List.filter_append, List.filter_append, actions, final, more]

/-! ## The lookups -/

theorem finds?_isSome (session : Session) {first second : Turn}
    (same : first.event = second.event) :
    (session.finds? first).isSome = (session.finds? second).isSome := by
  rw [finds?, finds?, same]
  split <;> rfl

theorem take_congr (session : Session) {first second : Turn} (same : first.event = second.event)
    (alike : session.finds? first = session.finds? second) :
    session.take first = session.take second := by
  obtain ⟨here, event⟩ := first
  obtain ⟨there, event'⟩ := second
  obtain rfl : event = event' := same
  cases event with
  | request head =>
      by_cases looks : session.ignores (.request head) = false ∧ head.method = "GET"
      · apply take_request_congr
        simpa [finds?, call?, looks] using alike
      · cases used : session.ignores (.request head) with
        | true =>
            rw [take, take, step_of_ignores here session _ used,
              step_of_ignores there session _ used]
        | false =>
            have other : head.method ≠ "GET" := fun get => looks ⟨used, get⟩
            simp only [take, step, onRequest, if_neg other]
            split <;> rfl
  | _ => exact step_congr (.inr rfl) here there

theorem play_of_answers {session : Session} {first second : List Turn}
    (same : first.map Turn.event = second.map Turn.event)
    (alike : session.answers first = session.answers second) :
    session.play first = session.play second ∧ session.calls first = session.calls second := by
  induction first generalizing session second with
  | nil =>
      rw [List.map_eq_nil_iff.mp same.symm]
      exact ⟨rfl, rfl⟩
  | cons turn rest ih =>
      obtain ⟨turn', rest', rfl, event, events⟩ := List.map_eq_cons_iff.mp same.symm
      -- The event decides whether there is a lookup, so both lists of answers are cut at one place.
      have looked : (session.finds? turn).toList.length = (session.finds? turn').toList.length := by
        rw [Option.length_toList, Option.length_toList, finds?_isSome session event.symm]
      obtain ⟨found, later⟩ := List.append_inj alike looked
      have answer : session.finds? turn = session.finds? turn' := by
        simpa using congrArg List.head? found
      have taken := take_congr session event.symm answer
      rw [taken] at later
      obtain ⟨played, called⟩ := ih events.symm later
      constructor
      · rw [play_cons, play_cons, taken, played]
      · rw [calls, seen, event.symm, taken]
        exact congrArg _ called

/-! ## The cache -/

theorem step_serves {events : List Event} {session : Session} (accounted : Accounted session)
    (asked : Asked events session) (assembled : Assembled events session) (turn : Turn) :
    (session.step turn.cache turn.event).1 =
      (turn.cache.serve (session.call? turn.event).toList).2 := by
  obtain ⟨cache, event⟩ := turn
  cases event with
  | request head =>
      cases used : session.ignores (.request head) with
      | true =>
          rw [step_of_ignores cache session _ used]
          simp [call?, used, ContentCache.serve]
      | false =>
          obtain ⟨alive, start⟩ : session.released = false ∧ session.state = .new := by
            simpa [ignores] using used
          rw [step, onRequest, if_neg (by simp [alive, start])]
          by_cases get : head.method = "GET"
          · have looks : session.call? (.request head) = some (.get session.domain head.path) := by
              simp [call?, used, get]
            rw [looks]
            simp only [if_pos get]
            split <;> rename_i answer <;> exact (congrArg Prod.snd answer).symm
          · simp [call?, get, ContentCache.serve]
  | originEom =>
      cases offered : session.offer? .originEom with
      | some offer =>
          rw [step_cache_of_offer accounted asked assembled offered]
          simp only [call?, offered, Option.map_some, Option.toList_some, ContentCache.serve,
            ContentCache.call, Offer.storeIn]
          split <;> rfl
      | none =>
          rcases session.step_cache cache .originEom with same | ⟨_, _, other, _⟩ | ⟨_, given, _⟩
          · rw [same]
            simp [call?, offered, ContentCache.serve]
          · cases other
          · cases offered.symm.trans given
  | _ => rfl

/-! ## Two runs -/

/-- Two runs whose events but for the upload are the same, and whose lookups find the same, are the
same but for the upload: in their actions, in what they ask of the cache and in the sessions they
end with.  The calls are all that the caches see of a run. -/
theorem answer_independent_of_upload (domain : String) (origin : Option Endpoint)
    (transform : Option Transform) (first second : List Turn)
    (same : (first.map Turn.event).filter (!·.isUpload) =
      (second.map Turn.event).filter (!·.isUpload))
    (alike : (fresh domain origin transform).answers first =
      (fresh domain origin transform).answers second) :
    let start := fresh domain origin transform
    besideUpload (start.play first) = besideUpload (start.play second) ∧
      start.calls first = start.calls second ∧
      ∀ (turns : List Turn) (turn : Turn),
        ((start.play turns).1.step turn.cache turn.event).1 =
          (turn.cache.serve ((start.play turns).1.call? turn.event).toList).2 := by
  intro start
  have purged (turns : List Turn) : start.calls turns =
      start.calls (turns.filter (!·.event.isUpload)) :=
    play_seen (fun session turn => call?_withoutUpload session turn.event)
      (fun session _ upload => call?_of_upload session upload) rfl turns
  have unasked (turns : List Turn) : start.answers turns =
      start.answers (turns.filter (!·.event.isUpload)) := by
    refine play_seen (fun session turn => ?_) (fun session turn upload => ?_) rfl turns
    · rw [finds?, finds?, call?_withoutUpload]
    · rw [finds?, call?_of_upload session upload]
  have events : (first.filter (!·.event.isUpload)).map Turn.event =
      (second.filter (!·.event.isUpload)).map Turn.event := by
    simpa only [List.filter_map, Function.comp_def] using same
  rw [unasked first, unasked second] at alike
  obtain ⟨played, called⟩ := play_of_answers events alike
  refine ⟨?_, ?_, fun turns turn => ?_⟩
  · rw [play_beside rfl first, play_beside rfl second, played]
  · rw [purged first, purged second, called]
  · exact step_serves (play_accounted domain origin transform turns)
      (play_asked domain origin transform turns) (play_assembled domain origin transform turns) turn

/-- The body comes before the request, behind the release and around the answer, or not at all, and
other answers are stored meanwhile. -/
theorem answer_the_same_around_any_body :
    let empty : ContentCache := { partitions := [("example.com", [])], maxEntries := 2 }
    let filled : ContentCache :=
      { partitions := [("example.com", [("/b", ⟨"example.com", "/b", [9], []⟩)])], maxEntries := 2 }
    let head : RequestHead := { method := "GET", uri := .rooted "/" none }
    let bare := [.request head, .connectSuccess, .originHeaders ⟨200, []⟩, .originBody [1],
      .originEom, .clientComplete, .originDetached].map (Turn.mk empty)
    let full := [.clientEom, .request head, .clientBody [5], .connectSuccess, .egressPaused,
      .originHeaders ⟨200, []⟩, .egressResumed, .clientBody [6, 7], .originBody [1], .clientEom,
      .originEom, .clientComplete, .egressPaused, .originDetached, .clientBody [8]].map
        (Turn.mk filled)
    let start := fresh "example.com" (some ⟨"10.0.0.1", 80⟩) none
    (start.play full).2.filter (!·.isUpload) = [.connect ⟨"10.0.0.1", 80⟩,
        .sendOriginRequest (forwardedHead "example.com" head), .respond ⟨⟨200, []⟩, [1]⟩,
        .release] ∧
      start.calls full = [.get "example.com" "/", .put ⟨"example.com", "/", [1], []⟩] ∧
      (start.play full).2 ≠ (start.play bare).2 := by
  intro empty filled head bare full start
  obtain ⟨played, called, -⟩ := answer_independent_of_upload "example.com"
    (some ⟨"10.0.0.1", 80⟩) none full bare (by decide) (by decide)
  refine ⟨(congrArg Prod.snd played).trans (by decide), called.trans (by decide), by decide⟩

end CachingProxy.Session
