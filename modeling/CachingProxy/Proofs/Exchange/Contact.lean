import CachingProxy.Proofs.Exchange.Listening
import CachingProxy.Proofs.Http.Targets
import CachingProxy.Proofs.Routing.Forwarded
import CachingProxy.Proofs.Session.Independence

/-!
# How an origin is asked

A session asks its origin once, and that is the first thing done with a new connection (`Asks`).
The exchange then reads the target again by itself.  It is the key under which the answer is looked
up and stored, and what is sent of it is the same text.  A target that cannot be read again is taken
for a failure of the origin, of which the client is told before the origin hears anything.
-/

set_option autoImplicit false

namespace CachingProxy

def Call.path : Call → String
  | .get _ path => path
  | .put offer => offer.path

namespace Session

/-- A session asks the cache for the path of its request alone. -/
theorem path_of_call (domain : String) (origin : Option Endpoint) (transform : Option Transform)
    {turns : List Turn} {event : Event} {head : RequestHead} {call : Call}
    (first : asked? (turns.map Turn.event ++ [event]) = some head)
    (calls : ((fresh domain origin transform).play turns).1.call? event = some call) :
    call.path = head.path := by
  have faithful := play_faithful domain origin transform turns
  have accounted := play_accounted domain origin transform turns
  have assembled := play_assembled domain origin transform turns
  generalize ((fresh domain origin transform).play turns).1 = session at *
  rw [asked?_concat] at first
  cases event with
  | request other =>
      rw [call?] at calls
      split at calls
      · rename_i looks
        obtain ⟨alive, start⟩ : session.released = false ∧ session.state = .new := by
          simpa [ignores] using looks.1
        rw [faithful.asked.unasked start, Option.none_or] at first
        rw [← Option.some.inj calls, ← Option.some.inj first]
        rfl
      · cases calls
  | originEom =>
      obtain ⟨offer, offered, rfl⟩ : ∃ offer, session.offer? .originEom = some offer ∧
          Call.put offer = call := Option.map_eq_some_iff.mp calls
      rw [show Event.originEom.request? = none from rfl, Option.or_none] at first
      exact (faithful.stored_under accounted assembled first offered).2
  | _ => cases calls

end Session

namespace Exchange

open Session (Action Turn failure)

/-! ## The target of the request to the origin -/

theorem originRequest?_eq {text : String} {head sent : RequestHead}
    (read : Uri.ofText? text = some head.uri) (same : sent.uri = head.uri) :
    originRequest? sent =
      if head.uri.isPathless then
        .error (.http ("invalid request target " ++ head.path ++ ": " ++ targetFault head.path))
      else .ok { sent with uri := head.uri.originForm, version := .http11 } := by
  have path : sent.path = head.path := congrArg Uri.target same
  rw [originRequest?, path, RequestHead.path, Uri.ofText?_target read]
  cases head.uri.isPathless <;> rfl

structure Asks (x : Exchange) : Prop where
  connected : x.connected = true
  unasked : x.originRequest = none
  alive : x.session.released = false
  present : x.session.clientTerminated = false
  attached : x.session.originAttached = true
  undone : x.session.originDone = false
  unbegun : x.session.progress = .none

theorem openUpload_kept (x : Exchange) :
    x.openUpload.session = x.session ∧ x.openUpload.originRequest = x.originRequest := by
  rw [openUpload]
  split <;> exact ⟨rfl, rfl⟩

theorem perform_accepted {x : Exchange} (connected : x.connected = true)
    {sent request : RequestHead} (accepted : originRequest? sent = .ok request) :
    (x.perform (.sendOriginRequest sent)).1.originRequest = some request ∧
      (x.perform (.sendOriginRequest sent)).1.session = x.session ∧
      (x.perform (.sendOriginRequest sent)).2 = [] := by
  have opened := ({ x with connected := false } : Exchange).openUpload_kept
  rw [perform, startOrigin, if_neg (by simp [connected])]
  dsimp only
  generalize ({ x with connected := false }.openUpload) = y at opened
  rw [accepted]
  exact ⟨rfl, opened.1, rfl⟩

/-- The client is told of the failure, and the origin of nothing. -/
theorem perform_refused {x : Exchange} (asks : Asks x) {sent : RequestHead} {cause : ProxyError}
    (refused : originRequest? sent = .error cause) :
    (x.perform (.sendOriginRequest sent)).1.originRequest = none ∧
      (x.perform (.sendOriginRequest sent)).2.head? =
        some (.respond (failure cause.gatewayStatus)) := by
  obtain ⟨session, request⟩ := ({ x with connected := false } : Exchange).openUpload_kept
  change _ = x.session at session
  rw [perform, startOrigin, if_neg (by simp [asks.connected])]
  dsimp only
  generalize ({ x with connected := false }.openUpload) = y at session request
  have fails : (({ y with uploadOutlet := none, upload := none } : Exchange).tell
      (.originError cause)).2 = [.respond (failure cause.gatewayStatus)] := by
    have rule : Session.Moves y.cache x.session (.originError cause) _ :=
      .failedUnanswered asks.undone asks.attached asks.present asks.unbegun
    rw [← session] at rule
    exact congrArg Prod.snd (rule.eq_step (session ▸ asks.alive))
  rw [refused]
  refine ⟨request.trans asks.unasked, ?_⟩
  simp only [refuseTarget, fails]
  rfl

/-! ## Before the request is sent -/

theorem arrive_originRequest (x : Exchange) (event : Event) :
    (x.arrive event).1.originRequest = x.originRequest := by
  cases event with
  | clientFrame frame => cases frame <;> rfl
  | connected result => cases result <;> rfl
  | originReceived | uploadReady | downloadReady | deliveryReported | dropDownload =>
      simp only [arrive, drainUpload, onDownloadReady, closeUpload, closeDownload]
      repeat' split
      all_goals rfl
  | _ => rfl

theorem perform_originRequest (x : Exchange) {action : Action}
    (other : ∀ sent, action ≠ .sendOriginRequest sent) :
    (x.perform action).1.originRequest = x.originRequest := by
  cases action with
  | sendOriginRequest sent => exact absurd rfl (other sent)
  | _ =>
      simp only [perform, sendResponse, sendBody, sendEom, tell, forwardBody, forwardEom,
        abortOrigin, closeUpload, closeDownload, abortDownload]
      repeat' split
      all_goals rfl

theorem dispose_originRequest (x : Exchange) : x.dispose.originRequest = x.originRequest := by
  simp only [dispose, abortOrigin, closeUpload, closeDownload]
  repeat' split
  all_goals rfl

section

variable {cache : ContentCache} {domain : String} {origin : Option Endpoint}
  {transform : Option Transform} {bodyDone : Bool} {head : RequestHead} {c : Course}

theorem Reached.asked? {session : Session} (reached : Reached cache session bodyDone head c) :
    Session.asked? (c.told.map Turn.event) = some head := by
  have kept : ∀ told more : List Turn, Session.asked? (told.map Turn.event) = some head →
      Session.asked? ((told ++ more).map Turn.event) = some head := by
    intro told more first
    rw [List.map_append, Session.asked?, List.findSome?_append, ← Session.asked?, first]
    rfl
  induction reached with
  | asked => rfl
  | bodiless _ _ _ ih | telling _ _ _ ih | performing _ _ _ ih => exact kept _ _ ih
  | silent _ _ _ ih | disposing _ _ ih => exact ih

theorem Reached.sent_uri
    (reached : Reached cache (Session.fresh domain origin transform) bodyDone head c)
    {sent : RequestHead} (listed : .sendOriginRequest sent ∈ actionsOf c.seen ++ c.pending) :
    sent.uri = head.uri := by
  have faithful := Session.play_faithful domain origin transform c.told
  rw [reached.traced] at faithful
  obtain ⟨first, asked, rfl⟩ := faithful.sent sent listed
  rw [← Option.some.inj (reached.asked?.symm.trans asked), Session.forwardedHead]
  split <;> rfl

theorem Reached.unasked
    (reached : Reached cache (Session.fresh domain origin transform) bodyDone head c)
    (unsent : ∀ sent, .sendOriginRequest sent ∉ actionsOf c.seen) :
    c.exchange.originRequest = none := by
  induction reached with
  | asked => rfl
  | bodiless _ _ _ ih => exact ih unsent
  | @silent x _ _ _ _ event _ _ ih | @telling x _ _ _ _ event _ _ _ ih =>
      rw [actionsOf_append, actionsOf_shown, List.append_nil] at unsent
      exact (x.arrive_originRequest event).trans (ih unsent)
  | @performing x _ _ _ action _ seen _ _ _ ih =>
      rw [actionsOf_concat] at unsent
      refine (x.perform_originRequest fun sent now => ?_).trans
        (ih fun sent earlier => unsent sent (List.mem_append_left _ earlier))
      exact unsent sent (List.mem_append_right _ (List.mem_singleton.mpr now.symm))
  | @disposing x _ _ _ _ _ ih => exact x.dispose_originRequest.trans (ih unsent)

theorem event_of_asks (x : Exchange) (said : Session.Event) {sent : RequestHead}
    (asks : .sendOriginRequest sent ∈ (x.tell said).2) : said = .connectSuccess :=
  (x.session.take_asks ⟨x.cache, said⟩ asks).1

theorem asks_of_connected {x : Exchange} (accounted : Session.Accounted x.session)
    (connected : x.connected = true) (unasked : x.originRequest = none) {sent : RequestHead}
    (asks : .sendOriginRequest sent ∈ (x.tell .connectSuccess).2) :
    Asks (x.tell .connectSuccess).1 := by
  have session := x.tell_session .connectSuccess
  rw [tell_actions] at asks
  rcases x.session.take_cases ⟨x.cache, .connectSuccess⟩ with ⟨_, same⟩ | ⟨_, alive, rule⟩
  · rw [same] at asks
    cases asks
  · generalize x.session.take ⟨x.cache, .connectSuccess⟩ = result at rule session
    cases rule with
    | connected waiting _ =>
        obtain ⟨_, undone, unbegun⟩ := accounted.early (.inr waiting)
        have present : x.session.clientTerminated = false :=
          Bool.eq_false_iff.mpr (accounted.present_of_waiting alive waiting)
        exact ⟨connected, unasked, by rw [session]; exact alive, by rw [session]; exact present,
          by rw [session], by rw [session]; exact undone, by rw [session]; exact unbegun⟩

/-- The request is the first thing that a new connection is used for. -/
theorem Reached.asks
    (reached : Reached cache (Session.fresh domain origin transform) bodyDone head c)
    {sent : RequestHead} {rest : List Action} (next : c.pending = .sendOriginRequest sent :: rest) :
    Asks c.exchange := by
  have listed : .sendOriginRequest sent ∈ c.pending := next ▸ List.mem_cons_self
  have unsent : ∀ other, .sendOriginRequest other ∉ actionsOf c.seen := by
    intro other earlier
    have first : ∀ action ∈ actionsOf c.seen, action.toOrigin = false :=
      reached.inTurn (actionsOf c.seen) (.sendOriginRequest sent) rest (by rw [next])
    cases first _ earlier
  cases reached with
  | asked =>
      let start := new cache (Session.fresh domain origin transform) bodyDone head
      cases event_of_asks start (.request head) listed
  | @bodiless x => cases event_of_asks x .clientEom listed
  | silent | disposing => cases listed
  | @telling x _ _ _ before event said _ tells =>
      obtain rfl := event_of_asks (x.arrive event).1 said listed
      rw [actionsOf_append, actionsOf_shown, List.append_nil] at unsent
      have session := arrive_session x event
      refine asks_of_connected (session ▸ before.accounted) ?_ ?_ listed
      · rcases x.arrive_origin event with ⟨_, _, connected⟩ | ⟨told, _⟩ | ⟨_, other, _⟩
        · exact connected
        · cases tells.symm.trans told
        · exact absurd tells other
      · exact (x.arrive_originRequest event).trans (before.unasked unsent)
  | @performing x _ _ _ action rest _ before =>
      -- What is performed leads to no request, and behind a request there is none.
      rcases List.mem_append.mp listed with later | new
      · cases before.hearsOrigin with
        | asked none => exact absurd (List.mem_cons_of_mem action later) (none sent)
        | asks first once =>
            obtain ⟨-, rfl⟩ := List.cons.inj first
            exact absurd later (once sent)
      · cases x.perform_consequences action _ new

/-! ## After the request is sent -/

/-- What has come of the request, if it was to be sent: the origin has it, or the client is told
that it does not. -/
structure Contacted (c : Course) : Prop where
  sent : ∀ sent, .sendOriginRequest sent ∈ actionsOf c.seen →
    c.exchange.originRequest = (originRequest? sent).toOption
  told : ∀ sent cause, .sendOriginRequest sent ∈ actionsOf c.seen →
    originRequest? sent = .error cause →
    .respond (failure cause.gatewayStatus) ∈ actionsOf c.seen ++ c.pending

theorem Contacted.kept {c next : Course} (contacted : Contacted c)
    (request : next.exchange.originRequest = c.exchange.originRequest)
    (asked : ∀ sent, .sendOriginRequest sent ∈ actionsOf next.seen →
      .sendOriginRequest sent ∈ actionsOf c.seen)
    (listed : ∀ action ∈ actionsOf c.seen ++ c.pending,
      action ∈ actionsOf next.seen ++ next.pending) : Contacted next where
  sent sent now := request.trans (contacted.sent sent (asked sent now))
  told sent cause now refused := listed _ (contacted.told sent cause (asked sent now) refused)

theorem contacted_of_asks {x : Exchange} (asks : Asks x) {happened : List Event}
    {told turns : List Turn} {seen : List Observation} {request : RequestHead} {rest : List Action}
    (first : ∀ sent, .sendOriginRequest sent ∉ actionsOf seen) :
    Contacted ⟨(x.perform (.sendOriginRequest request)).1, happened, told ++ turns,
      rest ++ (x.perform (.sendOriginRequest request)).2,
      seen ++ [.performed (.sendOriginRequest request)]⟩ := by
  have only : ∀ sent, .sendOriginRequest sent ∈
      actionsOf (seen ++ [.performed (.sendOriginRequest request)]) → sent = request := by
    intro sent listed
    rw [actionsOf_concat] at listed
    rcases List.mem_append.mp listed with earlier | now
    · exact absurd earlier (first sent)
    · exact Action.sendOriginRequest.inj (List.mem_singleton.mp now)
  constructor
  · intro sent listed
    rw [only sent listed]
    cases read : originRequest? request with
    | ok asked => exact (perform_accepted asks.connected read).1
    | error cause => exact (perform_refused asks read).1
  · intro sent cause listed refused
    rw [only sent listed] at refused
    have answer := List.mem_of_head? (perform_refused asks refused).2
    exact List.mem_append_right _ (List.mem_append_right _ answer)

theorem Reached.contacted
    (reached : Reached cache (Session.fresh domain origin transform) bodyDone head c) :
    Contacted c := by
  induction reached with
  | asked => exact ⟨fun sent asked => (by cases asked), fun sent cause asked => (by cases asked)⟩
  | bodiless _ _ _ ih =>
      refine ih.kept rfl (fun _ => id) fun action listed => ?_
      exact List.mem_append_left _ (by simpa using listed)
  | @silent x _ _ seen _ event _ _ ih =>
      have same : actionsOf (seen ++ x.shown event) = actionsOf seen := by
        rw [actionsOf_append, actionsOf_shown, List.append_nil]
      refine ih.kept (x.arrive_originRequest event) (fun _ => by rw [same]; exact id) ?_
      rw [same]
      exact fun _ => id
  | @telling x _ _ seen _ event _ _ _ ih =>
      have same : actionsOf (seen ++ x.shown event) = actionsOf seen := by
        rw [actionsOf_append, actionsOf_shown, List.append_nil]
      refine ih.kept (x.arrive_originRequest event) (fun _ => by rw [same]; exact id) ?_
      intro action listed
      rw [same]
      exact List.mem_append_left _ (by simpa using listed)
  | @performing x _ _ _ action rest seen before _ _ ih =>
      by_cases asks : ∃ request, action = .sendOriginRequest request
      · obtain ⟨request, rfl⟩ := asks
        refine contacted_of_asks (before.asks rfl) fun sent earlier => ?_
        have first : ∀ action ∈ actionsOf seen, action.toOrigin = false :=
          before.inTurn (actionsOf seen) (.sendOriginRequest request) rest rfl
        cases first _ earlier
      · have other : ∀ sent, action ≠ .sendOriginRequest sent := fun sent own => asks ⟨sent, own⟩
        refine ih.kept (x.perform_originRequest other) (fun sent listed => ?_) fun done listed => ?_
        · rw [actionsOf_concat, List.mem_append, List.mem_singleton] at listed
          exact listed.resolve_right fun now => other sent now.symm
        · simp only [actionsOf_concat, List.mem_append, List.mem_cons] at listed ⊢
          tauto
  | @disposing x _ _ _ _ _ ih => exact ih.kept x.dispose_originRequest (fun _ => id) fun _ => id

end

/-- The target of a request is the key of its answer, and what the origin is asked for is that same
text.  Sending the request fails for no other target than one whose query stands directly behind
the authority; with such a target the origin is never asked, and the client is told of a bad
gateway. -/
theorem target_sent_unless_pathless (cache : ContentCache) (domain : String)
    (origin : Option Endpoint) (transform : Option Transform) (bodyDone : Bool) (head : RequestHead)
    {text : String} (read : Uri.ofText? text = some head.uri) :
    let session := Session.fresh domain origin transform
    let asked := fun sent : RequestHead =>
      { sent with uri := head.uri.originForm, version := .http11 }
    (head.uri.isPathless = false → head.uri.originForm.text = head.path) ∧
    (∀ (turns : List Turn) (event : Session.Event) (call : Call),
      Session.asked? (turns.map Turn.event ++ [event]) = some head →
      (session.play turns).1.call? event = some call → call.path = head.path) ∧
    (∀ c sent rest, Reached cache session bodyDone head c →
      c.pending = .sendOriginRequest sent :: rest →
      let next := c.exchange.perform (.sendOriginRequest sent)
      if head.uri.isPathless then
        next.1.originRequest = none ∧ next.2.head? = some (.respond (failure 502))
      else
        next.1.originRequest = some (asked sent) ∧ next.1.session = c.exchange.session ∧
          next.2 = []) ∧
    ∀ events,
      let begun := start cache session bodyDone head
      let seen := begun.2 ++ (begun.1.run events).2
      ∀ sent, .performed (.sendOriginRequest sent) ∈ seen →
        (begun.1.run events).1.originRequest =
          (if head.uri.isPathless then none else some (asked sent)) ∧
        (head.uri.isPathless = true → .performed (.respond (failure 502)) ∈ seen) := by
  intro session asked
  refine ⟨Uri.text_originForm read, fun turns event call first calls =>
    Session.path_of_call domain origin transform first calls, ?_, ?_⟩
  · intro c sent rest reached next
    have asks := reached.asks next
    have listed : .sendOriginRequest sent ∈ actionsOf c.seen ++ c.pending := by
      rw [next]
      exact List.mem_append_right _ List.mem_cons_self
    have reading := originRequest?_eq read (reached.sent_uri listed)
    split
    · rename_i pathless
      rw [if_pos pathless] at reading
      exact perform_refused asks reading
    · rename_i whole
      rw [if_neg whole] at reading
      exact perform_accepted asks.connected reading
  · intro events begun seen sent performed
    obtain ⟨told, reached⟩ := reached cache session bodyDone head events
    have listed : .sendOriginRequest sent ∈ actionsOf seen := mem_actionsOf.mpr performed
    have reading := originRequest?_eq read (reached.sent_uri (List.mem_append_left _ listed))
    have contacted := reached.contacted
    refine ⟨?_, fun pathless => ?_⟩
    · rw [contacted.sent sent listed, reading]
      cases head.uri.isPathless <;> rfl
    · rw [if_pos pathless] at reading
      have told := contacted.told sent _ listed reading
      rw [List.append_nil] at told
      exact mem_actionsOf.mp told

/-- A target in absolute form with a path and a query. -/
theorem absolute_target_sent :
    let cache : ContentCache := { partitions := [], maxEntries := 1 }
    let head : RequestHead :=
      { method := "GET", uri := .absolute "http" "example.com" "/page" (some "q=1") }
    let begun := start cache (Session.fresh "example.com" (some ⟨"10.0.0.1", 80⟩) none) true head
    head.uri.originForm.text = "/page?q=1" ∧
      (begun.1.run [.connected (.ok ())]).1.originRequest =
        some { Session.forwardedHead "example.com" head with
          uri := .rooted "/page" (some "q=1"), version := .http11 } := by
  intro cache head begun
  have read : Uri.ofText? "http://example.com/page?q=1" = some head.uri := by decide
  have sent : .performed (.sendOriginRequest (Session.forwardedHead "example.com" head)) ∈
      begun.2 ++ (begun.1.run [.connected (.ok ())]).2 := by decide +kernel
  obtain ⟨written, -, -, run⟩ := target_sent_unless_pathless cache "example.com"
    (some ⟨"10.0.0.1", 80⟩) none true head read
  exact ⟨written rfl, (run [.connected (.ok ())] _ sent).1⟩

/-- A query directly behind the authority: the origin can be reached and is not asked. -/
theorem pathless_target_not_sent :
    let cache : ContentCache := { partitions := [("example.com", [])], maxEntries := 1 }
    let head : RequestHead :=
      { method := "GET", uri := .absolute "http" "example.com" "" (some "q=1") }
    let begun := start cache (Session.fresh "example.com" (some ⟨"10.0.0.1", 80⟩) none) true head
    let seen := begun.2 ++ (begun.1.run [.connected (.ok ())]).2
    Uri.ofText? "http://example.com?q=1" = some head.uri ∧ head.path = "?q=1" ∧
      .performed (.sendOriginRequest (Session.forwardedHead "example.com" head)) ∈ seen ∧
      originRequest? (Session.forwardedHead "example.com" head) =
        .error (.http "invalid request target ?q=1: invalid format") ∧
      (begun.1.run [.connected (.ok ())]).1.originRequest = none ∧
      .performed (.respond (failure 502)) ∈ seen := by
  intro cache head begun seen
  refine ⟨by decide, by decide, ?_, by decide, ?_, ?_⟩ <;> decide +kernel

end Exchange

end CachingProxy
