import CachingProxy.Proofs.Exchange.Directions
import CachingProxy.Proofs.Exchange.Listening
import CachingProxy.Proofs.Session.Pausing

/-!
# How an exchange holds its two sides back

A chunk is read from either side only when nothing waits for the other, so no outlet ever holds more
than one back.  For the client this is brought about by the session, which says when its body is to
be held back: while a connection is awaited, and whenever the upload is blocked
(`Reached.ingress_matched`).
-/

set_option autoImplicit false

namespace CachingProxy.Exchange

open Session (Action Turn Accounted endsPaused)

/-! ## Pauses -/

theorem perform_ingressPaused (x : Exchange) (action : Action) :
    (x.perform action).1.ingressPaused = action.pausing x.ingressPaused := by
  cases action with
  | pauseIngress | resumeIngress => rfl
  | _ =>
      simp only [perform, sendResponse, sendBody, sendEom, startOrigin, openUpload, refuseTarget,
        tell, forwardBody, forwardEom, abortOrigin, closeUpload, closeDownload, abortDownload,
        Action.pausing]
      repeat' split
      all_goals rfl

theorem arrive_ingressPaused (x : Exchange) (event : Event) :
    (x.arrive event).1.ingressPaused = x.ingressPaused := by
  cases event with
  | clientFrame frame => cases frame <;> rfl
  | connected result => cases result <;> rfl
  | originReceived | uploadReady | downloadReady | deliveryReported | dropDownload =>
      simp only [arrive, drainUpload, onDownloadReady, closeUpload, closeDownload]
      repeat' split
      all_goals rfl
  | _ => rfl

theorem dispose_ingressPaused (x : Exchange) : x.dispose.ingressPaused = x.ingressPaused := by
  simp only [dispose, abortOrigin, closeUpload, closeDownload]
  repeat' split
  all_goals rfl

section

variable {cache : ContentCache} {domain : String} {origin : Option Endpoint}
  {transform : Option Transform} {bodyDone : Bool} {head : RequestHead} {c : Course}

theorem Reached.ingressPaused_eq {session : Session}
    (reached : Reached cache session bodyDone head c) :
    c.exchange.ingressPaused = endsPaused false (actionsOf c.seen) := by
  induction reached with
  | asked => rfl
  | bodiless _ _ _ ih => exact ih
  | silent _ _ _ ih | telling _ _ _ ih =>
      rw [actionsOf_append, actionsOf_shown, List.append_nil]
      exact (arrive_ingressPaused _ _).trans ih
  | @performing x _ _ _ action _ _ _ _ _ ih =>
      rw [actionsOf_concat, Session.endsPaused_append, ← ih]
      exact x.perform_ingressPaused action
  | @disposing x _ _ _ _ _ ih => exact x.dispose_ingressPaused.trans ih

theorem Reached.paused_waiting
    (reached : Reached cache (Session.fresh domain origin transform) bodyDone head c)
    (waits : c.exchange.session.state = .connecting) :
    endsPaused c.exchange.ingressPaused c.pending = true := by
  have paused := Session.play_paused_waiting domain origin transform c.told
  rw [reached.traced] at paused
  rw [reached.ingressPaused_eq, ← Session.endsPaused_append]
  exact paused waits

end

/-! ## Room for the upload -/

theorem isBlocked_eq_false {outlet : Option Outlet} {body : Option Body} :
    isBlocked outlet = false ↔ Pipe.waiting ⟨outlet, body⟩ = [] := by
  cases outlet <;> simp [isBlocked, Outlet.isBlocked, Pipe.waiting]

/-- An event leaves the upload as blocked as it was, unless the session is told of it. -/
theorem arrive_room (x : Exchange) {event : Event} (enabled : x.enabled event = true) :
    ((x.arrive event).2 = some .egressResumed ∧ isBlocked (x.arrive event).1.uploadOutlet = false) ∨
    (x.arrive event).2 = some .originDetached ∨
    (isBlocked (x.arrive event).1.uploadOutlet = isBlocked x.uploadOutlet ∧
      (x.arrive event).2 ≠ some .egressPaused ∧ (x.arrive event).2 ≠ some .egressResumed) := by
  cases event with
  | clientFrame frame =>
      cases frame with
      | data chunk => by_cases empty : chunk.isEmpty = true <;> simp [arrive, empty]
      | other | failed | ended => simp [arrive]
  | connected result => cases result <;> simp [arrive]
  | originReceived =>
      rw [arrive]
      split
      · rename_i report _ _
        cases report <;> simp [OriginEvent.told]
      · simp
  | uploadReady =>
      rw [Exchange.enabled, Bool.and_eq_true, Bool.and_eq_true] at enabled
      have blocked := enabled.1.2
      rw [arrive]
      dsimp only
      cases still : isBlocked x.drainUpload.uploadOutlet with
      | true => simp [blocked]
      | false =>
          left
          cases outlet : x.uploadOutlet with
          | none => cases (outlet ▸ blocked : isBlocked none = true)
          | some fed =>
              cases upload : x.upload with
              | some stream => exact ⟨rfl, rfl⟩
              | none =>
                  -- Without a stream nothing is drained, and the outlet is as blocked as before.
                  have same : x.drainUpload = x := by simp [drainUpload, outlet, upload]
                  rw [same] at still
                  cases blocked.symm.trans still
  | downloadReady =>
      right; right
      refine ⟨?_, by simp [arrive], by simp [arrive]⟩
      simp only [arrive, onDownloadReady, closeDownload]
      repeat' split
      all_goals rfl
  | deliveryReported | dropDownload =>
      rw [arrive]
      split <;> simp
  | _ => simp [arrive]

theorem forwardBody_room (x : Exchange) (chunk : Bytes) :
    ((x.forwardBody chunk).2 = [] ∧
      isBlocked (x.forwardBody chunk).1.uploadOutlet = isBlocked x.uploadOutlet) ∨
    ((x.forwardBody chunk).2 = x.session.onEgressPaused.2 ∧
      isBlocked (x.forwardBody chunk).1.uploadOutlet = true) := by
  cases outlet : x.uploadOutlet with
  | none => exact .inl (by simp [forwardBody, outlet])
  | some fed =>
      cases upload : x.upload with
      | none => exact .inl (by simp [forwardBody, outlet, upload])
      | some stream =>
          cases blocked : fed.isBlocked with
          | true =>
              have full : fed.queue.isEmpty = false := by
                rwa [Outlet.isBlocked, Bool.not_eq_true'] at blocked
              have waits : fed.queue ≠ [] := List.isEmpty_eq_false_iff.mp full
              left
              simp [forwardBody, outlet, upload, Outlet.push_of_waiting waits, full, isBlocked,
                Outlet.isBlocked]
          | false =>
              rcases pushed : fed.push stream chunk with ⟨_ | next, rest⟩
              · left
                simp [forwardBody, outlet, upload, pushed, closeUpload, isBlocked, blocked]
              · cases blocks : next.isBlocked with
                | true =>
                    right
                    simp [forwardBody, outlet, upload, pushed, isBlocked, blocked, blocks, tell,
                      Session.step]
                | false =>
                    left
                    simp [forwardBody, outlet, upload, pushed, isBlocked, blocked, blocks]

theorem forwardEom_room (x : Exchange) :
    isBlocked x.forwardEom.uploadOutlet = isBlocked x.uploadOutlet := by
  cases outlet : x.uploadOutlet with
  | none => simp [forwardEom, outlet]
  | some fed =>
      cases queue : fed.queue with
      | nil =>
          simp [forwardEom, outlet, closeUpload, Outlet.isFinished, isBlocked, Outlet.isBlocked,
            queue]
      | cons first rest =>
          simp [forwardEom, outlet, Outlet.isFinished, isBlocked, Outlet.isBlocked, queue]

theorem perform_room (x : Exchange) {action : Action}
    (asked : ∀ request, action ≠ .sendOriginRequest request) (kept : action ≠ .abortOrigin) :
    ((x.perform action).2 = [] ∧
      isBlocked (x.perform action).1.uploadOutlet = isBlocked x.uploadOutlet) ∨
    ((x.perform action).2 = x.session.onEgressPaused.2 ∧
      isBlocked (x.perform action).1.uploadOutlet = true) := by
  cases action with
  | sendOriginRequest request => exact absurd rfl (asked request)
  | abortOrigin => exact absurd rfl kept
  | forwardBody chunk => exact x.forwardBody_room chunk
  | forwardEom => exact .inl ⟨rfl, x.forwardEom_room⟩
  | _ =>
      refine .inl ⟨rfl, congrArg isBlocked ?_⟩
      exact congrArg Pipe.outlet (x.upstream_perform asked)

section

variable {cache : ContentCache} {domain : String} {origin : Option Endpoint}
  {transform : Option Transform} {bodyDone : Bool} {head : RequestHead} {c : Course}

theorem Reached.uploadOutlet_eq_none
    (reached : Reached cache (Session.fresh domain origin transform) bodyDone head c)
    (unheard : c.exchange.receiving = false) : c.exchange.uploadOutlet = none :=
  reached.uploads.attached unheard

theorem openUpload_room {x : Exchange} (outlet : x.uploadOutlet = none) :
    isBlocked x.openUpload.uploadOutlet = false := by
  rw [openUpload]
  split
  · rfl
  · rw [outlet]
    rfl

theorem Reached.heard {x : Exchange} {happened : List Event} {told : List Turn}
    {seen : List Observation} (reached : Reached cache (Session.fresh domain origin transform)
      bodyDone head ⟨x, happened, told, [], seen⟩) : x.receiving = x.session.originAttached := by
  cases reached.hearsOrigin with
  | asked _ same => exact same
  | asks first => cases first

/-- The request to the origin opens the upload, or is refused and leaves no origin. -/
theorem Reached.asking {x : Exchange} {happened : List Event} {told : List Turn}
    {request : RequestHead} {rest : List Action} {seen : List Observation}
    (reached : Reached cache (Session.fresh domain origin transform) bodyDone head
      ⟨x, happened, told, .sendOriginRequest request :: rest, seen⟩) :
    x.uploadOutlet = none ∧
      (((x.startOrigin request).2 = [] ∧ (x.startOrigin request).1.session = x.session ∧
        (x.startOrigin request).1.receiving = true ∧
        (x.startOrigin request).1.upstream = x.openUpload.upstream) ∨
      ((x.startOrigin request).1.session.originAttached = false ∧
        (x.startOrigin request).1.upstream = ⟨none, none⟩)) := by
  cases reached.hearsOrigin with
  | asked none => exact absurd List.mem_cons_self (none request)
  | asks _ _ connected _ unheard =>
      refine ⟨reached.uploadOutlet_eq_none unheard, ?_⟩
      exact (startOrigin_cases reached.accounted.toSettled connected request).imp_right
        fun refused => ⟨refused.1, refused.2.2⟩

/-- Once all is performed, the client's body is held back exactly while the upload is blocked, as
long as the origin is there and answers a client that is there. -/
def Matched (x : Exchange) (pending : List Action) : Prop :=
  x.session.originOpen = true → x.session.clientTerminated = false →
    endsPaused x.ingressPaused pending = isBlocked x.uploadOutlet

theorem arrive_holding {x : Exchange} {event : Event} {said : Session.Event}
    (enabled : x.enabled event = true) (tells : (x.arrive event).2 = some said)
    (stays : said ≠ .originDetached) (same : x.ingressPaused = isBlocked x.uploadOutlet) :
    said.holding x.ingressPaused = isBlocked (x.arrive event).1.uploadOutlet := by
  rcases x.arrive_room enabled with ⟨told, room⟩ | told | ⟨room, unpaused, unresumed⟩
  · obtain rfl := Option.some.inj (tells.symm.trans told)
    exact room.symm
  · exact absurd (Option.some.inj (tells.symm.trans told)) stays
  · rw [room, ← same]
    cases said with
    | egressPaused => exact absurd tells unpaused
    | egressResumed => exact absurd tells unresumed
    | _ => rfl

/-- Before the connection there was no upload. -/
theorem Reached.connected_room {x : Exchange} {happened : List Event} {told : List Turn}
    {seen : List Observation} (before : Reached cache (Session.fresh domain origin transform)
      bodyDone head ⟨x, happened, told, [], seen⟩)
    (waiting : x.session.state = .connecting) {event : Event} (enabled : x.enabled event = true)
    (tells : (x.arrive event).2 = some .connectSuccess) :
    isBlocked (x.arrive event).1.uploadOutlet = false := by
  rcases x.arrive_room enabled with ⟨_, room⟩ | told | ⟨room, _⟩
  · exact room
  · cases tells.symm.trans told
  · rw [room, before.uploadOutlet_eq_none
      (before.heard.trans (before.accounted.early (.inr waiting)).1)]
    rfl

theorem Reached.matched_of_told {x : Exchange} {happened : List Event} {told : List Turn}
    {seen : List Observation} (before : Reached cache (Session.fresh domain origin transform)
      bodyDone head ⟨x, happened, told, [], seen⟩) {event : Event} {said : Session.Event}
    (enabled : x.enabled event = true) (tells : (x.arrive event).2 = some said)
    (matched : x.Matched []) :
    ((x.arrive event).1.tell said).1.Matched ((x.arrive event).1.tell said).2 := by
  intro isOpen present
  have session := arrive_session x event
  have accounted : Accounted (x.arrive event).1.session := session ▸ before.accounted
  change endsPaused (x.arrive event).1.ingressPaused _ = isBlocked (x.arrive event).1.uploadOutlet
  rw [arrive_ingressPaused]
  rcases Session.take_paused_open _ ⟨(x.arrive event).1.cache, said⟩ accounted isOpen present
    x.ingressPaused with ⟨rfl, waiting, resumed⟩ | ⟨wasOpen, wasPresent, holds⟩
  · rw [session] at waiting
    exact resumed.trans (before.connected_room waiting enabled tells).symm
  · rw [session] at wasOpen wasPresent
    refine holds.trans (arrive_holding enabled tells ?_ (matched wasOpen wasPresent))
    rintro rfl
    have lost := Session.take_detached _ ⟨(x.arrive event).1.cache, .originDetached⟩
      accounted.toSettled rfl
    cases lost.symm.trans ((Session.originOpen_iff _).mp isOpen).1

theorem endsPaused_perform (x : Exchange) (action : Action) (rest : List Action) :
    endsPaused (x.perform action).1.ingressPaused (rest ++ (x.perform action).2) =
      endsPaused (endsPaused x.ingressPaused (action :: rest)) (x.perform action).2 := by
  rw [perform_ingressPaused, Session.endsPaused_append]
  rfl

theorem Reached.matched_of_asked {x : Exchange} {happened : List Event} {told : List Turn}
    {request : RequestHead} {rest : List Action} {seen : List Observation}
    (before : Reached cache (Session.fresh domain origin transform) bodyDone head
      ⟨x, happened, told, .sendOriginRequest request :: rest, seen⟩)
    (matched : x.Matched (.sendOriginRequest request :: rest)) :
    (x.perform (.sendOriginRequest request)).1.Matched
      (rest ++ (x.perform (.sendOriginRequest request)).2) := by
  intro isOpen present
  rw [endsPaused_perform]
  obtain ⟨outlet, ⟨nothing, session, _, upstream⟩ | ⟨detached, _⟩⟩ := before.asking
  · have room : isBlocked (x.startOrigin request).1.uploadOutlet = false := by
      rw [show (x.startOrigin request).1.uploadOutlet = x.openUpload.uploadOutlet from
        congrArg Pipe.outlet upstream]
      exact openUpload_room outlet
    rw [perform, session] at isOpen present
    rw [perform, nothing, room]
    refine (matched isOpen present).trans ?_
    rw [outlet]
    rfl
  · cases detached.symm.trans ((Session.originOpen_iff _).mp isOpen).1

theorem Reached.matched_of_performed {x : Exchange} {happened : List Event} {told : List Turn}
    {action : Action} {rest : List Action} {seen : List Observation}
    (before : Reached cache (Session.fresh domain origin transform) bodyDone head
      ⟨x, happened, told, action :: rest, seen⟩) (matched : x.Matched (action :: rest)) :
    (x.perform action).1.Matched (rest ++ (x.perform action).2) := by
  by_cases asks : ∃ request, action = .sendOriginRequest request
  · obtain ⟨request, rfl⟩ := asks
    exact before.matched_of_asked matched
  rw [not_exists] at asks
  intro isOpen present
  by_cases lost : action = .abortOrigin
  · subst lost
    cases (x.abortOrigin_detached before.accounted.toSettled).symm.trans
      ((Session.originOpen_iff _).mp isOpen).1
  rw [(x.perform_origin asks lost).1] at isOpen present
  rw [endsPaused_perform]
  rcases x.perform_room asks lost with ⟨nothing, room⟩ | ⟨paused, blocked⟩
  · rw [nothing, room]
    exact matched isOpen present
  · -- The session is told that the upload is full, and holds the body back.
    have alive : x.session.released = false := Bool.eq_false_iff.mpr fun released => by
      cases present.symm.trans (before.accounted.released_iff.mp released).1
    rw [paused, blocked, Session.onEgressPaused, if_neg (by simp [alive, present, isOpen])]
    rfl

theorem Reached.ingress_matched
    (reached : Reached cache (Session.fresh domain origin transform) bodyDone head c) :
    c.exchange.Matched c.pending := by
  induction reached with
  | asked =>
      intro isOpen _
      have attached := Session.take_attached_eq (Session.fresh domain origin transform)
        ⟨cache, .request head⟩ (by simp) (by simp)
      cases attached.symm.trans ((Session.originOpen_iff _).mp isOpen).1
  | @bodiless x _ _ before _ _ ih =>
      intro isOpen present
      rcases x.session.take_paused_open ⟨x.cache, .clientEom⟩ before.accounted isOpen present
        x.ingressPaused with ⟨own, _⟩ | ⟨wasOpen, wasPresent, same⟩
      · cases own
      · exact same.trans (ih wasOpen wasPresent)
  | @silent x _ _ _ _ event enabled tells ih =>
      intro isOpen present
      rw [arrive_session] at isOpen present
      change (x.arrive event).1.ingressPaused = isBlocked (x.arrive event).1.uploadOutlet
      rw [arrive_ingressPaused]
      rcases x.arrive_room enabled with ⟨told, _⟩ | told | ⟨room, _⟩
      · cases tells.symm.trans told
      · cases tells.symm.trans told
      · rw [room]
        exact ih isOpen present
  | telling before enabled tells ih => exact before.matched_of_told enabled tells ih
  | performing before _ _ ih => exact before.matched_of_performed ih
  | @disposing x _ _ _ before released _ =>
      intro _ present
      have session : x.dispose.session = x.session := dispose_session x
      rw [before.released_eq rfl, before.accounted.released_iff] at released
      rw [session] at present
      cases present.symm.trans released.1

end

/-! ## What the client is asked for -/

theorem reads_of_clientBody {x : Exchange} {event : Event} {said : Session.Event}
    (enabled : x.enabled event = true) (tells : (x.arrive event).2 = some said)
    (body : said.ofClientBody = true) :
    x.readsClient = true ∧ (x.arrive event).1.upstream = x.upstream ∧
      (x.arrive event).1.receiving = x.receiving := by
  have news : newsFrom said = some .clientBody := by cases said <;> first | rfl | cases body
  have source := source_of_news tells news
  cases event with
  | clientFrame frame => cases frame <;> exact ⟨enabled, rfl, rfl⟩
  | _ => cases source

theorem not_paused_of_reads {x : Exchange} (reads : x.readsClient = true) :
    x.ingressPaused = false := by
  rw [readsClient, Bool.and_eq_true, Bool.and_eq_true] at reads
  simpa using reads.1.2

theorem room_of_originEvents {x : Exchange} {event : Event} {said : Session.Event}
    (enabled : x.enabled event = true) (tells : (x.arrive event).2 = some said)
    (news : newsFrom said = some .originEvents) :
    isBlocked (x.arrive event).1.downloadOutlet = false := by
  have source := source_of_news tells news
  cases event with
  | originReceived =>
      rw [Exchange.enabled, readsOrigin, Bool.and_eq_true, Bool.and_eq_true] at enabled
      rcases x.downstream_arrive .originReceived with own | own | own | ⟨same, _⟩
      · cases own
      · cases own
      · cases own
      · have outlet : (x.arrive .originReceived).1.downloadOutlet = x.downloadOutlet :=
          congrArg Pipe.outlet same
        rw [outlet]
        simpa using enabled.1.2
  | _ => cases source

theorem ofConnection_of_internal {event : Session.Event} (internal : isInternal event = true) :
    event.ofConnection = false := by
  cases event <;> first | rfl | cases internal

theorem arrive_connecting (x : Exchange) (event : Event) :
    (x.arrive event).1.connecting = none ∨ (x.arrive event).1.connecting = x.connecting ∧
      ∀ said, (x.arrive event).2 = some said → said.ofConnection = false := by
  have others : event.source? ≠ some .connection →
      ∀ said, (x.arrive event).2 = some said → said.ofConnection = false := by
    intro other said tells
    refine Bool.eq_false_iff.mpr fun own => other (source_of_news tells ?_)
    cases said <;> first | rfl | cases own
  cases event with
  | connected result => cases result <;> exact .inl rfl
  | clientFrame frame => cases frame <;> exact .inr ⟨rfl, others (by simp [Event.source?])⟩
  | _ =>
      refine .inr ⟨?_, others (by simp [Event.source?])⟩
      simp only [arrive, drainUpload, onDownloadReady, closeUpload, closeDownload]
      repeat' split
      all_goals rfl

theorem perform_connecting (x : Exchange) {action : Action}
    (other : ∀ origin, action ≠ .connect origin) :
    (x.perform action).1.connecting = none ∨ (x.perform action).1.connecting = x.connecting := by
  cases action with
  | connect origin => exact absurd rfl (other origin)
  | abortOrigin => exact .inl rfl
  | _ =>
      right
      simp only [perform, sendResponse, sendBody, sendEom, startOrigin, openUpload, refuseTarget,
        tell, forwardBody, forwardEom, closeUpload, closeDownload, abortDownload]
      repeat' split
      all_goals rfl

/-- A connection that is under way, or is still to be opened, was so before an action. -/
theorem connecting_of_perform {x : Exchange} {action : Action} {rest : List Action}
    (connecting : (x.perform action).1.connecting.isSome = true ∨
      ∃ origin, .connect origin ∈ rest ++ (x.perform action).2) :
    x.connecting.isSome = true ∨ ∃ origin, .connect origin ∈ action :: rest := by
  by_cases connects : ∃ origin, action = .connect origin
  · obtain ⟨origin, rfl⟩ := connects
    exact .inr ⟨origin, List.mem_cons_self⟩
  rw [not_exists] at connects
  rcases connecting with already | ⟨origin, member⟩
  · rcases x.perform_connecting connects with none | same
    · rw [none] at already
      cases already
    · rw [same] at already
      exact .inl already
  · rcases List.mem_append.mp member with later | new
    · exact .inr ⟨origin, List.mem_cons_of_mem action later⟩
    · cases x.perform_consequences action _ new

section

variable {cache : ContentCache} {domain : String} {origin : Option Endpoint}
  {transform : Option Transform} {bodyDone : Bool} {head : RequestHead} {c : Course}

theorem Reached.unheld
    (reached : Reached cache (Session.fresh domain origin transform) bodyDone head c) :
    c.exchange.session.pendingBody = [] := by
  induction reached with
  | asked =>
      exact (Session.fresh domain origin transform).take_unheld ⟨cache, .request head⟩ rfl (by simp)
  | @bodiless x _ _ _ _ _ ih => exact x.session.take_unheld ⟨x.cache, .clientEom⟩ ih (by simp)
  | silent _ _ _ ih => exact (congrArg _ (arrive_session _ _)).trans ih
  | @telling x _ _ _ before event said enabled tells ih =>
      have session := arrive_session x event
      refine Session.take_unheld _ ⟨(x.arrive event).1.cache, said⟩ (session ▸ ih) ?_
      rintro chunk rfl waits
      rw [session] at waits
      have paused := before.paused_waiting waits
      have reads := (reads_of_clientBody enabled tells rfl).1
      cases (not_paused_of_reads reads).symm.trans paused
  | @performing x _ _ turns _ _ _ _ internal plays ih =>
      have unheld := x.session.play_unheld turns ih fun turn member =>
        ofClientBody_of_internal (internal turn member)
      rwa [plays] at unheld
  | disposing _ _ ih => exact (congrArg _ (dispose_session _)).trans ih

theorem Reached.waits
    (reached : Reached cache (Session.fresh domain origin transform) bodyDone head c)
    (connecting : c.exchange.connecting.isSome = true ∨ ∃ origin, .connect origin ∈ c.pending) :
    c.exchange.session.Waits := by
  induction reached with
  | asked =>
      rcases connecting with already | ⟨_, connects⟩
      · cases already
      · exact (Session.fresh domain origin transform).take_waits_of_connects
          ⟨cache, .request head⟩ connects
  | @bodiless x _ _ before _ _ ih =>
      rcases connecting with already | ⟨_, connects⟩
      · exact x.session.take_stays_waiting ⟨x.cache, .clientEom⟩ before.accounted rfl
          (ih (.inl already))
      · exact x.session.take_waits_of_connects ⟨x.cache, .clientEom⟩ connects
  | @silent x _ _ _ _ event _ _ ih =>
      rcases connecting with already | ⟨_, connects⟩
      · rcases x.arrive_connecting event with none | ⟨same, _⟩
        · rw [none] at already
          cases already
        · rw [same] at already
          exact (arrive_session x event).symm ▸ ih (.inl already)
      · cases connects
  | @telling x _ _ _ before event said _ tells ih =>
      have session := arrive_session x event
      rcases connecting with already | ⟨_, connects⟩
      · rcases x.arrive_connecting event with none | ⟨same, others⟩
        · change (x.arrive event).1.connecting.isSome = true at already
          rw [none] at already
          cases already
        · change (x.arrive event).1.connecting.isSome = true at already
          rw [same] at already
          refine Session.take_stays_waiting _ ⟨(x.arrive event).1.cache, said⟩ ?_
            (others said tells) ?_
          · rw [session]
            exact before.accounted
          · rw [session]
            exact ih (.inl already)
      · exact Session.take_waits_of_connects _ ⟨(x.arrive event).1.cache, said⟩ connects
  | @performing x _ _ turns action rest _ before internal plays ih =>
      have waits : x.session.Waits := ih (connecting_of_perform connecting)
      have after := x.session.play_stays_waiting turns before.accounted
        (fun turn member => ofConnection_of_internal (internal turn member)) waits
      rwa [plays] at after
  | @disposing x _ _ _ _ _ _ =>
      have given : x.dispose.connecting = none := by
        simp only [dispose, abortOrigin, closeDownload]
        split <;> rfl
      rcases connecting with already | ⟨_, connects⟩
      · change x.dispose.connecting.isSome = true at already
        rw [given] at already
        cases already
      · cases connects

end

/-! ## One chunk at a time -/

theorem Uploads.shut {bodyDone : Bool} {x : Exchange} {seen : List Observation}
    (uploads : Uploads bodyDone x seen) (unstreamed : x.upload = none) : x.uploadOutlet = none := by
  cases outlet : x.uploadOutlet with
  | none => rfl
  | some fed =>
      obtain ⟨body, present, _⟩ := uploads.carries.fed fed outlet
      cases unstreamed.symm.trans present

/-- What is to be forwarded while the actions of one event are performed: a chunk or an end at a
time, and only where nothing waits. -/
inductive Uploading (x : Exchange) (pending : List Action) : Prop
  | clear (nothing : ∀ action ∈ pending, action.toOrigin = false)
  | body {chunk : Bytes} (alone : pending = [.forwardBody chunk])
      (room : isBlocked x.uploadOutlet = false)
  | eom {rest : List Action} (first : pending = .forwardEom :: rest)
      (nothing : ∀ action ∈ rest, action.toOrigin = false)
      (room : isBlocked x.uploadOutlet = false)
      (streams : x.upload.isSome = true → x.receiving = true)
  | asks {request : RequestHead} {eom : List Action}
      (first : pending = .sendOriginRequest request :: (eom ++ [.resumeIngress]))
      (short : eom = [] ∨ eom = [.forwardEom])

/-- What is to be sent on of a streamed answer: a chunk or an end at a time, and only to a client
that is there, where nothing waits. -/
inductive Downloading (x : Exchange) (pending : List Action) : Prop
  | clear (nothing : ∀ action ∈ pending, action.ofStream = false)
  | one {action : Action} (alone : pending = [action]) (room : isBlocked x.downloadOutlet = false)
      (present : x.session.clientTerminated = false)

theorem toOrigin_of_consequence {action : Action} (consequence : isConsequence action = true) :
    action.toOrigin = false ∧ action.ofStream = false := by
  cases action <;> first | exact ⟨rfl, rfl⟩ | cases consequence

section

variable {cache : ContentCache} {domain : String} {origin : Option Endpoint}
  {transform : Option Transform} {bodyDone : Bool} {head : RequestHead} {c : Course}

/-- The client's body is read only where nothing waits for the origin. -/
theorem Reached.body_room {x : Exchange} {happened : List Event} {told : List Turn}
    {seen : List Observation} (before : Reached cache (Session.fresh domain origin transform)
      bodyDone head ⟨x, happened, told, [], seen⟩) {event : Event} {said : Session.Event}
    (enabled : x.enabled event = true) (tells : (x.arrive event).2 = some said)
    (body : said.ofClientBody = true) (isOpen : x.session.originOpen = true)
    (present : x.session.clientTerminated = false) :
    isBlocked (x.arrive event).1.uploadOutlet = false ∧ (x.arrive event).1.receiving = true := by
  obtain ⟨reads, upstream, receiving⟩ := reads_of_clientBody enabled tells body
  have matched := before.ingress_matched isOpen present
  have flows : x.ingressPaused = false := not_paused_of_reads reads
  refine ⟨?_, receiving.trans (before.heard.trans ((Session.originOpen_iff _).mp isOpen).1)⟩
  rw [show (x.arrive event).1.uploadOutlet = x.uploadOutlet from congrArg Pipe.outlet upstream,
    ← matched]
  exact flows

theorem Reached.uploading_of_performed {x : Exchange} {happened : List Event} {told : List Turn}
    {action : Action} {rest : List Action} {seen : List Observation}
    (before : Reached cache (Session.fresh domain origin transform) bodyDone head
      ⟨x, happened, told, action :: rest, seen⟩) (uploading : Uploading x (action :: rest)) :
    Uploading (x.perform action).1 (rest ++ (x.perform action).2) := by
  -- No consequence of an action is to be forwarded.
  have clear : ∀ others : List Action, (∀ other ∈ others, other.toOrigin = false) →
      ∀ other ∈ others ++ (x.perform action).2, other.toOrigin = false := by
    intro others nothing other member
    rcases List.mem_append.mp member with later | new
    · exact nothing other later
    · exact (toOrigin_of_consequence (x.perform_consequences action other new)).1
  cases uploading with
  | clear nothing =>
      exact .clear (clear rest fun other later =>
        nothing other (List.mem_cons_of_mem action later))
  | body alone =>
      obtain ⟨_, rfl⟩ := List.cons.inj alone
      exact .clear (clear _ (by simp))
  | eom first nothing =>
      obtain ⟨_, rfl⟩ := List.cons.inj first
      exact .clear (clear _ nothing)
  | asks first short =>
      obtain ⟨rfl, rfl⟩ := List.cons.inj first
      rcases short with rfl | rfl
      · exact .clear (clear _ (by simp [Action.toOrigin]))
      · have resumes := clear [.resumeIngress] (by simp [Action.toOrigin])
        obtain ⟨outlet, ⟨_, _, receiving, upstream⟩ | ⟨_, upstream⟩⟩ := before.asking
        · refine .eom rfl resumes ?_ fun _ => receiving
          exact (congrArg (isBlocked ·.outlet) upstream).trans (openUpload_room outlet)
        · refine .eom rfl resumes (congrArg (isBlocked ·.outlet) upstream) fun present => ?_
          cases (congrArg (·.body.isSome) upstream).symm.trans present

theorem Reached.uploading
    (reached : Reached cache (Session.fresh domain origin transform) bodyDone head c) :
    Uploading c.exchange c.pending := by
  induction reached with
  | asked =>
      rcases (Session.fresh domain origin transform).take_uploads ⟨cache, .request head⟩ rfl with
        nothing | ⟨_, ⟨_, own, _⟩ | ⟨own, _⟩⟩ | ⟨_, own, _⟩
      · exact .clear nothing
      · cases own
      · cases own
      · cases own
  | @bodiless x _ _ before nothing _ _ =>
      rcases x.session.take_uploads ⟨x.cache, .clientEom⟩ before.unheld with
        nothing | ⟨⟨isOpen, _⟩, ⟨_, own, _⟩ | ⟨_, forwards⟩⟩ | ⟨_, own, _⟩
      · exact .clear nothing
      · cases own
      · -- The client sends no body, so there is no upload.
        have unstreamed : x.upload.isSome = false := Bool.eq_false_iff.mpr fun present => by
          cases nothing.symm.trans (before.uploads.streamed present)
        have outlet : x.uploadOutlet = none :=
          before.uploads.shut (Option.not_isSome_iff_eq_none.mp (by simp [unstreamed]))
        refine .eom forwards (by simp) ?_ fun present => ?_
        · change isBlocked x.uploadOutlet = false
          rw [outlet]
          rfl
        · cases unstreamed.symm.trans present
      · cases own
  | silent => exact .clear (by simp)
  | @telling x _ _ _ before event said enabled tells _ =>
      have session := arrive_session x event
      rcases Session.take_uploads _ ⟨(x.arrive event).1.cache, said⟩ (session ▸ before.unheld) with
        nothing | ⟨⟨isOpen, present, _⟩, forwards⟩ | ⟨request, _, eom, short, asks⟩
      · exact .clear nothing
      · rw [session] at isOpen present
        rcases forwards with ⟨chunk, rfl, forwards⟩ | ⟨rfl, forwards⟩
        · exact .body forwards (before.body_room enabled tells rfl isOpen present).1
        · obtain ⟨room, receiving⟩ := before.body_room enabled tells rfl isOpen present
          exact .eom forwards (by simp) room fun _ => receiving
      · exact .asks asks short
  | performing before _ _ ih => exact before.uploading_of_performed ih
  | disposing => exact .clear (by simp)

theorem Reached.downloading
    (reached : Reached cache (Session.fresh domain origin transform) bodyDone head c) :
    Downloading c.exchange c.pending := by
  induction reached with
  | asked =>
      rcases (Session.fresh domain origin transform).take_downloads ⟨cache, .request head⟩ with
        nothing | ⟨own, _⟩
      · exact .clear nothing
      · cases own
  | @bodiless x =>
      rcases x.session.take_downloads ⟨x.cache, .clientEom⟩ with nothing | ⟨own, _⟩
      · exact .clear nothing
      · cases own
  | silent => exact .clear (by simp)
  | @telling x _ _ _ before event said enabled tells _ =>
      rcases Session.take_downloads (x.arrive event).1.session ⟨(x.arrive event).1.cache, said⟩ with
        nothing | ⟨continues, present, action, alone⟩
      · exact .clear nothing
      · have news : newsFrom said = some .originEvents := by
          cases said <;> first | rfl | cases continues
        exact .one alone (room_of_originEvents enabled tells news) present
  | @performing x _ _ _ action rest _ _ _ _ ih =>
      refine .clear fun other member => ?_
      rcases List.mem_append.mp member with later | new
      · cases ih with
        | clear nothing => exact nothing other (List.mem_cons_of_mem action later)
        | one alone =>
            obtain ⟨_, rfl⟩ := List.cons.inj alone
            cases later
      · exact (toOrigin_of_consequence (x.perform_consequences action other new)).2
  | disposing => exact .clear (by simp)

theorem Reached.upstream_light {x : Exchange} {happened : List Event} {told : List Turn}
    {action : Action} {rest : List Action} {seen : List Observation}
    (reached : Reached cache (Session.fresh domain origin transform) bodyDone head
      ⟨x, happened, told, action :: rest, seen⟩) (light : x.upstream.Light) :
    (x.perform action).1.upstream.Light := by
  by_cases asks : ∃ request, action = .sendOriginRequest request
  · obtain ⟨request, rfl⟩ := asks
    obtain ⟨_, ⟨_, _, _, upstream⟩ | ⟨_, upstream⟩⟩ := reached.asking
    · rw [perform, upstream, openUpload]
      split
      · exact Nat.zero_le 1
      · exact light
    · rw [perform, upstream]
      exact Pipe.light_of_shut rfl
  rw [not_exists] at asks
  rw [x.upstream_perform asks]
  by_cases pushes : ∃ chunk, action = .forwardBody chunk
  · obtain ⟨chunk, rfl⟩ := pushes
    refine light.push (isBlocked_eq_false.mp ?_) chunk
    cases reached.uploading with
    | clear nothing => cases nothing _ List.mem_cons_self
    | body _ room => exact room
    | eom first => cases (List.cons.inj first).1
    | asks first => cases (List.cons.inj first).1
  · refine light.run ?_
    rw [pushes_onUpstream]
    cases action with
    | forwardBody chunk => exact absurd ⟨chunk, rfl⟩ pushes
    | _ => rfl

theorem Reached.downstream_light {x : Exchange} {happened : List Event} {told : List Turn}
    {action : Action} {rest : List Action} {seen : List Observation}
    (reached : Reached cache (Session.fresh domain origin transform) bodyDone head
      ⟨x, happened, told, action :: rest, seen⟩) (light : x.downstream.Light) :
    (x.perform action).1.downstream.Light := by
  cases action with
  | respond response =>
      obtain ⟨body, given, _⟩ := x.downstream_sendResponse response.head (.full response.body)
      rw [perform, given]
      exact light
  | sendHeaders head =>
      obtain ⟨body, given, _⟩ := downstream_sendResponse { x with downloadOutlet := some {} } head
        (streamedBody x.method head)
      rw [perform, given]
      exact Nat.zero_le 1
  | sendBody chunk =>
      rw [x.downstream_performed (by simp) (by simp)]
      refine light.push (isBlocked_eq_false.mp ?_) chunk
      cases reached.downloading with
      | clear nothing => cases nothing _ List.mem_cons_self
      | one _ room => exact room
  | _ =>
      rw [x.downstream_performed (by simp) (by simp)]
      exact light.run pushes_onDownstream

theorem Reached.light
    (reached : Reached cache (Session.fresh domain origin transform) bodyDone head c) :
    c.exchange.upstream.Light ∧ c.exchange.downstream.Light := by
  have arrived : ∀ {x : Exchange} {event : Event}, x.enabled event = true →
      x.upstream.Light ∧ x.downstream.Light →
      (x.arrive event).1.upstream.Light ∧ (x.arrive event).1.downstream.Light := by
    intro x event enabled light
    have upload := light.1.run (x.pushes_arriveUpstream event)
    have download := light.2.run (pushes_arriveDownstream event)
    rw [x.upstream_arrive enabled] at upload
    rw [x.downstream_arrived enabled] at download
    exact ⟨upload, download⟩
  induction reached with
  | asked => exact ⟨Pipe.light_of_shut rfl, Pipe.light_of_shut rfl⟩
  | bodiless _ _ _ ih => exact ih
  | silent _ enabled _ ih => exact arrived enabled ih
  | telling _ enabled _ ih => exact arrived enabled ih
  | @performing x _ _ _ action rest _ before _ _ ih =>
      exact ⟨before.upstream_light ih.1, before.downstream_light ih.2⟩
  | @disposing x _ _ _ _ _ ih =>
      change x.dispose.upstream.Light ∧ x.dispose.downstream.Light
      rw [x.upstream_dispose, x.downstream_dispose]
      exact ⟨ih.1.close, ih.2.close⟩

end

/-! ## A whole run -/

/-- However the events come, neither outlet ever holds more than one chunk back, and nothing of the
client's body is read, or held by the session, while a connection is awaited.  Once the actions of
an event are performed the client's body is held back exactly while the upload is blocked, as long
as the origin is there and answers and the client is there. -/
theorem backlog_bounded_and_ingress_matched (cache : ContentCache) (domain : String)
    (origin : Option Endpoint) (transform : Option Transform) (bodyDone : Bool)
    (head : RequestHead) :
    let session := Session.fresh domain origin transform
    (∀ c, Reached cache session bodyDone head c →
      (∀ outlet, c.exchange.uploadOutlet = some outlet ∨ c.exchange.downloadOutlet = some outlet →
        outlet.queue.length ≤ 1) ∧
      c.exchange.session.pendingBody = []) ∧
    ∀ events,
      let x := ((start cache session bodyDone head).1.run events).1
      (∃ happened told seen, Reached cache session bodyDone head ⟨x, happened, told, [], seen⟩) ∧
      (x.connecting.isSome = true → ∀ frame, x.enabled (.clientFrame frame) = false) ∧
      (x.session.originAttached = true → x.session.originDone = false →
        x.session.clientTerminated = false → (x.ingressPaused = true ↔
          ∃ outlet, x.uploadOutlet = some outlet ∧ outlet.queue ≠ [])) := by
  intro session
  refine ⟨fun c reached => ⟨?_, reached.unheld⟩, fun events => ?_⟩
  · obtain ⟨upload, download⟩ := reached.light
    rintro outlet (fed | fed)
    · rwa [Pipe.Light, Pipe.waiting, upstream, fed] at upload
    · rwa [Pipe.Light, Pipe.waiting, downstream, fed] at download
  · intro x
    obtain ⟨told, reached⟩ := reached cache session bodyDone head events
    refine ⟨⟨_, told, _, reached⟩, fun connecting frame => ?_, fun attached undone present => ?_⟩
    · -- A session that waits holds the body back, and a released exchange reads nothing.
      refine Bool.eq_false_iff.mpr fun reads => ?_
      rcases reached.waits (.inl connecting) with waiting | released
      · cases (not_paused_of_reads reads).symm.trans (reached.paused_waiting waiting)
      · have freed : x.released = true := (reached.released_eq rfl).trans released
        simp [enabled, readsClient, freed] at reads
    · have isOpen := (Session.originOpen_iff _).mpr ⟨attached, undone⟩
      have matched : x.ingressPaused = isBlocked x.uploadOutlet :=
        reached.ingress_matched isOpen present
      rw [matched]
      cases outlet : x.uploadOutlet with
      | none => simp [isBlocked]
      | some fed => simp [isBlocked, Outlet.isBlocked]

/-- A client that sends more than the origin reads is held back with one chunk waiting. -/
theorem full_upload_holds_client_back :
    let cache : ContentCache := { partitions := [], maxEntries := 1 }
    let session := Session.fresh "example.com" (some ⟨"10.0.0.1", 80⟩) none
    let begun := (start cache session false { method := "POST", uri := .rooted "/" none }).1
    let x := (begun.run
      (.connected (.ok ()) :: List.replicate 9 (.clientFrame (.data [1])))).1
    begun.connecting.isSome = true ∧ begun.enabled (.clientFrame (.data [1])) = false ∧
      x.session.originAttached = true ∧ x.session.originDone = false ∧
        x.session.clientTerminated = false ∧ x.ingressPaused = true ∧
          ∃ outlet, x.uploadOutlet = some outlet ∧ outlet.queue ≠ [] ∧ outlet.queue.length ≤ 1 := by
  intro cache session begun x
  have awaits : begun.connecting.isSome = true := by decide +kernel
  have attached : x.session.originAttached = true := by decide +kernel
  have undone : x.session.originDone = false := by decide +kernel
  have present : x.session.clientTerminated = false := by decide +kernel
  have paused : x.ingressPaused = true := by decide +kernel
  obtain ⟨bounded, run⟩ := backlog_bounded_and_ingress_matched cache "example.com"
    (some ⟨"10.0.0.1", 80⟩) none false { method := "POST", uri := .rooted "/" none }
  have unread := (run []).2.1 awaits (.data [1])
  obtain ⟨⟨_, _, _, reached⟩, _, matched⟩ :=
    run (.connected (.ok ()) :: List.replicate 9 (.clientFrame (.data [1])))
  obtain ⟨outlet, fed, waits⟩ := (matched attached undone present).mp paused
  exact ⟨awaits, unread, attached, undone, present, paused, outlet, fed, waits,
    (bounded _ reached).1 outlet (.inl fed)⟩

end CachingProxy.Exchange
