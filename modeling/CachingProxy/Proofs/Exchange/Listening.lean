import CachingProxy.Proofs.Exchange.Delivery
import CachingProxy.Proofs.Exchange.Upload
import CachingProxy.Proofs.Session.Holders
import Mathlib.Logic.Function.Iterate

/-!
# What an exchange waits for

An exchange that is not released waits for its client or for its origin.  The session knows which of
the two still holds it, and the exchange keeps what it needs to hear of them: the reply or the
delivery of an answer as long as there is a client (`awaitsClient`), and the origin's events as long
as there is an origin (`HearsOrigin`).  In between, the actions of the session are performed in
finitely many turns of a loop.
-/

set_option autoImplicit false

namespace CachingProxy.Exchange

open Session (Action Turn Accounted)

/-! ## The loop over actions -/

/-- One turn of the loop: the first action is performed, and what it leads to waits behind the
others. -/
def performNext : Exchange × List Action → Exchange × List Action
  | (x, []) => (x, [])
  | (x, action :: rest) => ((x.perform action).1, rest ++ (x.perform action).2)

/-- The loop takes as many turns as there are actions performed, and ends with none left. -/
theorem performNext_iterate (x : Exchange) (actions : List Action) :
    performNext^[(x.apply actions).2.length] (x, actions) = ((x.apply actions).1, []) := by
  induction x, actions using apply.induct with
  | case1 x =>
      rw [apply_nil]
      rfl
  | case2 x action rest ih =>
      rw [apply_cons, List.length_cons, Function.iterate_succ_apply]
      exact ih

theorem length_apply_le (x : Exchange) (actions : List Action) :
    (x.apply actions).2.length ≤ totalWeight actions := by
  induction x, actions using apply.induct with
  | case1 x =>
      rw [apply_nil]
      exact Nat.le_refl 0
  | case2 x action rest ih =>
      rw [totalWeight_append] at ih
      have lighter := totalWeight_perform x action
      rw [apply_cons, List.length_cons, totalWeight]
      omega

/-! ## What the session is told and answers -/

theorem tell_session (x : Exchange) (event : Session.Event) :
    (x.tell event).1.session = (x.session.take ⟨x.cache, event⟩).1 := rfl

theorem tell_actions (x : Exchange) (event : Session.Event) :
    (x.tell event).2 = (x.session.take ⟨x.cache, event⟩).2 := rfl

theorem present_of_tell (x : Exchange) (event : Session.Event)
    (present : (x.tell event).1.session.clientTerminated = false) :
    x.session.clientTerminated = false := by
  refine Bool.eq_false_iff.mpr fun gone => ?_
  rw [tell_session, x.session.take_stays_gone ⟨x.cache, event⟩ gone] at present
  cases present

/-- What a session may answer while its actions are performed. -/
def isConsequence : Action → Bool
  | .respond _ | .pauseIngress | .abortOrigin | .abortClient | .release => true
  | _ => false

theorem moves_consequences {cache : ContentCache} {session : Session} {event : Session.Event}
    {result : Session × List Action} (rule : Session.Moves cache session event result)
    (internal : isInternal event = true) :
    ∀ action ∈ result.2, isConsequence action = true := by
  cases rule with
  | failedUnseen | failedUnanswered | failedBegun | detachedLast | detachedDone
  | detachedUnanswered | detachedBegun | paused => simp [isConsequence]
  | _ => cases internal

theorem play_consequences (session : Session) (turns : List Turn)
    (internal : ∀ turn ∈ turns, isInternal turn.event = true) :
    ∀ action ∈ (session.play turns).2, isConsequence action = true := by
  induction turns generalizing session with
  | nil => simp
  | cons turn rest ih =>
      intro action member
      rw [Session.play_cons, List.mem_append] at member
      rcases member with now | later
      · rcases session.take_cases turn with ⟨_, same⟩ | ⟨_, _, rule⟩
        · rw [same] at now
          cases now
        · exact moves_consequences rule (internal turn List.mem_cons_self) action now
      · exact ih _ (fun other member => internal other (List.mem_cons_of_mem turn member))
          action later

theorem perform_consequences (x : Exchange) (action : Action) :
    ∀ other ∈ (x.perform action).2, isConsequence other = true := by
  obtain ⟨turns, internal, plays⟩ := x.perform_plays action
  have consequences := play_consequences x.session turns internal
  rwa [plays] at consequences

theorem forwardBody_session (x : Exchange) (chunk : Bytes) :
    (x.forwardBody chunk).1.session = x.session := by
  simp only [forwardBody, closeUpload, tell, Session.step, Session.onEgressPaused]
  repeat' split
  all_goals rfl

/-- Only with the request to the origin, and when the origin is given up, is the session told of
more than a full upload. -/
theorem perform_origin (x : Exchange) {action : Action}
    (asked : ∀ request, action ≠ .sendOriginRequest request) (kept : action ≠ .abortOrigin) :
    (x.perform action).1.session = x.session ∧
      (x.perform action).1.receiving = x.receiving := by
  cases action with
  | sendOriginRequest request => exact absurd rfl (asked request)
  | abortOrigin => exact absurd rfl kept
  | forwardBody chunk =>
      refine ⟨x.forwardBody_session chunk, ?_⟩
      simp only [perform, forwardBody, closeUpload, tell]
      repeat' split
      all_goals rfl
  | _ =>
      refine ⟨?_, ?_⟩ <;>
        simp only [perform, sendResponse, sendBody, sendEom, forwardEom, closeUpload,
          closeDownload, abortDownload] <;> (repeat' split) <;> rfl

theorem arrive_origin (x : Exchange) (event : Event) :
    ((x.arrive event).2 = some .connectSuccess ∧ (x.arrive event).1.receiving = x.receiving ∧
      (x.arrive event).1.connected = true) ∨
    ((x.arrive event).2 = some .originDetached ∧ (x.arrive event).1.receiving = false) ∨
    ((x.arrive event).1.receiving = x.receiving ∧
      (x.arrive event).2 ≠ some .connectSuccess ∧ (x.arrive event).2 ≠ some .originDetached) := by
  cases event with
  | connected result =>
      cases result with
      | ok => exact .inl ⟨rfl, rfl, rfl⟩
      | error => exact .inr (.inr ⟨rfl, by simp [arrive], by simp [arrive]⟩)
  | originReceived =>
      right
      rw [arrive]
      split
      · rename_i report _ _
        exact .inr ⟨rfl, by cases report <;> simp [OriginEvent.told],
          by cases report <;> simp [OriginEvent.told]⟩
      · exact .inl ⟨rfl, rfl⟩
  | clientFrame frame =>
      right; right
      cases frame with
      | data chunk => by_cases empty : chunk.isEmpty = true <;> simp [arrive, empty]
      | other | failed | ended => simp [arrive]
  | uploadReady =>
      right; right
      refine ⟨?_, by simp [arrive], by simp [arrive]⟩
      simp only [arrive, drainUpload, closeUpload]
      repeat' split
      all_goals rfl
  | downloadReady =>
      right; right
      refine ⟨?_, by simp [arrive], by simp [arrive]⟩
      simp only [arrive, onDownloadReady, closeDownload]
      repeat' split
      all_goals rfl
  | deliveryReported | dropDownload =>
      right; right
      rw [arrive]
      split <;> simp
  | _ => exact .inr (.inr ⟨rfl, by simp [arrive], by simp [arrive]⟩)

theorem arrive_client (x : Exchange) (event : Event) :
    ((x.arrive event).2 = some .clientComplete ∨ (x.arrive event).2 = some .clientError) ∨
    ((x.arrive event).1.replyPending = x.replyPending ∧
      (x.arrive event).1.awaitingDelivery = x.awaitingDelivery) := by
  cases event with
  | clientFrame frame => cases frame <;> exact .inr ⟨rfl, rfl⟩
  | connected result => cases result <;> exact .inr ⟨rfl, rfl⟩
  | originReceived | uploadReady | downloadReady | dropDownload =>
      right
      simp only [arrive, drainUpload, onDownloadReady, closeUpload, closeDownload]
      repeat' split
      all_goals exact ⟨rfl, rfl⟩
  | deliveryReported =>
      rw [arrive]
      split
      · exact .inr ⟨rfl, rfl⟩
      · exact .inl (.inl rfl)
      · exact .inl (.inr rfl)
  | replyClosed => exact .inl (.inr rfl)
  | _ => exact .inr ⟨rfl, rfl⟩

/-- The client can still be answered, or its answer is on its way. -/
def awaitsClient (x : Exchange) : Prop := x.replyPending = true ∨ x.awaitingDelivery = true

theorem sendResponse_awaitsClient {x : Exchange} (awaits : x.awaitsClient) (head : ResponseHead)
    (body : Body) : (x.sendResponse head body).awaitsClient := by
  rw [sendResponse]
  split
  · exact awaits
  · split <;> exact .inr rfl

theorem perform_awaitsClient {x : Exchange} (awaits : x.awaitsClient) {action : Action}
    (unbroken : action ≠ .abortClient) : (x.perform action).1.awaitsClient := by
  cases action with
  | abortClient => exact absurd rfl unbroken
  | respond response => exact sendResponse_awaitsClient awaits _ _
  | sendHeaders head =>
      exact sendResponse_awaitsClient (x := { x with downloadOutlet := some {} }) awaits _ _
  | _ =>
      simp only [perform, sendBody, sendEom, startOrigin, openUpload, refuseTarget, tell,
        forwardBody, forwardEom, abortOrigin, closeUpload, closeDownload]
      repeat' split
      all_goals exact awaits

/-! ## What holds the session -/

/-- The origin's events are received as long as it holds the session, once the request was sent. -/
inductive HearsOrigin (x : Exchange) (pending : List Action) : Prop where
  | asked (none : ∀ request, .sendOriginRequest request ∉ pending)
      (same : x.receiving = x.session.originAttached)
  | asks {request : RequestHead} {rest : List Action}
      (first : pending = .sendOriginRequest request :: rest)
      (once : ∀ other, .sendOriginRequest other ∉ rest) (connected : x.connected = true)
      (attached : x.session.originAttached = true) (unheard : x.receiving = false)

section

variable {cache : ContentCache} {domain : String} {origin : Option Endpoint}
  {transform : Option Transform} {bodyDone : Bool} {head : RequestHead} {c : Course}

theorem Reached.accounted
    (reached : Reached cache (Session.fresh domain origin transform) bodyDone head c) :
    Accounted c.exchange.session := by
  have accounted := Session.play_accounted domain origin transform c.told
  rwa [reached.traced] at accounted

theorem Reached.released_of_performed
    (reached : Reached cache (Session.fresh domain origin transform) bodyDone head c)
    (performed : .release ∈ actionsOf c.seen) : c.exchange.released = true := by
  induction reached with
  | asked => cases performed
  | bodiless _ _ _ ih => exact ih performed
  | silent _ _ _ ih | telling _ _ _ ih =>
      rw [actionsOf_append, actionsOf_shown, List.append_nil] at performed
      exact (arrive_released _ _).trans (ih performed)
  | @performing x _ _ _ action _ _ _ _ _ ih =>
      by_cases last : action = .release
      · rw [last]
        rfl
      · rw [actionsOf_concat, List.mem_append, List.mem_singleton] at performed
        exact (perform_released x last).trans (ih (performed.resolve_right (Ne.symm last)))
  | disposing _ released => exact (Continues.dispose _).released.trans released

theorem Reached.released_eq
    (reached : Reached cache (Session.fresh domain origin transform) bodyDone head c)
    (done : c.pending = []) : c.exchange.released = c.exchange.session.released := by
  obtain ⟨_, counted⟩ := Session.play_settled domain origin transform c.told
  rw [reached.traced, done, List.append_nil] at counted
  cases released : c.exchange.session.released with
  | true =>
      rw [released, if_pos rfl] at counted
      exact reached.released_of_performed (List.count_pos_iff.mp (counted ▸ Nat.one_pos))
  | false =>
      rw [released, if_neg Bool.false_ne_true, List.count_eq_zero] at counted
      exact Bool.eq_false_iff.mpr fun freed => counted (reached.release_performed freed)

theorem Reached.awaitsClient
    (reached : Reached cache (Session.fresh domain origin transform) bodyDone head c)
    (present : c.exchange.session.clientTerminated = false) : c.exchange.awaitsClient := by
  induction reached with
  | asked => exact .inl rfl
  | @bodiless x _ _ _ _ _ ih =>
      exact ih (x.present_of_tell .clientEom present)
  | @silent x _ _ _ _ event _ tells ih =>
      rcases x.arrive_client event with told | ⟨reply, delivery⟩
      · rw [tells] at told
        simp at told
      · rw [Exchange.awaitsClient, reply, delivery]
        refine ih ?_
        rwa [← arrive_session x event]
  | @telling x _ _ _ before event said _ tells ih =>
      have settled : ((x.arrive event).1.session).Settled := by
        rw [arrive_session]
        exact before.accounted.toSettled
      rcases x.arrive_client event with told | ⟨reply, delivery⟩
      · rw [tells, Option.some.injEq, Option.some.injEq] at told
        have gone := Session.take_leaving _ ⟨(x.arrive event).1.cache, said⟩ settled told
        cases present.symm.trans gone
      · change (x.arrive event).1.awaitsClient
        rw [Exchange.awaitsClient, reply, delivery]
        refine ih ?_
        rw [← arrive_session x event]
        exact present_of_tell _ said present
  | @performing x _ told turns action rest seen before internal plays ih =>
      have unbroken : action ≠ .abortClient := by
        rintro rfl
        have gone := Session.play_aborted domain origin transform (told ++ turns)
        rw [(before.performing internal plays).traced] at gone
        cases present.symm.trans (gone (List.mem_append_left _ (last_performed seen _)))
      refine perform_awaitsClient (ih ?_) unbroken
      refine Bool.eq_false_iff.mpr fun gone => ?_
      have still := x.session.play_stays_gone turns gone
      rw [plays] at still
      cases present.symm.trans still
  | @disposing x _ _ _ before released _ =>
      rw [before.released_eq rfl, before.accounted.released_iff] at released
      change x.dispose.session.clientTerminated = false at present
      rw [dispose_session] at present
      cases present.symm.trans released.1

theorem hearsOrigin_tell {x : Exchange} (heard : x.receiving = x.session.originAttached)
    (event : Session.Event) (other : event ≠ .connectSuccess) (kept : event ≠ .originDetached) :
    HearsOrigin (x.tell event).1 (x.tell event).2 := by
  refine .asked (fun request asks => ?_) ?_
  · exact other (x.session.take_asks ⟨x.cache, event⟩ asks).1
  · rw [tell_session, x.session.take_attached_eq ⟨x.cache, event⟩ other kept]
    exact heard

theorem hearsOrigin_detached {x : Exchange} (settled : x.session.Settled)
    (unheard : x.receiving = false) :
    HearsOrigin (x.tell .originDetached).1 (x.tell .originDetached).2 := by
  refine .asked (fun request asks => ?_) ?_
  · cases (x.session.take_asks ⟨x.cache, .originDetached⟩ asks).1
  · rw [tell_session, x.session.take_detached ⟨x.cache, .originDetached⟩ settled rfl]
    exact unheard

/-- A new connection is asked before anything else is done with it. -/
theorem hearsOrigin_connected {x : Exchange} (accounted : Accounted x.session)
    (heard : x.receiving = x.session.originAttached) (connected : x.connected = true) :
    HearsOrigin (x.tell .connectSuccess).1 (x.tell .connectSuccess).2 := by
  have held : (x.tell .connectSuccess).1.connected = true ∧
      (x.tell .connectSuccess).1.receiving = x.receiving := ⟨connected, rfl⟩
  have session := x.tell_session .connectSuccess
  have actions := x.tell_actions .connectSuccess
  rcases x.session.take_cases ⟨x.cache, .connectSuccess⟩ with ⟨_, same⟩ | ⟨_, _, rule⟩
  · rw [same] at session actions
    refine .asked (by simp [actions]) ?_
    rw [held.2, session]
    exact heard
  · generalize x.session.take ⟨x.cache, .connectSuccess⟩ = result at rule session actions
    cases rule with
    | connected waiting _ =>
        refine .asks actions (by simp) held.1 (by rw [session]) ?_
        rw [held.2, heard]
        exact (accounted.early (.inr waiting)).1

theorem abortOrigin_detached (x : Exchange) (settled : x.session.Settled) :
    (x.perform .abortOrigin).1.session.originAttached = false := by
  have session : x.abortOrigin.session = x.session := closeUpload_session x
  exact x.abortOrigin.session.take_detached ⟨x.abortOrigin.cache, .originDetached⟩
    (session ▸ settled) rfl

theorem startOrigin_cases {x : Exchange} (settled : x.session.Settled)
    (connected : x.connected = true) (request : RequestHead) :
    ((x.startOrigin request).2 = [] ∧ (x.startOrigin request).1.session = x.session ∧
      (x.startOrigin request).1.receiving = true ∧
      (x.startOrigin request).1.upstream = x.openUpload.upstream) ∨
    ((x.startOrigin request).1.session.originAttached = false ∧
      (x.startOrigin request).1.receiving = x.receiving ∧
      (x.startOrigin request).1.upstream = ⟨none, none⟩) := by
  have opened : ({ x with connected := false }.openUpload).session = x.session ∧
      ({ x with connected := false }.openUpload).receiving = x.receiving ∧
      ({ x with connected := false }.openUpload).upstream = x.openUpload.upstream := by
    simp only [openUpload]
    split <;> exact ⟨rfl, rfl, rfl⟩
  rw [startOrigin, if_neg (by simp [connected])]
  dsimp only
  generalize ({ x with connected := false }.openUpload) = y at opened
  split
  · rename_i cause _
    -- The session is told that the origin has failed, and then that it is gone.
    have failed := (Session.take_releases
      ({ y with uploadOutlet := none, upload := none } : Exchange).session
      ⟨y.cache, .originError cause⟩ (opened.1 ▸ settled)).1
    refine .inr ⟨?_, opened.2.1, rfl⟩
    exact Session.take_detached _
      ⟨(({ y with uploadOutlet := none, upload := none } : Exchange).tell
        (.originError cause)).1.cache, .originDetached⟩ failed rfl
  · exact .inl ⟨rfl, opened.1, rfl, opened.2.2⟩

theorem Reached.hearsOrigin
    (reached : Reached cache (Session.fresh domain origin transform) bodyDone head c) :
    HearsOrigin c.exchange c.pending := by
  induction reached with
  | asked =>
      exact hearsOrigin_tell (x := new cache (Session.fresh domain origin transform) bodyDone head)
        rfl (.request head) (by simp) (by simp)
  | @bodiless x _ _ _ _ _ ih =>
      cases ih with
      | asked _ same =>
          exact hearsOrigin_tell (x := x) same .clientEom (by simp) (by simp)
      | asks first => cases first
  | @silent x _ _ _ _ event _ tells ih =>
      cases ih with
      | asked none same =>
          refine .asked none ?_
          rw [arrive_session]
          rcases x.arrive_origin event with ⟨told, _⟩ | ⟨told, _⟩ | ⟨receiving, _⟩
          · cases tells.symm.trans told
          · cases tells.symm.trans told
          · exact receiving.trans same
      | asks first => cases first
  | @telling x _ _ _ before event said _ tells ih =>
      have session := arrive_session x event
      cases ih with
      | asks first => cases first
      | asked _ same =>
          rcases x.arrive_origin event with ⟨told, receiving, connected⟩ | ⟨told, unheard⟩ |
            ⟨receiving, other, kept⟩
          · obtain rfl := Option.some.inj (tells.symm.trans told)
            refine hearsOrigin_connected ?_ ?_ connected
            · rw [session]
              exact before.accounted
            · rw [receiving, session]
              exact same
          · obtain rfl := Option.some.inj (tells.symm.trans told)
            refine hearsOrigin_detached ?_ unheard
            rw [session]
            exact before.accounted.toSettled
          · refine hearsOrigin_tell ?_ said (fun own => other (tells.trans (congrArg some own)))
              fun own => kept (tells.trans (congrArg some own))
            rw [receiving, session]
            exact same
  | @performing x _ _ _ action rest _ before _ _ ih =>
      -- No consequence of an action is a request to the origin.
      have nothing : (∀ request, .sendOriginRequest request ∉ rest) →
          ∀ request, .sendOriginRequest request ∉ rest ++ (x.perform action).2 := by
        intro none request member
        rcases List.mem_append.mp member with later | new
        · exact none request later
        · cases x.perform_consequences action _ new
      cases ih with
      | asked none same =>
          refine .asked (nothing fun request later =>
            none request (List.mem_cons_of_mem action later)) ?_
          by_cases lost : action = .abortOrigin
          · rw [lost]
            exact (x.abortOrigin_detached before.accounted.toSettled).symm
          · have unasked : ∀ request, action ≠ .sendOriginRequest request :=
              fun request own => none request (List.mem_cons.mpr (.inl own.symm))
            obtain ⟨session, receiving⟩ := x.perform_origin unasked lost
            rw [session, receiving]
            exact same
      | asks first once connected attached unheard =>
          obtain ⟨rfl, rfl⟩ := List.cons.inj first
          refine .asked (nothing once) ?_
          rcases startOrigin_cases before.accounted.toSettled connected _ with
            ⟨_, session, receiving, _⟩ | ⟨detached, receiving, _⟩
          · exact receiving.trans (attached.symm.trans (congrArg _ session.symm))
          · exact receiving.trans (unheard.trans detached.symm)
  | @disposing x _ _ _ before released _ =>
      have unheard : x.dispose.receiving = false := by
        simp only [dispose, abortOrigin, closeDownload]
        split <;> rfl
      rw [before.released_eq rfl, before.accounted.released_iff] at released
      refine .asked (by simp) ?_
      rw [unheard, dispose_session, released.2]

end

/-! ## What an exchange listens to -/

inductive Source where
  | clientBody
  | connection
  | originEvents
  | uploadRoom
  | downloadRoom
  | delivery
  | reply
  deriving DecidableEq

/-- Whether an exchange that is not released waits for it now. -/
def listens (x : Exchange) : Source → Bool
  | .clientBody => !x.ingressPaused && x.clientOpen
  | .connection => x.connecting.isSome
  | .originEvents => x.receiving && !isBlocked x.downloadOutlet
  | .uploadRoom => isBlocked x.uploadOutlet
  | .downloadRoom => isBlocked x.downloadOutlet
  | .delivery => x.awaitingDelivery
  | .reply => x.replyPending

def Event.source? : Event → Option Source
  | .clientFrame _ => some .clientBody
  | .connected _ => some .connection
  | .originReceived => some .originEvents
  | .uploadReady => some .uploadRoom
  | .downloadReady => some .downloadRoom
  | .deliveryReported => some .delivery
  | .replyClosed => some .reply
  | .originReports _ | .clientGone | .pollUpload | .dropUpload | .pollDownload
  | .dropDownload => none

def newsFrom : Session.Event → Option Source
  | .clientBody _ | .clientEom => some .clientBody
  | .connectSuccess | .connectError _ => some .connection
  | .originHeaders _ | .originBody _ | .originEom | .originError _ | .originDetached =>
      some .originEvents
  | .egressResumed => some .uploadRoom
  | .clientComplete => some .delivery
  | .request _ | .clientError | .egressPaused => none

theorem source_of_news {x : Exchange} {event : Event} {said : Session.Event} {source : Source}
    (tells : (x.arrive event).2 = some said) (news : newsFrom said = some source) :
    event.source? = some source := by
  cases event with
  | clientFrame frame =>
      cases frame with
      | data chunk =>
          rw [arrive] at tells
          dsimp only at tells
          split at tells <;> cases tells
          exact news
      | other => cases tells
      | failed =>
          cases tells
          cases news
      | ended =>
          cases tells
          exact news
  | connected result => cases result <;> cases tells <;> exact news
  | originReceived =>
      rw [arrive] at tells
      split at tells
      · rename_i report _ _
        cases report <;> cases tells <;> exact news
      · cases tells
        exact news
  | uploadReady =>
      rw [arrive] at tells
      dsimp only at tells
      split at tells <;> cases tells
      exact news
  | deliveryReported =>
      rw [arrive] at tells
      split at tells <;> cases tells <;> cases news
      rfl
  | dropDownload =>
      rw [arrive] at tells
      split at tells <;> cases tells
  | replyClosed =>
      cases tells
      cases news
  | _ => cases tells

/-- Nothing is left to wait for, although the exchange is not released. -/
def Stalled (x : Exchange) : Prop := x.released = false ∧ ∀ source, x.listens source = false

theorem listens_client {x : Exchange} (awaits : x.awaitsClient) :
    x.listens .reply = true ∨ x.listens .delivery = true := awaits

theorem listens_origin {x : Exchange} (receiving : x.receiving = true) :
    x.listens .originEvents = true ∨ x.listens .downloadRoom = true := by
  cases blocked : isBlocked x.downloadOutlet with
  | true => exact .inr blocked
  | false => exact .inl (by simp [listens, receiving, blocked])

/-- The actions of a session are performed in finitely many turns.  When none is left the exchange
is released if its session is, and receives from the origin if the session has one.  Until it is
released it waits for its client, unless that is gone, and for its origin, unless there is none; one
of the two is there, so an exchange never stalls. -/
theorem never_stalled (cache : ContentCache) (domain : String) (origin : Option Endpoint)
    (transform : Option Transform) (bodyDone : Bool) (head : RequestHead) :
    let session := Session.fresh domain origin transform
    (∀ (x : Exchange) (actions : List Action), ∃ turns ≤ totalWeight actions,
      performNext^[turns] (x, actions) = ((x.apply actions).1, [])) ∧
    (∀ c, Reached cache session bodyDone head c → c.pending = [] →
      c.exchange.released = c.exchange.session.released ∧
        c.exchange.receiving = c.exchange.session.originAttached) ∧
    ∀ events,
      let x := ((start cache session bodyDone head).1.run events).1
      x.released = x.session.released ∧ x.receiving = x.session.originAttached ∧
      (x.released = false →
        (x.session.clientTerminated = false →
          x.listens .reply = true ∨ x.listens .delivery = true) ∧
        (x.session.originAttached = true →
          x.listens .originEvents = true ∨ x.listens .downloadRoom = true)) ∧
      ¬ x.Stalled := by
  intro session
  have matched : ∀ c, Reached cache session bodyDone head c → c.pending = [] →
      c.exchange.released = c.exchange.session.released ∧
        c.exchange.receiving = c.exchange.session.originAttached := by
    intro c reached done
    refine ⟨reached.released_eq done, ?_⟩
    cases reached.hearsOrigin with
    | asked _ same => exact same
    | asks first => cases done.symm.trans first
  refine ⟨fun x actions => ⟨_, x.length_apply_le actions, x.performNext_iterate actions⟩, matched,
    fun events => ?_⟩
  intro x
  obtain ⟨told, reached⟩ := reached cache session bodyDone head events
  obtain ⟨released, receiving⟩ := matched _ reached rfl
  have client : x.session.clientTerminated = false →
      x.listens .reply = true ∨ x.listens .delivery = true :=
    fun present => listens_client (reached.awaitsClient present)
  have attached : x.session.originAttached = true →
      x.listens .originEvents = true ∨ x.listens .downloadRoom = true :=
    fun attached => listens_origin (receiving.trans attached)
  refine ⟨released, receiving, fun _ => ⟨client, attached⟩, fun ⟨held, deaf⟩ => ?_⟩
  -- What is not released is held by its client or by its origin, and both are listened to.
  have holder : x.session.clientTerminated = false ∨ x.session.originAttached = true := by
    by_contra free
    rw [not_or, Bool.not_eq_false, Bool.not_eq_true] at free
    have freed := released.trans (reached.accounted.released_iff.mpr free)
    cases held.symm.trans freed
  have heard : ∃ source, x.listens source = true := by
    rcases holder with present | there
    · exact (client present).elim (fun heard => ⟨_, heard⟩) fun heard => ⟨_, heard⟩
    · exact (attached there).elim (fun heard => ⟨_, heard⟩) fun heard => ⟨_, heard⟩
  obtain ⟨source, heard⟩ := heard
  cases heard.symm.trans (deaf source)

/-- An origin that has been asked and a client that has not been answered are both waited for. -/
theorem asked_exchange_listens :
    let cache : ContentCache := { partitions := [], maxEntries := 1 }
    let session := Session.fresh "example.com" (some ⟨"10.0.0.1", 80⟩) none
    let x := ((start cache session false { method := "POST", uri := .rooted "/" none }).1.run
      [.connected (.ok ())]).1
    x.released = false ∧ x.session.clientTerminated = false ∧ x.session.originAttached = true ∧
      (x.listens .reply = true ∨ x.listens .delivery = true) ∧
      (x.listens .originEvents = true ∨ x.listens .downloadRoom = true) ∧ ¬ x.Stalled := by
  intro cache session x
  have held : x.released = false := by decide +kernel
  have present : x.session.clientTerminated = false := by decide +kernel
  have there : x.session.originAttached = true := by decide +kernel
  obtain ⟨_, _, run⟩ := never_stalled cache "example.com" (some ⟨"10.0.0.1", 80⟩) none false
    { method := "POST", uri := .rooted "/" none }
  obtain ⟨_, _, listens, going⟩ := run [.connected (.ok ())]
  obtain ⟨client, attached⟩ := listens held
  exact ⟨held, present, there, client present, attached there, going⟩

end CachingProxy.Exchange
