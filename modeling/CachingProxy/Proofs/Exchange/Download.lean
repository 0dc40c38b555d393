import CachingProxy.Proofs.Exchange.Delivery
import CachingProxy.Proofs.Session.Lifecycle

/-!
# The end of a download

The client's connection reads a streamed answer from a stream that ends cleanly when its sender is
dropped, and fails when it is aborted.  The session aborts it whenever the origin's answer breaks
off.  It does not when the client's body has failed: the exchange is then released, which drops the
sender while the client may still read.
-/

set_option autoImplicit false

namespace CachingProxy.Exchange

open Session (Action Turn)

def sent? : Action → Option Bytes
  | .sendBody chunk => some chunk
  | _ => none

def downloaded? : Observation → Option Body.Frame
  | .downloaded frame => some frame
  | _ => none

def Observation.ofDownload : Observation → Bool
  | .performed action => action.toClient
  | .downloaded _ => true
  | .uploaded _ | .delivered _ => false

theorem sent?_of_hidden {action : Action} (hidden : action.toClient = false) :
    sent? action = none := by
  cases action <;> first | rfl | cases hidden

theorem downloaded?_of_other {observation : Observation} (other : observation.ofDownload = false) :
    downloaded? observation = none := by
  cases observation <;> first | rfl | cases other

theorem downstream_sendResponse (x : Exchange) (head : ResponseHead) (body : Body) :
    ∃ given : Body, (x.sendResponse head body).downstream = ⟨x.downloadOutlet, some given⟩ ∧
      given.content = body.content := by
  rw [sendResponse]
  split
  · exact ⟨_, rfl, rfl⟩
  · split
    · exact ⟨_, rfl, rfl⟩
    · exact ⟨_, rfl, Body.content_drop body⟩

theorem content_streamedBody (method : String) (head : ResponseHead) :
    (streamedBody method head).content = .stream { capacity := chunkCapacity } := by
  rw [streamedBody]
  split <;> rfl

/-- The first that a client sees is all that it sees. -/
theorem only_visible {seen : List Observation}
    (first : ∀ action ∈ actionsOf seen, action.toClient = false) {action other : Action}
    (visible : other.toClient = true) (member : other ∈ actionsOf (seen ++ [.performed action])) :
    other = action := by
  rw [actionsOf_concat, List.mem_append, List.mem_singleton] at member
  exact member.resolve_left fun earlier =>
    Bool.false_ne_true ((first other earlier).symm.trans visible)

theorem shown_ofDownload (x : Exchange) {event : Event} (other : event ≠ .pollDownload) :
    ∀ observation ∈ x.shown event, observation.ofDownload = false := by
  intro observation member
  cases event with
  | pollDownload => exact absurd rfl other
  | pollUpload =>
      rw [List.mem_singleton.mp member]
      rfl
  | dropDownload =>
      rw [shown] at member
      split at member
      · cases member
      · obtain ⟨_, _, rfl⟩ := List.mem_map.mp member
        rfl
  | _ => cases member

/-! ## Small steps -/

/-- Why the end of a stream may not be the end of the answer: it was aborted, and fails, or the
client's body has failed. -/
def Excused (happened : List Event) (seen : List Observation) (body : Body) : Prop :=
  (.abortClient ∈ actionsOf seen ∧ body.Fails) ∨ (.clientFrame .failed ∈ happened ∧ body.Closed)

theorem Excused.poll {happened : List Event} {seen : List Observation} {body : Body}
    (excused : Excused happened seen body) : Excused happened seen body.poll.2 :=
  excused.imp (And.imp_right fun fails => fails.poll.2) (And.imp_right fun closed => closed.poll.2)

/-- How far a download has come. -/
structure Downloads (x : Exchange) (happened : List Event) (seen : List Observation) : Prop where
  unbegun : (∀ action ∈ actionsOf seen, action.toClient = false) →
    x.download = none ∧ gained downloaded? seen = []
  plain : (∀ head, .sendHeaders head ∉ actionsOf seen) → x.downloadOutlet = none
  carries : (∃ head, .sendHeaders head ∈ actionsOf seen) →
    x.downstream.Carries (handed sent? seen) (gained downloaded? seen)
      (.sendEom ∈ actionsOf seen) (Excused happened seen)
  aborted : .abortClient ∈ actionsOf seen → x.downloadOutlet = none

namespace Downloads

variable {x y : Exchange} {happened later : List Event} {seen more : List Observation}

theorem next (downloads : Downloads x happened seen) (keeps : x.downstream.Keeps y.downstream)
    (carries : (∃ head, .sendHeaders head ∈ actionsOf seen) →
      y.downstream.Carries (handed sent? (seen ++ more)) (gained downloaded? (seen ++ more))
        (.sendEom ∈ actionsOf (seen ++ more)) (Excused later (seen ++ more)))
    (unread : x.download = none → gained downloaded? more = [])
    (begins : ∀ head, .sendHeaders head ∉ actionsOf more)
    (aborts : .abortClient ∈ actionsOf more → y.downloadOutlet = none) :
    Downloads y later (seen ++ more) := by
  have earlier : ∀ head, .sendHeaders head ∈ actionsOf (seen ++ more) →
      .sendHeaders head ∈ actionsOf seen := by
    intro head member
    rw [actionsOf_append, List.mem_append] at member
    exact member.resolve_right (begins head)
  refine ⟨fun unbegun => ?_, fun plain => ?_, ?_, fun aborted => ?_⟩
  · -- What was not begun before is not begun now, since the pipe gets no stream.
    obtain ⟨download, read⟩ := downloads.unbegun fun action member =>
      unbegun action (mem_actionsOf_append member)
    refine ⟨?_, by rw [gained_append, read, unread download, List.append_nil]⟩
    have same := keeps.body
    simp only [downstream, download] at same
    simpa using same
  · exact keeps.outlet (downloads.plain fun head member =>
      plain head (mem_actionsOf_append member))
  · rintro ⟨head, member⟩
    exact carries ⟨head, earlier head member⟩
  · rw [actionsOf_append, List.mem_append] at aborted
    rcases aborted with before | now
    · exact keeps.outlet (downloads.aborted before)
    · exact aborts now

theorem become (downloads : Downloads x happened seen) (keeps : x.downstream.Keeps y.downstream)
    (carries : (∃ head, .sendHeaders head ∈ actionsOf seen) →
      y.downstream.Carries (handed sent? seen) (gained downloaded? seen)
        (.sendEom ∈ actionsOf seen) (Excused happened seen)) :
    Downloads y happened seen := by
  have grown : Downloads y happened (seen ++ []) :=
    downloads.next keeps (by simpa using carries) (fun _ => rfl) (by simp [actionsOf])
      (by simp [actionsOf])
  rwa [List.append_nil] at grown

theorem same (downloads : Downloads x happened seen) (downstream : y.downstream = x.downstream) :
    Downloads y happened seen := by
  obtain ⟨outlet, download⟩ := Pipe.mk.inj downstream
  obtain ⟨unbegun, plain, carries, aborted⟩ := downloads
  refine ⟨?_, ?_, ?_, ?_⟩
  · rwa [download]
  · rwa [outlet]
  · rwa [downstream]
  · rwa [outlet]

theorem unseen (downloads : Downloads x happened seen)
    (others : ∀ observation ∈ more, observation.ofDownload = false) :
    Downloads x happened (seen ++ more) := by
  have hidden : ∀ action ∈ actionsOf more, action.toClient = false :=
    fun action member => others _ (mem_actionsOf.mp member)
  have grows : ∀ action ∈ actionsOf seen, action ∈ actionsOf (seen ++ more) :=
    fun _ => mem_actionsOf_append
  have unsent : handed sent? more = [] :=
    handed_eq_nil fun action member => sent?_of_hidden (hidden action member)
  have unread : gained downloaded? more = [] :=
    gained_eq_nil fun observation member => downloaded?_of_other (others observation member)
  refine downloads.next (.refl _) (fun begun => ?_) (fun _ => unread)
    (fun head member => Bool.false_ne_true (hidden _ member).symm)
    fun member => absurd (hidden _ member).symm Bool.false_ne_true
  rw [handed_append, unsent, gained_append, unread, List.append_nil, List.append_nil]
  exact (downloads.carries begun).mono (grows _) fun body => Or.imp_left (And.imp_left (grows _))

theorem happen (downloads : Downloads x happened seen) (event : Event) :
    Downloads x (happened ++ [event]) seen := by
  refine ⟨downloads.unbegun, downloads.plain, fun begun => ?_, downloads.aborted⟩
  exact (downloads.carries begun).mono id fun body =>
    Or.imp_right (And.imp_left (List.mem_append_left _))

theorem sendBody (downloads : Downloads x happened seen) {chunk : Bytes}
    (follows : Session.mayTell (actionsOf seen) (.sendBody chunk)) :
    Downloads (x.sendBody chunk) happened (seen ++ [.performed (.sendBody chunk)]) := by
  obtain ⟨pushed, continues⟩ := x.downstream_sendBody chunk
  obtain ⟨begun, unended, unaborted⟩ := follows
  refine downloads.next continues.downstream (fun _ => ?_) (fun _ => rfl)
    (by simp [actionsOf, Observation.action?]) (by simp [actionsOf, Observation.action?])
  rw [pushed, handed_append, gained_performed (fun _ => rfl)]
  refine ((downloads.carries begun).push unended chunk).mono (fun ended => absurd ended unended) ?_
  exact fun body => Or.imp_left fun broken => absurd broken.1 unaborted

theorem sendEom (downloads : Downloads x happened seen)
    (follows : Session.mayTell (actionsOf seen) .sendEom) :
    Downloads x.sendEom happened (seen ++ [.performed .sendEom]) := by
  obtain ⟨finished, continues⟩ := x.downstream_sendEom
  obtain ⟨begun, unended, unaborted⟩ := follows
  refine downloads.next continues.downstream (fun _ => ?_) (fun _ => rfl)
    (by simp [actionsOf, Observation.action?]) (by simp [actionsOf, Observation.action?])
  have ended := last_performed seen .sendEom
  rw [finished, handed_concat seen rfl, gained_performed (fun _ => rfl)]
  refine ((downloads.carries begun).finish unended ended).mono id ?_
  exact fun body => Or.imp_left fun broken => absurd broken.1 unaborted

theorem abortClient (downloads : Downloads x happened seen)
    (follows : Session.mayTell (actionsOf seen) .abortClient) :
    Downloads (x.perform .abortClient).1 happened (seen ++ [.performed .abortClient]) := by
  have aborted : (x.perform .abortClient).1.downstream = x.downstream.abort :=
    (downstream_abortDownload { x with replyPending := false, awaitingDelivery := false }).1
  have shut : (x.perform .abortClient).1.downloadOutlet = none := by
    have outlet : (x.perform .abortClient).1.downloadOutlet = x.downstream.abort.outlet :=
      congrArg Pipe.outlet aborted
    rw [outlet, Pipe.abort]
    split
    · assumption
    · rfl
  obtain ⟨begun, unended, unaborted⟩ := follows
  refine downloads.next ?_ (fun _ => ?_) (fun _ => rfl)
    (by simp [actionsOf, Observation.action?]) fun _ => shut
  · rw [aborted]
    exact x.downstream.keeps_abort
  · have now := last_performed seen .abortClient
    rw [aborted, handed_concat seen rfl, gained_performed (fun _ => rfl)]
    refine ((downloads.carries begun).abort (fun body excused => ?_) fun body fails =>
      .inl ⟨now, fails⟩).mono (fun ended => absurd ended unended) fun _ => id
    exact excused.imp_left fun broken => absurd broken.1 unaborted

theorem respond (downloads : Downloads x happened seen) (response : Response)
    (first : ∀ action ∈ actionsOf seen, action.toClient = false) :
    Downloads (x.perform (.respond response)).1 happened
      (seen ++ [.performed (.respond response)]) := by
  obtain ⟨body, given, _⟩ := x.downstream_sendResponse response.head (.full response.body)
  refine ⟨fun unbegun => ?_, fun _ => ?_, ?_, fun aborted => ?_⟩
  · exact absurd (unbegun _ (last_performed seen _)) (by simp [Action.toClient])
  · refine (Pipe.mk.inj given).1.trans (downloads.plain fun head member => ?_)
    exact Bool.false_ne_true (first _ member).symm
  · rintro ⟨head, member⟩
    cases only_visible first rfl member
  · cases only_visible first rfl aborted

theorem sendHeaders (downloads : Downloads x happened seen) (head : ResponseHead)
    (first : ∀ action ∈ actionsOf seen, action.toClient = false) :
    Downloads (x.perform (.sendHeaders head)).1 happened
      (seen ++ [.performed (.sendHeaders head)]) := by
  obtain ⟨body, given, content⟩ := downstream_sendResponse { x with downloadOutlet := some {} } head
    (streamedBody x.method head)
  refine ⟨fun unbegun => ?_, fun plain => ?_, fun _ => ?_, fun aborted => ?_⟩
  · exact absurd (unbegun _ (last_performed seen _)) (by simp [Action.toClient])
  · exact absurd (last_performed seen _) (plain head)
  · have unfed : handed sent? (seen ++ [.performed (.sendHeaders head)]) = [] := by
      rw [handed_concat seen rfl]
      exact handed_eq_nil fun action member => sent?_of_hidden (first action member)
    rw [unfed, gained_performed (fun _ => rfl), (downloads.unbegun first).2]
    change (sendResponse { x with downloadOutlet := some {} } head _).downstream.Carries _ _ _ _
    rw [given]
    exact .opened (content.trans (content_streamedBody x.method head))
  · cases only_visible first rfl aborted

theorem perform (downloads : Downloads x happened seen) {action : Action}
    (follows : Session.mayTell (actionsOf seen) action) :
    Downloads (x.perform action).1 happened (seen ++ [.performed action]) := by
  cases visible : action.toClient with
  | false =>
      have quiet : Downloads x happened (seen ++ [.performed action]) :=
        downloads.unseen fun observation member => by rwa [List.mem_singleton.mp member]
      exact quiet.same (x.downstream_perform visible).1
  | true =>
      cases action with
      | respond response => exact downloads.respond response follows
      | sendHeaders head => exact downloads.sendHeaders head follows
      | sendBody chunk => exact downloads.sendBody follows
      | sendEom => exact downloads.sendEom follows
      | abortClient => exact downloads.abortClient follows
      | _ => cases visible

theorem poll (downloads : Downloads x happened seen) {body : Body}
    (download : x.download = some body) :
    Downloads { x with download := some body.poll.2 } happened
      (seen ++ [.downloaded body.poll.1]) := by
  have actions : actionsOf (seen ++ [.downloaded body.poll.1]) = actionsOf seen :=
    actionsOf_silent seen rfl
  refine downloads.next (.of_body download rfl (Body.dropped_poll body).trans id) (fun begun => ?_)
    (fun absent => ?_) (by simp [actionsOf, Observation.action?])
    (by simp [actionsOf, Observation.action?])
  · have polled := (downloads.carries begun).poll (fun _ => Excused.poll) download
    rw [handed_concat seen rfl, actions, gained_concat seen rfl]
    exact polled.mono id fun _ => Or.imp_left (And.imp_left fun member => by rwa [actions])
  · cases absent.symm.trans download

theorem drop (downloads : Downloads x happened seen) (dropped : y.downstream = x.downstream.drop) :
    Downloads y happened seen := by
  refine downloads.become ?_ fun begun => ?_
  · rw [dropped]
    exact x.downstream.keeps_drop
  · rw [dropped]
    exact (downloads.carries begun).drop

theorem drain (downloads : Downloads x happened seen) :
    Downloads x.onDownloadReady happened seen := by
  obtain ⟨drained, continues⟩ := x.downstream_onDownloadReady
  refine downloads.become continues.downstream fun begun => ?_
  rw [drained]
  exact (downloads.carries begun).drain

theorem arrive (downloads : Downloads x happened seen) {event : Event}
    (enabled : x.enabled event = true) :
    Downloads (x.arrive event).1 (happened ++ [event]) (seen ++ x.shown event) := by
  refine Downloads.happen ?_ event
  by_cases polls : event = .pollDownload
  · subst polls
    rw [Exchange.enabled, Bool.and_eq_true, Option.any_eq_true] at enabled
    obtain ⟨_, body, download, _⟩ := enabled
    rw [shown, Exchange.arrive, download]
    exact downloads.poll download
  · have quiet := downloads.unseen (x.shown_ofDownload polls)
    rcases x.downstream_arrive event with rfl | rfl | rfl | ⟨same, _⟩
    · exact quiet.drain
    · exact absurd rfl polls
    · refine quiet.drop ?_
      rw [Exchange.arrive]
      cases download : x.download with
      | none => simp [downstream, Pipe.drop, download]
      | some body => simp [downstream, Pipe.drop, download]
    · exact quiet.same same

/-- When the exchange is released the sender of a stream that still goes on is dropped.  Then the
client has left, or its body has failed. -/
theorem dispose (downloads : Downloads x happened seen)
    (reason : x.Unread ∨ .clientFrame .failed ∈ happened ∨ .abortClient ∈ actionsOf seen) :
    Downloads x.dispose happened seen := by
  refine downloads.become (Continues.dispose x).downstream fun begun => ?_
  have carries := downloads.carries begun
  rw [x.downstream_dispose]
  rcases reason with unread | failed | aborted
  · exact carries.shut unread.2
  · -- The client may still read, and finds a clean end although more was to come.
    exact carries.giveUp (fun _ => id) fun body closes => .inr ⟨failed, closes⟩
  · have idle : x.downstream.close = x.downstream := by
      rw [Pipe.close, downstream, downloads.aborted aborted]
    rwa [idle]

end Downloads

section

variable {cache : ContentCache} {domain : String} {origin : Option Endpoint}
  {transform : Option Transform} {bodyDone : Bool} {head : RequestHead} {c : Course}

/-- A released exchange has lost its client, or has broken its answer off. -/
theorem Reached.reason
    (reached : Reached cache (Session.fresh domain origin transform) bodyDone head c)
    (settled : c.pending = []) (released : c.exchange.released = true) :
    c.exchange.Unread ∨ .clientFrame .failed ∈ c.happened ∨ .abortClient ∈ actionsOf c.seen := by
  have told : ∀ {event : Session.Event}, isDeparture event = true →
      event ∈ c.told.map Turn.event → c.exchange.Unread ∨ .clientFrame .failed ∈ c.happened := by
    intro event leaves member
    obtain ⟨turn, listed, rfl⟩ := List.mem_map.mp member
    exact reached.departs.gone turn listed leaves
  obtain ⟨session, counted⟩ := Session.play_settled domain origin transform c.told
  have gone := Session.play_gone domain origin transform c.told
  rw [reached.traced, settled, List.append_nil] at session counted gone
  -- Only a released session releases the exchange, and it is released when its client is gone.
  have free : c.exchange.session.released = true := by
    by_contra held
    rw [if_neg held, List.count_eq_zero] at counted
    exact counted (reached.release_performed released)
  rcases gone (session.released_iff.mp free).1 with complete | failed | aborted
  · exact (told rfl complete).imp_right .inl
  · exact (told rfl failed).imp_right .inl
  · exact .inr (.inr aborted)

theorem Reached.downloads
    (reached : Reached cache (Session.fresh domain origin transform) bodyDone head c) :
    Downloads c.exchange c.happened c.seen := by
  induction reached with
  | asked => exact ⟨fun _ => ⟨rfl, rfl⟩, fun _ => rfl, by simp [actionsOf], fun _ => rfl⟩
  | bodiless _ _ _ ih => exact ih.same rfl
  | silent _ enabled _ ih => exact ih.arrive enabled
  | telling _ enabled _ ih => exact (ih.arrive enabled).same rfl
  | performing before _ _ ih => exact ih.perform before.oneAnswer.mayTell
  | disposing before released ih => exact ih.dispose (before.reason rfl released)

end

/-! ## A whole run -/

def Rested (x : Exchange) : Prop := x.released = true → x.downloadOutlet = none

theorem notify_rested (x : Exchange) (said : Session.Event) : (x.notify said).1.Rested := by
  intro released
  rw [notify] at released ⊢
  dsimp only at released ⊢
  split at released
  · rename_i done
    rw [if_pos done]
    have closed := downstream_dispose ((x.tell said).1.apply (x.tell said).2).1
    refine (congrArg Pipe.outlet closed).trans ?_
    rw [Pipe.close]
    split
    · assumption
    · rfl
  · rename_i going
    exact absurd released going

theorem step_rested {x : Exchange} (rested : x.Rested) (event : Event) :
    (x.step event).1.Rested := by
  cases enabled : x.enabled event with
  | false =>
      rw [step.eq_def, enabled]
      exact rested
  | true =>
      rw [step_eq x event enabled]
      cases tells : (x.arrive event).2 with
      | some said => exact notify_rested _ said
      | none =>
          -- Only the session releases an exchange, so this one was released before.
          intro released
          have outlet := rested ((arrive_released x event).symm.trans released)
          rcases x.downstream_arrive event with rfl | rfl | rfl | ⟨same, _⟩
          · exact x.downstream_onDownloadReady.2.downstream.outlet outlet
          · exact outlet
          · simp only [carry, arrive]
            split <;> exact outlet
          · exact (Pipe.mk.inj same).1.trans outlet

theorem run_rested {x : Exchange} (rested : x.Rested) (events : List Event) :
    (x.run events).1.Rested := by
  induction events generalizing x with
  | nil => exact rested
  | cons event rest ih => exact ih (step_rested rested event)

theorem start_rested (cache : ContentCache) (session : Session) (bodyDone : Bool)
    (head : RequestHead) : (start cache session bodyDone head).1.Rested := by
  cases bodyDone with
  | false => exact notify_rested (new cache session false head) (.request head)
  | true => exact notify_rested ((new cache session true head).notify (.request head)).1 .clientEom

theorem step_pollDownload {x : Exchange} {frame : Body.Frame}
    (shows : (x.step .pollDownload).2 = [.downloaded frame]) :
    ∃ body, x.download = some body ∧ body.dropped = false ∧ body.poll.1 = frame := by
  cases enabled : x.enabled .pollDownload with
  | false =>
      rw [step.eq_def, enabled] at shows
      cases shows
  | true =>
      rw [step_eq x _ enabled, shown] at shows
      rw [Exchange.enabled, Bool.and_eq_true, Option.any_eq_true] at enabled
      obtain ⟨_, body, download, present⟩ := enabled
      refine ⟨body, download, by simpa using present, ?_⟩
      rw [download] at shows
      exact Observation.downloaded.inj (List.cons.inj shows).1

/-- A streamed answer that is read to its end is whole, unless the client's body has failed.  It
fails only when it was aborted, and once it was, or the exchange was released, nothing holds the end
back. -/
theorem download_whole_unless_client_failed (cache : ContentCache) (domain : String)
    (origin : Option Endpoint) (transform : Option Transform) (bodyDone : Bool)
    (head : RequestHead) (events : List Event) :
    let begun := start cache (Session.fresh domain origin transform) bodyDone head
    let x := (begun.1.run events).1
    let seen := begun.2 ++ (begun.1.run events).2
    ∀ answer, .performed (.sendHeaders answer) ∈ seen →
      ((x.step .pollDownload).2 = [.downloaded .ended] →
        (.performed .sendEom ∈ seen ∧ .performed .abortClient ∉ seen ∧
          gained downloaded? seen = handed sent? seen) ∨
        .clientFrame .failed ∈ begun.1.happenings events) ∧
      (∀ cause, (x.step .pollDownload).2 = [.downloaded (.failed cause)] →
        .performed .abortClient ∈ seen) ∧
      ((x.step .pollDownload).2 = [.downloaded .pending] →
        .performed .abortClient ∉ seen ∧ x.released = false) := by
  intro begun x seen answer streamed
  obtain ⟨told, reached⟩ :=
    reached cache (Session.fresh domain origin transform) bodyDone head events
  have downloads : Downloads x (begun.1.happenings events) seen := reached.downloads
  have carries := downloads.carries ⟨answer, mem_actionsOf.mpr streamed⟩
  have rested : x.Rested := run_rested (start_rested _ _ _ _) events
  refine ⟨fun shows => ?_, fun cause shows => ?_, fun shows => ?_⟩
  · obtain ⟨body, download, reads, ended⟩ := step_pollDownload shows
    rcases carries.poll_cases download reads with
      ⟨chunk, yields⟩ | ⟨yields, _⟩ | ⟨_, finished, whole⟩ | ⟨⟨_, fails⟩ | ⟨failed, _⟩, _⟩
    · cases ended.symm.trans yields
    · cases ended.symm.trans yields
    · have unbroken := reached.not_broken (List.mem_append_left _ finished)
      refine .inl ⟨mem_actionsOf.mp finished, fun broken => ?_, whole⟩
      exact unbroken (List.mem_append_left _ (mem_actionsOf.mpr broken))
    · rcases fails.poll.1 with ⟨chunk, yields⟩ | yields <;> cases ended.symm.trans yields
    · exact .inr failed
  · obtain ⟨body, download, reads, broken⟩ := step_pollDownload shows
    rcases carries.poll_cases download reads with
      ⟨chunk, yields⟩ | ⟨yields, _⟩ | ⟨yields, _⟩ | ⟨⟨aborted, _⟩ | ⟨_, closed⟩, _⟩
    · cases broken.symm.trans yields
    · cases broken.symm.trans yields
    · cases broken.symm.trans yields
    · exact mem_actionsOf.mp aborted
    · rcases closed.poll.1 with ⟨chunk, yields⟩ | yields <;> cases broken.symm.trans yields
  · -- A reader waits only as long as an outlet feeds its stream.
    obtain ⟨body, download, reads, waits⟩ := step_pollDownload shows
    have open_ : x.downloadOutlet ≠ none := by
      rcases carries.poll_cases download reads with
        ⟨chunk, yields⟩ | ⟨_, fed⟩ | ⟨yields, _⟩ | ⟨⟨_, fails⟩ | ⟨_, closed⟩, _⟩
      · cases waits.symm.trans yields
      · exact fed
      · cases waits.symm.trans yields
      · rcases fails.poll.1 with ⟨chunk, yields⟩ | yields <;> cases waits.symm.trans yields
      · rcases closed.poll.1 with ⟨chunk, yields⟩ | yields <;> cases waits.symm.trans yields
    refine ⟨fun aborted => open_ (downloads.aborted (mem_actionsOf.mpr aborted)), ?_⟩
    exact Bool.eq_false_iff.mpr fun released => open_ (rested released)

/-- A streamed answer, read as it comes. -/
theorem download_read_whole :
    let cache : ContentCache := { partitions := [], maxEntries := 1 }
    let session := Session.fresh "example.com" (some ⟨"10.0.0.1", 80⟩) none
    let begun := start cache session true { method := "POST", uri := .rooted "/" none }
    let events : List Event := [.connected (.ok ()), .originReports (.headers ⟨200, []⟩),
      .originReceived, .originReports (.body [1]), .originReceived, .pollDownload,
      .originReports (.body [2, 3]), .originReports .eom, .originReceived, .originReceived,
      .pollDownload]
    let x := (begun.1.run events).1
    let seen := begun.2 ++ (begun.1.run events).2
    .performed (.sendHeaders ⟨200, []⟩) ∈ seen ∧ (x.step .pollDownload).2 = [.downloaded .ended] ∧
      .performed .sendEom ∈ seen ∧ gained downloaded? seen = handed sent? seen ∧
        handed sent? seen = [[1], [2, 3]] := by
  intro cache session begun events x seen
  have streamed : .performed (.sendHeaders ⟨200, []⟩) ∈ seen := by decide +kernel
  have ended : (x.step .pollDownload).2 = [.downloaded .ended] := by decide +kernel
  have healthy : .clientFrame .failed ∉ begun.1.happenings events := by decide +kernel
  obtain ⟨whole, _⟩ := download_whole_unless_client_failed cache "example.com"
    (some ⟨"10.0.0.1", 80⟩) none true { method := "POST", uri := .rooted "/" none } events
    ⟨200, []⟩ streamed
  obtain ⟨finished, _, all⟩ := (whole ended).resolve_right healthy
  exact ⟨streamed, ended, finished, all, by decide +kernel⟩

/-- The body of a client fails while its answer is streamed.  The client, which still reads, finds
its answer ended, although the origin has more to say. -/
theorem download_cut_short_ends_cleanly :
    let cache : ContentCache := { partitions := [], maxEntries := 1 }
    let session := Session.fresh "example.com" (some ⟨"10.0.0.1", 80⟩) none
    let begun := start cache session false { method := "POST", uri := .rooted "/" none }
    let events : List Event := [.connected (.ok ()), .originReports (.headers ⟨200, []⟩),
      .originReceived, .originReports (.body [1]), .originReceived, .clientFrame .failed,
      .pollDownload]
    let x := (begun.1.run events).1
    let seen := begun.2 ++ (begun.1.run events).2
    .performed (.sendHeaders ⟨200, []⟩) ∈ seen ∧ (x.step .pollDownload).2 = [.downloaded .ended] ∧
      .performed .sendEom ∉ seen ∧ .originReports .eom ∉ begun.1.happenings events ∧
        begun.1.happenings events = events := by
  decide +kernel

end CachingProxy.Exchange
