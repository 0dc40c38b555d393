import CachingProxy.Proofs.Exchange.Pipe
import CachingProxy.Proofs.Exchange.Trace

/-!
# The end of an upload

The origin's connection reads the body of the request from a stream.  Whatever happens, this stream
never fails: it ends, once its sender is gone, behind what the sender got rid of.  So its end tells
that the client's body has ended only as long as the exchange has not given the origin up.
-/

set_option autoImplicit false

namespace CachingProxy.Exchange

open Session (Action)

/-- The chunk that an action hands to the upload. -/
def forwarded? : Action → Option Bytes
  | .forwardBody chunk => some chunk
  | _ => none

def uploaded? : Observation → Option Body.Frame
  | .uploaded frame => some frame
  | _ => none

def Observation.ofUpload : Observation → Bool
  | .performed action => action.toOrigin
  | .uploaded _ => true
  | .downloaded _ | .delivered _ => false

theorem forwarded?_of_unsent {action : Action} (unsent : action.toOrigin = false) :
    forwarded? action = none := by
  cases action <;> first | rfl | cases unsent

theorem uploaded?_of_other {observation : Observation} (other : observation.ofUpload = false) :
    uploaded? observation = none := by
  cases observation <;> first | rfl | cases other

/-! ## The pipe to the origin -/

def upstream (x : Exchange) : Pipe := { outlet := x.uploadOutlet, body := x.upload }

theorem upstream_closeUpload (x : Exchange) :
    x.closeUpload.upstream = x.upstream.close ∧ x.closeUpload.receiving = x.receiving := by
  cases outlet : x.uploadOutlet <;> simp [closeUpload, Pipe.close, upstream, outlet]

theorem upstream_forwardBody (x : Exchange) (chunk : Bytes) :
    (x.forwardBody chunk).1.upstream = x.upstream.push chunk ∧
      (x.forwardBody chunk).1.receiving = x.receiving := by
  cases outlet : x.uploadOutlet with
  | none => simp [forwardBody, Pipe.push, upstream, outlet]
  | some fed =>
      cases body : x.upload with
      | none => simp [forwardBody, Pipe.push, upstream, outlet, body]
      | some stream =>
          rcases pushed : fed.push stream chunk with ⟨_ | next, rest⟩
          · simp [forwardBody, Pipe.push, upstream, closeUpload, Pipe.close, outlet, body, pushed]
          · simp only [forwardBody, Pipe.push, upstream, outlet, body, pushed]
            split <;> exact ⟨rfl, rfl⟩

theorem upstream_forwardEom (x : Exchange) :
    x.forwardEom.upstream = x.upstream.finish ∧ x.forwardEom.receiving = x.receiving := by
  cases outlet : x.uploadOutlet with
  | none => simp [forwardEom, Pipe.finish, upstream, outlet]
  | some fed =>
      have closed := x.upstream_closeUpload
      simp only [forwardEom, Pipe.finish, upstream, outlet] at closed ⊢
      split
      · exact closed
      · exact ⟨rfl, rfl⟩

theorem upstream_drainUpload (x : Exchange) :
    x.drainUpload.upstream = x.upstream.drain ∧ x.drainUpload.receiving = x.receiving := by
  cases outlet : x.uploadOutlet with
  | none => simp [drainUpload, Pipe.drain, upstream, outlet]
  | some fed =>
      cases body : x.upload with
      | none => simp [drainUpload, Pipe.drain, upstream, outlet, body]
      | some stream =>
          rcases drained : fed.drain stream with ⟨_ | next, rest⟩
          · simp [drainUpload, Pipe.drain, upstream, closeUpload, Pipe.close, outlet, body, drained]
          · simp only [drainUpload, Pipe.drain, upstream, closeUpload, Pipe.close, outlet, body,
              drained]
            split <;> exact ⟨rfl, rfl⟩

/-! ## Small steps -/

/-- How far an upload has come.  When the origin is no longer listened to, its end may be early. -/
structure Uploads (bodyDone : Bool) (x : Exchange) (seen : List Observation) : Prop where
  carries : x.upstream.Carries (handed forwarded? seen) (gained uploaded? seen)
    (.forwardEom ∈ actionsOf seen) fun body => x.receiving = false ∧ body.Closed
  unasked : (∀ request, .sendOriginRequest request ∉ actionsOf seen) →
    x.upload = none ∧ gained uploaded? seen = []
  attached : x.receiving = false → x.uploadOutlet = none
  streamed : x.upload.isSome = true → bodyDone = false
  unfailing : ∀ cause, .uploaded (.failed cause) ∉ seen

namespace Uploads

variable {bodyDone : Bool} {x y : Exchange} {seen more : List Observation}

/-- The pipe stays, and more is seen of it. -/
theorem next (uploads : Uploads bodyDone x seen)
    (carries : y.upstream.Carries (handed forwarded? (seen ++ more))
      (gained uploaded? (seen ++ more)) (.forwardEom ∈ actionsOf (seen ++ more))
      fun body => y.receiving = false ∧ body.Closed)
    (keeps : x.upstream.Keeps y.upstream) (attached : y.receiving = false → y.uploadOutlet = none)
    (unread : x.upload = none → gained uploaded? more = [])
    (unfailing : ∀ cause, .uploaded (.failed cause) ∉ more) :
    Uploads bodyDone y (seen ++ more) := by
  refine ⟨carries, fun unasked => ?_, attached, fun present => ?_, fun cause member => ?_⟩
  · obtain ⟨upload, read⟩ := uploads.unasked fun request member =>
      unasked request (mem_actionsOf_append member)
    refine ⟨?_, by rw [gained_append, read, unread upload, List.append_nil]⟩
    have same := keeps.body
    simp only [upstream, upload] at same
    simpa using same
  · exact uploads.streamed (keeps.body.symm.trans present)
  · rcases List.mem_append.mp member with earlier | now
    · exact uploads.unfailing cause earlier
    · exact unfailing cause now

theorem become (uploads : Uploads bodyDone x seen)
    (carries : y.upstream.Carries (handed forwarded? seen) (gained uploaded? seen)
      (.forwardEom ∈ actionsOf seen) fun body => y.receiving = false ∧ body.Closed)
    (keeps : x.upstream.Keeps y.upstream) (attached : y.receiving = false → y.uploadOutlet = none) :
    Uploads bodyDone y seen := by
  have grown : Uploads bodyDone y (seen ++ []) :=
    uploads.next (by simpa using carries) keeps attached (fun _ => rfl) (by simp)
  rwa [List.append_nil] at grown

theorem same (uploads : Uploads bodyDone x seen) (upstream : y.upstream = x.upstream)
    (receiving : y.receiving = x.receiving) : Uploads bodyDone y seen := by
  obtain ⟨outlet, upload⟩ := Pipe.mk.inj upstream
  obtain ⟨carries, unasked, attached, streamed, unfailing⟩ := uploads
  refine ⟨?_, ?_, ?_, ?_, unfailing⟩
  · rwa [upstream, receiving]
  · rwa [upload]
  · rwa [receiving, outlet]
  · rwa [upload]

theorem unseen (uploads : Uploads bodyDone x seen)
    (others : ∀ observation ∈ more, observation.ofUpload = false) :
    Uploads bodyDone x (seen ++ more) := by
  have unfed : handed forwarded? more = [] := handed_eq_nil fun action member =>
    forwarded?_of_unsent (others _ (mem_actionsOf.mp member))
  have unread : gained uploaded? more = [] := gained_eq_nil fun observation member =>
    uploaded?_of_other (others observation member)
  refine uploads.next ?_ (.refl _) uploads.attached (fun _ => unread)
    fun cause member => Bool.false_ne_true (others _ member).symm
  rw [handed_append, unfed, gained_append, unread, List.append_nil, List.append_nil]
  exact uploads.carries.mono mem_actionsOf_append fun _ => id

theorem giveUp (uploads : Uploads bodyDone x seen) :
    Uploads bodyDone { x.closeUpload with receiving := false } seen := by
  have closed := x.upstream_closeUpload.1
  have shut : x.closeUpload.uploadOutlet = none := by
    rw [closeUpload]
    split
    · assumption
    · rfl
  refine uploads.become ?_ ?_ fun _ => shut
  · change x.closeUpload.upstream.Carries _ _ _ _
    rw [closed]
    exact uploads.carries.giveUp (fun body lost => ⟨rfl, lost.2⟩) fun body closed => ⟨rfl, closed⟩
  · change x.upstream.Keeps x.closeUpload.upstream
    rw [closed]
    exact x.upstream.keeps_close

theorem forwardBody (uploads : Uploads bodyDone x seen) (unended : .forwardEom ∉ actionsOf seen)
    (chunk : Bytes) :
    Uploads bodyDone (x.forwardBody chunk).1 (seen ++ [.performed (.forwardBody chunk)]) := by
  obtain ⟨pushed, receiving⟩ := x.upstream_forwardBody chunk
  have keeps := x.upstream.keeps_push chunk
  rw [← pushed] at keeps
  refine uploads.next ?_ keeps (fun lost => ?_) (fun _ => rfl) (by simp)
  · rw [pushed, receiving, handed_append, gained_performed (fun _ => rfl)]
    refine ((uploads.carries.push unended chunk).mono (fun ended => ?_) fun _ => id)
    exact absurd ended unended
  · exact keeps.outlet (uploads.attached (receiving.symm.trans lost))

theorem forwardEom (uploads : Uploads bodyDone x seen) (unended : .forwardEom ∉ actionsOf seen) :
    Uploads bodyDone x.forwardEom (seen ++ [.performed .forwardEom]) := by
  obtain ⟨finished, receiving⟩ := x.upstream_forwardEom
  have keeps := x.upstream.keeps_finish
  rw [← finished] at keeps
  refine uploads.next ?_ keeps (fun lost => ?_) (fun _ => rfl) (by simp)
  · rw [finished, receiving, handed_concat seen rfl, gained_performed (fun _ => rfl)]
    exact uploads.carries.finish unended (last_performed seen _)
  · exact keeps.outlet (uploads.attached (receiving.symm.trans lost))

theorem drain (uploads : Uploads bodyDone x seen) : Uploads bodyDone x.drainUpload seen := by
  obtain ⟨drained, receiving⟩ := x.upstream_drainUpload
  have keeps := x.upstream.keeps_drain
  rw [← drained] at keeps
  refine uploads.become ?_ keeps fun lost => ?_
  · rw [drained, receiving]
    exact uploads.carries.drain
  · exact keeps.outlet (uploads.attached (receiving.symm.trans lost))

theorem nothing (upstream : y.upstream = ⟨none, none⟩) (unread : gained uploaded? seen = [])
    (unfailing : ∀ cause, .uploaded (.failed cause) ∉ seen) : Uploads bodyDone y seen := by
  obtain ⟨outlet, upload⟩ := Pipe.mk.inj upstream
  refine ⟨?_, fun _ => ⟨upload, unread⟩, fun _ => outlet, fun present => ?_, unfailing⟩
  · rw [upstream]
    exact .absent
  · rw [upload] at present
    cases present

theorem startOrigin (uploads : Uploads bodyDone x seen)
    (first : ∀ action ∈ actionsOf seen, action.toOrigin = false)
    (closed : bodyDone = true → x.clientOpen = false) (request : RequestHead) :
    Uploads bodyDone (x.startOrigin request).1
      (seen ++ [.performed (.sendOriginRequest request)]) := by
  -- A session asks its origin once, so nothing was uploaded before.
  obtain ⟨upload, unread⟩ := uploads.unasked fun request member =>
    Bool.false_ne_true (first _ member).symm
  have unfed : handed forwarded? (seen ++ [.performed (.sendOriginRequest request)]) = [] := by
    rw [handed_concat seen rfl]
    exact handed_eq_nil fun action member => forwarded?_of_unsent (first action member)
  have unread' : gained uploaded? (seen ++ [.performed (.sendOriginRequest request)]) = [] := by
    rw [gained_performed (fun _ => rfl), unread]
  have unfailing : ∀ cause, .uploaded (.failed cause) ∉
      seen ++ [.performed (.sendOriginRequest request)] := by
    intro cause member
    rw [List.mem_append, List.mem_singleton] at member
    exact uploads.unfailing cause (member.resolve_right (by simp))
  have idle : x.upstream = ⟨none, none⟩ := by
    rw [upstream, upload]
    cases outlet : x.uploadOutlet with
    | none => rfl
    | some fed =>
        obtain ⟨body, present, _⟩ := uploads.carries.fed fed outlet
        cases upload.symm.trans present
  rw [Exchange.startOrigin]
  split
  · exact nothing idle unread' unfailing
  · dsimp only
    split
    · exact nothing rfl unread' unfailing
    · rw [openUpload]
      cases clientOpen : x.clientOpen with
      | false => exact nothing idle unread' unfailing
      | true =>
          refine ⟨?_, fun unsent => ?_, fun lost => (by cases lost), fun _ => ?_, unfailing⟩
          · rw [unfed, unread']
            exact .opened rfl
          · exact absurd (last_performed seen _) (unsent request)
          · refine Bool.eq_false_iff.mpr fun done => ?_
            exact Bool.false_ne_true ((closed done).symm.trans clientOpen)

theorem poll (uploads : Uploads bodyDone x seen) {body : Body} (upload : x.upload = some body)
    (reads : body.dropped = false)
    (polled : y.upstream = { x.upstream with body := some body.poll.2 })
    (receiving : y.receiving = x.receiving) :
    Uploads bodyDone y (seen ++ [.uploaded body.poll.1]) := by
  refine uploads.next ?_ ?_ (fun lost => ?_) (fun absent => ?_) ?_
  · rw [polled, receiving, handed_concat seen rfl, actionsOf_silent seen rfl,
      gained_concat seen rfl]
    exact uploads.carries.poll (fun body lost => ⟨lost.1, lost.2.poll.2⟩) upload
  · rw [polled]
    exact .of_body upload rfl (Body.dropped_poll body).trans id
  · exact (Pipe.mk.inj polled).1.trans (uploads.attached (receiving.symm.trans lost))
  · cases absent.symm.trans upload
  · -- A stream fails only when it is aborted, and an upload never is.
    intro cause member
    have failed := Observation.uploaded.inj (List.mem_singleton.mp member)
    rcases uploads.carries.poll_cases upload reads with
      ⟨chunk, yields⟩ | ⟨yields, _⟩ | ⟨yields, _⟩ | ⟨⟨_, ends⟩, _⟩
    · cases failed.trans yields
    · cases failed.trans yields
    · cases failed.trans yields
    · rcases ends.poll.1 with ⟨chunk, yields⟩ | yields <;> cases failed.trans yields

theorem drop (uploads : Uploads bodyDone x seen) :
    Uploads bodyDone { x with upload := x.upload.map fun body => body.drop.2 } seen := by
  exact uploads.become uploads.carries.drop x.upstream.keeps_drop uploads.attached

theorem arrive (uploads : Uploads bodyDone x seen) {event : Event}
    (enabled : x.enabled event = true) :
    Uploads bodyDone (x.arrive event).1 (seen ++ x.shown event) := by
  have unshown : ∀ {y : Exchange}, Uploads bodyDone y seen → Uploads bodyDone y (seen ++ []) := by
    intro y held
    rwa [List.append_nil]
  cases event with
  | clientFrame frame => cases frame <;> exact unshown (uploads.same rfl rfl)
  | connected result => cases result <;> exact unshown (uploads.same rfl rfl)
  | originReceived =>
      refine unshown ?_
      rw [Exchange.arrive]
      split
      · exact uploads.same rfl rfl
      · exact uploads.giveUp.same rfl rfl
  | uploadReady => exact unshown uploads.drain
  | downloadReady =>
      refine unshown (uploads.same ?_ ?_) <;>
        simp only [Exchange.arrive, upstream, onDownloadReady, closeDownload] <;>
        (repeat' split) <;> rfl
  | deliveryReported =>
      refine unshown ?_
      rw [Exchange.arrive]
      split <;> exact uploads.same rfl rfl
  | pollUpload =>
      rw [Exchange.enabled, Option.any_eq_true] at enabled
      obtain ⟨body, upload, reads⟩ := enabled
      rw [shown, upload]
      refine uploads.poll upload (by simpa using reads) ?_ rfl
      rw [Exchange.arrive, upload]
      rfl
  | dropUpload => exact unshown uploads.drop
  | pollDownload =>
      exact (uploads.unseen (by simp [shown, Observation.ofUpload])).same rfl rfl
  | dropDownload =>
      have others : ∀ observation ∈ x.shown .dropDownload, observation.ofUpload = false := by
        intro observation member
        rw [shown] at member
        split at member
        · cases member
        · obtain ⟨_, _, rfl⟩ := List.mem_map.mp member
          rfl
      have quiet := uploads.unseen others
      rw [Exchange.arrive]
      split
      · exact quiet
      · exact quiet.same rfl rfl
  | originReports | clientGone | replyClosed => exact unshown (uploads.same rfl rfl)

theorem perform (uploads : Uploads bodyDone x seen) {action : Action}
    (follows : Session.mayFollow (actionsOf seen) action)
    (closed : bodyDone = true → x.clientOpen = false) :
    Uploads bodyDone (x.perform action).1 (seen ++ [.performed action]) := by
  have quiet : action.toOrigin = false →
      Uploads bodyDone x (seen ++ [.performed action]) := by
    intro other
    exact uploads.unseen fun observation member => by rwa [List.mem_singleton.mp member]
  cases action with
  | sendOriginRequest request => exact uploads.startOrigin follows closed request
  | forwardBody chunk => exact uploads.forwardBody follows chunk
  | forwardEom => exact uploads.forwardEom follows
  | abortOrigin => exact (quiet rfl).giveUp.same rfl rfl
  | connect | pauseIngress | resumeIngress | release => exact (quiet rfl).same rfl rfl
  | respond | sendHeaders | sendBody | sendEom | abortClient =>
      refine (quiet rfl).same ?_ ?_ <;>
        simp only [Exchange.perform, upstream, sendResponse, sendBody, sendEom, closeDownload,
          abortDownload] <;> (repeat' split) <;> rfl

end Uploads

section

variable {cache : ContentCache} {domain : String} {origin : Option Endpoint}
  {transform : Option Transform} {bodyDone : Bool} {head : RequestHead} {c : Course}

theorem Reached.uploads
    (reached : Reached cache (Session.fresh domain origin transform) bodyDone head c) :
    Uploads bodyDone c.exchange c.seen := by
  induction reached with
  | asked => exact .nothing rfl rfl (by simp)
  | bodiless _ _ _ ih => exact ih.same rfl rfl
  | silent _ enabled _ ih => exact ih.arrive enabled
  | telling _ enabled _ ih => exact (ih.arrive enabled).same rfl rfl
  | performing before _ _ ih =>
      exact ih.perform (before.inTurn _ _ _ rfl) before.clientSide.none
  | @disposing x _ _ _ _ _ ih =>
      have same : x.dispose.upstream = x.closeUpload.upstream ∧ x.dispose.receiving = false := by
        simp only [dispose, abortOrigin, closeDownload, upstream]
        split <;> exact ⟨rfl, rfl⟩
      exact ih.giveUp.same same.1 same.2

end

/-! ## A whole run -/

theorem step_pollUpload {x : Exchange} {frame : Body.Frame}
    (shows : (x.step .pollUpload).2 = [.uploaded frame]) :
    ∃ body, x.upload = some body ∧ body.dropped = false ∧ body.poll.1 = frame := by
  cases enabled : x.enabled .pollUpload with
  | false =>
      rw [step.eq_def, enabled] at shows
      cases shows
  | true =>
      rw [step_eq x _ enabled, shown] at shows
      rw [Exchange.enabled, Option.any_eq_true] at enabled
      obtain ⟨body, upload, present⟩ := enabled
      refine ⟨body, upload, by simpa using present, ?_⟩
      rw [upload] at shows
      exact Observation.uploaded.inj (List.cons.inj shows).1

/-- An upload never fails.  Read to its end it is whole, as long as the origin is listened to; once
it no longer is, nothing holds the end back. -/
theorem upload_whole_while_receiving (cache : ContentCache) (domain : String)
    (origin : Option Endpoint) (transform : Option Transform) (bodyDone : Bool)
    (head : RequestHead) (events : List Event) :
    let begun := start cache (Session.fresh domain origin transform) bodyDone head
    let x := (begun.1.run events).1
    let seen := begun.2 ++ (begun.1.run events).2
    (∀ cause, .uploaded (.failed cause) ∉ seen) ∧
      ((x.step .pollUpload).2 = [.uploaded .ended] → x.receiving = true →
        .clientFrame .ended ∈ begun.1.happenings events ∧ .performed .forwardEom ∈ seen ∧
          gained uploaded? seen = handed forwarded? seen) ∧
      ((x.step .pollUpload).2 = [.uploaded .pending] → x.receiving = true) := by
  intro begun x seen
  obtain ⟨told, reached⟩ :=
    reached cache (Session.fresh domain origin transform) bodyDone head events
  have uploads : Uploads bodyDone x seen := reached.uploads
  refine ⟨uploads.unfailing, fun shows receiving => ?_, fun shows => ?_⟩
  · obtain ⟨body, upload, reads, ended⟩ := step_pollUpload shows
    rcases uploads.carries.poll_cases upload reads with
      ⟨chunk, yields⟩ | ⟨yields, _⟩ | ⟨_, sent, whole⟩ | ⟨⟨lost, _⟩, _⟩
    · cases ended.symm.trans yields
    · cases ended.symm.trans yields
    · -- The end was forwarded, so the client's body has ended before.
      have sending := Session.play_sending domain origin transform told reached.clientSide.last
      rw [reached.traced] at sending
      have client := reached.clientSide.ended (sending.ended (by simpa using sent))
      refine ⟨client.resolve_left fun done => ?_, mem_actionsOf.mp sent, whole⟩
      have streamed := uploads.streamed (by rw [upload, Option.isSome_some])
      cases streamed.symm.trans done
    · cases receiving.symm.trans lost
  · obtain ⟨body, upload, reads, waits⟩ := step_pollUpload shows
    refine (Bool.eq_false_or_eq_true x.receiving).resolve_right fun lost => ?_
    rcases uploads.carries.poll_cases upload reads with
      ⟨chunk, yields⟩ | ⟨_, open_⟩ | ⟨yields, _⟩ | ⟨⟨_, ends⟩, _⟩
    · cases waits.symm.trans yields
    · exact open_ (uploads.attached lost)
    · cases waits.symm.trans yields
    · rcases ends.poll.1 with ⟨chunk, yields⟩ | yields <;> cases waits.symm.trans yields

/-- All that the client sent is read behind its end. -/
theorem upload_read_whole :
    let cache : ContentCache := { partitions := [], maxEntries := 1 }
    let session := Session.fresh "example.com" (some ⟨"10.0.0.1", 80⟩) none
    let begun := start cache session false { method := "POST", uri := .rooted "/" none }
    let events : List Event := [.connected (.ok ()), .clientFrame (.data [1]),
      .clientFrame (.data [2, 3]), .pollUpload, .clientFrame .ended, .pollUpload]
    let x := (begun.1.run events).1
    let seen := begun.2 ++ (begun.1.run events).2
    (x.step .pollUpload).2 = [.uploaded .ended] ∧ x.receiving = true ∧
      .clientFrame .ended ∈ begun.1.happenings events ∧ .performed .forwardEom ∈ seen ∧
        gained uploaded? seen = handed forwarded? seen ∧
          handed forwarded? seen = [[1], [2, 3]] := by
  intro cache session begun events x seen
  have ended : (x.step .pollUpload).2 = [.uploaded .ended] := by decide +kernel
  have receiving : x.receiving = true := by decide +kernel
  obtain ⟨_, whole, _⟩ := upload_whole_while_receiving cache "example.com"
    (some ⟨"10.0.0.1", 80⟩) none false { method := "POST", uri := .rooted "/" none } events
  obtain ⟨client, sent, all⟩ := whole ended receiving
  exact ⟨ended, receiving, client, sent, all, by decide +kernel⟩

/-- An origin that answers early is not listened to behind its answer.  What it reads of the upload
then ends as if the client's body had ended, which is neither true nor said by the session. -/
theorem upload_cut_short_ends_cleanly :
    let cache : ContentCache := { partitions := [], maxEntries := 1 }
    let session := Session.fresh "example.com" (some ⟨"10.0.0.1", 80⟩) none
    let begun := start cache session false { method := "POST", uri := .rooted "/" none }
    let events : List Event := [.connected (.ok ()), .clientFrame (.data [1]),
      .originReports (.headers ⟨413, []⟩), .originReceived, .originReports .eom, .originReceived,
      .originReceived, .pollUpload]
    let x := (begun.1.run events).1
    let seen := begun.2 ++ (begun.1.run events).2
    (x.step .pollUpload).2 = [.uploaded .ended] ∧
      .clientFrame .ended ∉ begun.1.happenings events ∧ .performed .forwardEom ∉ seen ∧
        .performed .abortOrigin ∉ seen ∧ begun.1.happenings events = events ∧
          x.clientOpen = true := by
  decide +kernel

end CachingProxy.Exchange
