import CachingProxy.Proofs.Exchange.Pipe
import CachingProxy.Proofs.Exchange.Trace

/-!
# What an exchange knows of its client

The session believes its client gone when it was told so.  Then nobody reads an answer any more
(`Unread`), with one exception: a client whose body has failed may still read.
-/

set_option autoImplicit false

namespace CachingProxy.Exchange

open Session (Action Turn)

/-! ## The pipe to the client -/

def downstream (x : Exchange) : Pipe := { outlet := x.downloadOutlet, body := x.download }

/-- The client neither waits for an answer nor reads the one it was given. -/
def Unread (x : Exchange) : Prop := x.replyPending = false ∧ x.downstream.Unread

/-- The client is not given an answer, and what is known of it stays known. -/
structure Continues (x y : Exchange) : Prop where
  downstream : x.downstream.Keeps y.downstream
  replied : x.replyPending = false → y.replyPending = false
  report : y.report = x.report
  released : y.released = x.released

def standing (x : Exchange) : Bool × Option Delivery × Bool :=
  (x.replyPending, x.report, x.released)

theorem Continues.of_standing {x y : Exchange} (downstream : x.downstream.Keeps y.downstream)
    (standing : y.standing = x.standing) : x.Continues y := by
  simp only [Exchange.standing, Prod.mk.injEq] at standing
  exact ⟨downstream, standing.1.trans, standing.2.1, standing.2.2⟩

theorem Continues.of_same {x y : Exchange} (downstream : y.downstream = x.downstream)
    (standing : y.standing = x.standing) : x.Continues y := by
  refine .of_standing ?_ standing
  rw [downstream]
  exact .refl _

theorem Continues.unread {x y : Exchange} (continues : x.Continues y) (unread : x.Unread) :
    y.Unread := ⟨continues.replied unread.1, continues.downstream.unread unread.2⟩

theorem downstream_closeDownload (x : Exchange) :
    x.closeDownload.downstream = x.downstream.close ∧ x.Continues x.closeDownload := by
  have closed : x.closeDownload.downstream = x.downstream.close := by
    cases outlet : x.downloadOutlet <;> simp [closeDownload, Pipe.close, downstream, outlet]
  refine ⟨closed, .of_standing (by rw [closed]; exact x.downstream.keeps_close) ?_⟩
  rw [standing, standing, closeDownload]
  split <;> rfl

theorem downstream_abortDownload (x : Exchange) :
    x.abortDownload.downstream = x.downstream.abort ∧ x.Continues x.abortDownload := by
  have aborted : x.abortDownload.downstream = x.downstream.abort := by
    cases outlet : x.downloadOutlet <;> simp [abortDownload, Pipe.abort, downstream, outlet]
  refine ⟨aborted, .of_standing (by rw [aborted]; exact x.downstream.keeps_abort) ?_⟩
  rw [standing, standing, abortDownload]
  split <;> rfl

theorem downstream_sendBody (x : Exchange) (chunk : Bytes) :
    (x.sendBody chunk).downstream = x.downstream.push chunk ∧ x.Continues (x.sendBody chunk) := by
  have pushed : (x.sendBody chunk).downstream = x.downstream.push chunk := by
    cases outlet : x.downloadOutlet with
    | none => simp [sendBody, Pipe.push, downstream, outlet]
    | some fed =>
        cases body : x.download with
        | none => simp [sendBody, Pipe.push, downstream, outlet, body]
        | some stream =>
            rcases pushed : fed.push stream chunk with ⟨_ | next, rest⟩ <;>
              simp [sendBody, Pipe.push, downstream, closeDownload, Pipe.close, outlet, body,
                pushed]
  refine ⟨pushed, .of_standing (by rw [pushed]; exact x.downstream.keeps_push chunk) ?_⟩
  simp only [standing, sendBody, closeDownload]
  repeat' split
  all_goals rfl

theorem downstream_sendEom (x : Exchange) :
    x.sendEom.downstream = x.downstream.finish ∧ x.Continues x.sendEom := by
  have finished : x.sendEom.downstream = x.downstream.finish := by
    cases outlet : x.downloadOutlet with
    | none => simp [sendEom, Pipe.finish, downstream, outlet]
    | some fed =>
        have closed := x.downstream_closeDownload.1
        simp only [sendEom, Pipe.finish, downstream, outlet] at closed ⊢
        split
        · exact closed
        · rfl
  refine ⟨finished, .of_standing (by rw [finished]; exact x.downstream.keeps_finish) ?_⟩
  simp only [standing, sendEom, closeDownload]
  repeat' split
  all_goals rfl

theorem downstream_onDownloadReady (x : Exchange) :
    x.onDownloadReady.downstream = x.downstream.drain ∧ x.Continues x.onDownloadReady := by
  have drained : x.onDownloadReady.downstream = x.downstream.drain := by
    cases outlet : x.downloadOutlet with
    | none => simp [onDownloadReady, Pipe.drain, downstream, outlet]
    | some fed =>
        cases body : x.download with
        | none => simp [onDownloadReady, Pipe.drain, downstream, outlet, body]
        | some stream =>
            rcases drained : fed.drain stream with ⟨_ | next, rest⟩
            · simp [onDownloadReady, Pipe.drain, downstream, closeDownload, Pipe.close, outlet,
                body, drained]
            · simp only [onDownloadReady, Pipe.drain, downstream, closeDownload, Pipe.close, outlet,
                body, drained]
              split <;> rfl
  refine ⟨drained, .of_standing (by rw [drained]; exact x.downstream.keeps_drain) ?_⟩
  simp only [standing, onDownloadReady, closeDownload]
  repeat' split
  all_goals rfl

/-! ## Actions and events -/

theorem sendResponse_delivers (x : Exchange) (head : ResponseHead) (body : Body) :
    (x.sendResponse head body).replyPending = false ∧
      (x.sendResponse head body).released = x.released ∧
      ((x.sendResponse head body).downstream.Unread ∨
        (x.replyPending = true ∧ (x.sendResponse head body).report = x.report)) := by
  rw [sendResponse]
  cases pending : x.replyPending with
  | false =>
      rw [if_pos (by simp)]
      exact ⟨rfl, rfl, .inl (Pipe.unread_of_dropped rfl rfl)⟩
  | true =>
      rw [if_neg (by simp)]
      split
      · exact ⟨rfl, rfl, .inr ⟨rfl, rfl⟩⟩
      · exact ⟨rfl, rfl, .inl (Pipe.unread_of_dropped rfl (Body.dropped_drop body))⟩

/-- What is not for the client leaves it alone. -/
theorem downstream_perform (x : Exchange) {action : Action} (other : action.toClient = false) :
    (x.perform action).1.downstream = x.downstream ∧
      (action ≠ .release → x.Continues (x.perform action).1) := by
  have alike : ∀ y : Exchange, y.downstream = x.downstream → y.standing = x.standing →
      y.downstream = x.downstream ∧ (action ≠ .release → x.Continues y) :=
    fun _ downstream standing => ⟨downstream, fun _ => .of_same downstream standing⟩
  cases action with
  | respond | sendHeaders | sendBody | sendEom | abortClient => cases other
  | release => exact ⟨rfl, fun going => absurd rfl going⟩
  | connect | pauseIngress | resumeIngress => exact alike _ rfl rfl
  | sendOriginRequest | forwardBody | forwardEom | abortOrigin =>
      refine alike _ ?_ ?_ <;>
        simp only [perform, downstream, standing, startOrigin, openUpload, refuseTarget, tell,
          forwardBody, forwardEom, abortOrigin, closeUpload] <;>
        (repeat' split) <;> rfl

theorem Continues.perform (x : Exchange) {action : Action}
    (unanswered : ∀ response, action ≠ .respond response)
    (unbegun : ∀ head, action ≠ .sendHeaders head) (going : action ≠ .release) :
    x.Continues (x.perform action).1 := by
  cases visible : action.toClient with
  | false => exact (x.downstream_perform visible).2 going
  | true =>
      cases action with
      | respond response => exact absurd rfl (unanswered response)
      | sendHeaders head => exact absurd rfl (unbegun head)
      | sendBody chunk => exact (x.downstream_sendBody chunk).2
      | sendEom => exact x.downstream_sendEom.2
      | abortClient =>
          have aborted := (downstream_abortDownload
            { x with replyPending := false, awaitingDelivery := false }).2
          exact ⟨aborted.downstream, fun _ => aborted.replied rfl, aborted.report, aborted.released⟩
      | _ => cases visible

theorem Continues.dispose (x : Exchange) : x.Continues x.dispose := by
  have same : x.abortOrigin.downstream = x.downstream ∧ x.abortOrigin.report = x.report ∧
      x.abortOrigin.released = x.released := by
    simp only [abortOrigin, closeUpload]
    split <;> exact ⟨rfl, rfl, rfl⟩
  have closed := x.abortOrigin.downstream_closeDownload.2
  refine ⟨?_, fun _ => rfl, closed.report.trans same.2.1, closed.released.trans same.2.2⟩
  rw [← same.1]
  exact closed.downstream

theorem downstream_dispose (x : Exchange) : x.dispose.downstream = x.downstream.close := by
  have same : x.abortOrigin.downstream = x.downstream := by
    simp only [abortOrigin, downstream, closeUpload]
    split <;> rfl
  rw [← same]
  exact x.abortOrigin.downstream_closeDownload.1

theorem downstream_arrive (x : Exchange) (event : Event) :
    event = .downloadReady ∨ event = .pollDownload ∨ event = .dropDownload ∨
      (x.arrive event).1.downstream = x.downstream ∧ x.Continues (x.arrive event).1 := by
  have alike : ∀ y : Exchange, y.downstream = x.downstream → y.standing = x.standing →
      y.downstream = x.downstream ∧ x.Continues y :=
    fun _ downstream standing => ⟨downstream, .of_same downstream standing⟩
  cases event with
  | downloadReady => exact .inl rfl
  | pollDownload => exact .inr (.inl rfl)
  | dropDownload => exact .inr (.inr (.inl rfl))
  | clientFrame frame => cases frame <;> exact .inr (.inr (.inr (alike _ rfl rfl)))
  | connected result => cases result <;> exact .inr (.inr (.inr (alike _ rfl rfl)))
  | originReceived | deliveryReported | uploadReady =>
      refine .inr (.inr (.inr (alike _ ?_ ?_))) <;>
        simp only [arrive, drainUpload, closeUpload] <;> (repeat' split) <;> rfl
  | replyClosed => exact .inr (.inr (.inr ⟨rfl, .refl _, fun _ => rfl, rfl, rfl⟩))
  | originReports | clientGone | pollUpload | dropUpload =>
      exact .inr (.inr (.inr (alike _ rfl rfl)))

theorem arrive_released (x : Exchange) (event : Event) :
    (x.arrive event).1.released = x.released := by
  rcases x.downstream_arrive event with rfl | rfl | rfl | ⟨_, continues⟩
  · exact x.downstream_onDownloadReady.2.released
  · rfl
  · rw [arrive]
    split <;> rfl
  · exact continues.released

theorem perform_released (x : Exchange) {action : Action} (going : action ≠ .release) :
    (x.perform action).1.released = x.released := by
  cases action with
  | respond response => exact (x.sendResponse_delivers _ _).2.1
  | sendHeaders head =>
      exact (sendResponse_delivers { x with downloadOutlet := some {} } _ _).2.1
  | release => exact absurd rfl going
  | _ => exact (Continues.perform x (by simp) (by simp) (by simp)).released

/-! ## Small steps -/

def isDeparture : Session.Event → Bool
  | .clientComplete | .clientError => true
  | _ => false

theorem isDeparture_of_internal {event : Session.Event} (internal : isInternal event = true) :
    isDeparture event = false := by
  cases event <;> first | rfl | cases internal

/-- What is known of the client after some events, of which the session was told some. -/
structure Departs (x : Exchange) (happened : List Event) (told : List Turn) : Prop where
  answered : x.download.isSome = true → x.replyPending = false
  reported : x.report.isSome = true → x.Unread
  gone : ∀ turn ∈ told, isDeparture turn.event = true →
    x.Unread ∨ .clientFrame .failed ∈ happened

namespace Departs

variable {x y : Exchange} {happened : List Event} {told more : List Turn}

theorem kept (departs : Departs x happened told) (continues : x.Continues y) :
    Departs y happened told := by
  refine ⟨fun present => ?_, fun present => ?_, fun turn member leaves => ?_⟩
  · exact continues.replied (departs.answered (continues.downstream.body.symm.trans present))
  · rw [continues.report] at present
    exact continues.unread (departs.reported present)
  · exact (departs.gone turn member leaves).imp_left continues.unread

theorem hear (departs : Departs x happened told)
    (others : ∀ turn ∈ more, isDeparture turn.event = false) :
    Departs x happened (told ++ more) := by
  refine ⟨departs.answered, departs.reported, fun turn member leaves => ?_⟩
  rcases List.mem_append.mp member with earlier | now
  · exact departs.gone turn earlier leaves
  · cases (others turn now).symm.trans leaves

theorem leave (departs : Departs x happened told) {turn : Turn}
    (reason : x.Unread ∨ .clientFrame .failed ∈ happened) :
    Departs x happened (told ++ [turn]) := by
  refine ⟨departs.answered, departs.reported, fun other member leaves => ?_⟩
  rcases List.mem_append.mp member with earlier | now
  · exact departs.gone other earlier leaves
  · exact reason

theorem sendResponse (departs : Departs x happened told) (head : ResponseHead) (body : Body) :
    Departs (x.sendResponse head body) happened told := by
  obtain ⟨replied, _, delivers⟩ := x.sendResponse_delivers head body
  refine ⟨fun _ => replied, fun present => ?_, fun turn member leaves => ?_⟩
  · -- A report tells that the client was answered before, so nobody is given this answer.
    refine ⟨replied, delivers.resolve_right ?_⟩
    rintro ⟨pending, same⟩
    rw [same] at present
    exact Bool.false_ne_true ((departs.reported present).1.symm.trans pending)
  · refine (departs.gone turn member leaves).imp_left fun unread => ⟨replied, ?_⟩
    refine delivers.resolve_right fun waits => ?_
    exact Bool.false_ne_true (unread.1.symm.trans waits.1)

theorem perform (departs : Departs x happened told) (action : Action) :
    Departs (x.perform action).1 happened told := by
  cases action with
  | respond response => exact departs.sendResponse _ _
  | sendHeaders head =>
      have opened : Departs { x with downloadOutlet := some {} } happened told :=
        ⟨departs.answered, departs.reported, departs.gone⟩
      exact opened.sendResponse _ _
  | release => exact ⟨departs.answered, departs.reported, departs.gone⟩
  | _ => exact departs.kept (.perform x (by simp) (by simp) (by simp))

theorem arrive (departs : Departs x happened told) {event : Event}
    (enabled : x.enabled event = true) :
    Departs (x.arrive event).1 (happened ++ [event]) told := by
  have later : ∀ {y : Exchange}, x.Continues y → Departs y (happened ++ [event]) told := by
    intro y continues
    have kept := departs.kept continues
    exact ⟨kept.answered, kept.reported, fun turn member leaves =>
      (kept.gone turn member leaves).imp_right (List.mem_append_left _)⟩
  rcases x.downstream_arrive event with rfl | rfl | rfl | ⟨_, continues⟩
  · exact later x.downstream_onDownloadReady.2
  · refine later (.of_standing (.of_map ?_ (fun body => (Body.dropped_poll body).trans) id) rfl)
    rw [downstream, downstream, Exchange.arrive]
    cases x.download <;> rfl
  · rw [Exchange.enabled, Bool.and_eq_true, Option.any_eq_true] at enabled
    obtain ⟨_, body, download, _⟩ := enabled
    have replied := departs.answered (by rw [download, Option.isSome_some])
    have dropped : (x.arrive .dropDownload).1 =
        { x with download := some body.drop.2, report := body.drop.1 } := by
      rw [Exchange.arrive, download]
    -- The reader reports as it leaves, and nobody reads on.
    have unread : (x.arrive .dropDownload).1.Unread := by
      rw [dropped]
      exact ⟨replied, Pipe.unread_of_dropped rfl (Body.dropped_drop body)⟩
    refine ⟨fun _ => unread.1, fun _ => unread, fun _ _ _ => .inl unread⟩
  · exact later continues

end Departs

/-- The session is told that the client is gone when its answer was delivered or given up, and when
the client's body has failed. -/
theorem arrive_departure {x : Exchange} {happened : List Event} {told : List Turn}
    (departs : Departs x happened told) {event : Event} {said : Session.Event}
    (enabled : x.enabled event = true) (tells : (x.arrive event).2 = some said)
    (leaves : isDeparture said = true) :
    (x.arrive event).1.Unread ∨ event = .clientFrame .failed := by
  cases event with
  | clientFrame frame =>
      cases frame with
      | failed => exact .inr rfl
      | data chunk =>
          rw [arrive] at tells
          dsimp only at tells
          split at tells <;> cases tells
          cases leaves
      | other => cases tells
      | ended =>
          cases tells
          cases leaves
  | connected result => cases result <;> cases tells <;> cases leaves
  | originReceived =>
      rw [arrive] at tells
      split at tells
      · rename_i report _ _
        cases report <;> cases tells <;> cases leaves
      · cases tells
        cases leaves
  | uploadReady =>
      rw [arrive] at tells
      dsimp only at tells
      split at tells <;> cases tells
      cases leaves
  | deliveryReported =>
      left
      rw [Exchange.enabled, Bool.and_eq_true] at enabled
      have unread := departs.reported enabled.2
      have same : (x.arrive .deliveryReported).1.downstream = x.downstream ∧
          (x.arrive .deliveryReported).1.replyPending = x.replyPending := by
        rw [arrive]
        split <;> exact ⟨rfl, rfl⟩
      rw [Unread, same.1, same.2]
      exact unread
  | replyClosed =>
      -- The client is told of before it was answered, so there is no stream.
      left
      refine ⟨rfl, fun body present => ?_⟩
      rw [Exchange.enabled, Bool.and_eq_true, Bool.and_eq_true] at enabled
      have download : x.download = some body := present
      have replied := departs.answered (by rw [download, Option.isSome_some])
      exact absurd (replied.symm.trans enabled.1.2) Bool.false_ne_true
  | dropDownload =>
      rw [arrive] at tells
      split at tells <;> cases tells
  | _ => cases tells

section

variable {cache : ContentCache} {session : Session} {bodyDone : Bool} {head : RequestHead}
  {c : Course}

theorem Reached.departs (reached : Reached cache session bodyDone head c) :
    Departs c.exchange c.happened c.told := by
  have tell : ∀ (x : Exchange) (said : Session.Event), x.Continues (x.tell said).1 :=
    fun x said => .of_same rfl rfl
  induction reached with
  | asked =>
      refine ⟨fun present => (by cases present), fun present => (by cases present), ?_⟩
      intro turn member leaves
      rw [List.mem_singleton.mp member] at leaves
      cases leaves
  | @bodiless x _ _ _ _ _ ih =>
      refine (ih.kept (tell x .clientEom)).hear fun turn member => ?_
      rw [List.mem_singleton.mp member]
      rfl
  | silent _ enabled _ ih => exact ih.arrive enabled
  | @telling x happened told seen _ event said enabled tells ih =>
      have arrived := (ih.arrive enabled).kept (tell (x.arrive event).1 said)
      cases leaves : isDeparture said with
      | false => exact arrived.hear (by simpa using leaves)
      | true =>
          refine arrived.leave ?_
          rcases arrive_departure ih enabled tells leaves with unread | rfl
          · exact .inl unread
          · exact .inr (List.mem_append_right _ (List.mem_singleton_self _))
  | performing _ internal _ ih =>
      exact (ih.perform _).hear fun turn member => isDeparture_of_internal (internal turn member)
  | disposing _ _ ih => exact ih.kept (.dispose _)

theorem Reached.release_performed (reached : Reached cache session bodyDone head c)
    (released : c.exchange.released = true) : .release ∈ actionsOf c.seen := by
  induction reached with
  | asked => cases released
  | bodiless _ _ _ ih => exact ih released
  | silent _ enabled _ ih =>
      exact mem_actionsOf_append (ih ((arrive_released _ _).symm.trans released))
  | telling _ enabled _ ih =>
      exact mem_actionsOf_append (ih ((arrive_released _ _).symm.trans released))
  | @performing x _ _ _ action _ _ _ _ _ ih =>
      rw [actionsOf_concat, List.mem_append, List.mem_singleton]
      by_cases last : action = .release
      · exact .inr last.symm
      · exact .inl (ih ((perform_released x last).symm.trans released))
  | disposing _ _ ih => exact ih ((Continues.dispose _).released.symm.trans released)

end

end CachingProxy.Exchange
