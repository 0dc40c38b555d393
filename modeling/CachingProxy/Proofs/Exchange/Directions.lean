import CachingProxy.Proofs.Exchange.Download
import CachingProxy.Proofs.Exchange.Schedule
import CachingProxy.Proofs.Exchange.Upload

/-!
# The two directions of an exchange

What is performed and what happens does to each of the two pipes what its schedule says: an action
pushes a chunk or finishes, an event drains, reads or drops.  Only the request to the origin and the
head of a streamed answer open a pipe.
-/

set_option autoImplicit false

namespace CachingProxy.Exchange

open Session (Action)

theorem gained_single {frame? : Observation → Option Body.Frame} {observation : Observation}
    {frame : Body.Frame} (reads : frame? observation = some frame) :
    gained frame? [observation] = frame.chunks := gained_concat [] reads

/-! ## To the origin -/

def onUpstream : Action → List Pipe.Event
  | .forwardBody chunk => [.push chunk]
  | .forwardEom => [.finish]
  | .abortOrigin => [.close]
  | _ => []

def arriveUpstream (x : Exchange) : Event → List Pipe.Event
  | .originReceived => if x.reader.queue.isEmpty then [.close] else []
  | .uploadReady => [.drain]
  | .pollUpload => [.poll]
  | .dropUpload => [.drop]
  | _ => []

theorem pushes_onUpstream {action : Action} :
    Pipe.pushes (onUpstream action) = (forwarded? action).toList := by
  cases action <;> rfl

theorem pushes_arriveUpstream (x : Exchange) (event : Event) :
    Pipe.pushes (x.arriveUpstream event) = [] := by
  cases event with
  | originReceived =>
      rw [arriveUpstream]
      split <;> rfl
  | _ => rfl

theorem upstream_perform (x : Exchange) {action : Action}
    (asked : ∀ request, action ≠ .sendOriginRequest request) :
    (x.perform action).1.upstream = (x.upstream.run (onUpstream action)).1 := by
  cases action with
  | sendOriginRequest request => exact absurd rfl (asked request)
  | forwardBody chunk => exact (x.upstream_forwardBody chunk).1
  | forwardEom => exact x.upstream_forwardEom.1
  | abortOrigin => exact x.upstream_closeUpload.1
  | connect | pauseIngress | resumeIngress | release => rfl
  | respond | sendHeaders | sendBody | sendEom | abortClient =>
      simp only [perform, upstream, sendResponse, sendBody, sendEom, closeDownload, abortDownload]
      repeat' split
      all_goals rfl

theorem upstream_arrive (x : Exchange) {event : Event} (enabled : x.enabled event = true) :
    x.upstream.run (x.arriveUpstream event) =
      ((x.arrive event).1.upstream, gained uploaded? (x.shown event)) := by
  cases event with
  | clientFrame frame => cases frame <;> rfl
  | connected result => cases result <;> rfl
  | originReceived =>
      rw [arrive, arriveUpstream]
      cases queue : x.reader.queue with
      | nil => exact congrArg (·, []) x.upstream_closeUpload.1.symm
      | cons report rest => rfl
  | uploadReady => exact congrArg (·, []) x.upstream_drainUpload.1.symm
  | downloadReady =>
      refine congrArg (·, []) ?_
      simp only [arrive, upstream, onDownloadReady, closeDownload]
      repeat' split
      all_goals rfl
  | deliveryReported =>
      rw [arrive]
      split <;> rfl
  | pollUpload =>
      rw [Exchange.enabled, Option.any_eq_true] at enabled
      obtain ⟨body, upload, reads⟩ := enabled
      rw [Bool.not_eq_true'] at reads
      rw [arrive, shown, upload, gained_single rfl]
      simp [arriveUpstream, Pipe.run, Pipe.step, Pipe.poll, upstream, upload, reads, pollBody]
  | dropDownload =>
      have unread : gained uploaded? (x.shown .dropDownload) = [] :=
        gained_eq_nil fun observation member => by
          rw [shown] at member
          split at member
          · cases member
          · obtain ⟨_, _, rfl⟩ := List.mem_map.mp member
            rfl
      rw [unread, arrive]
      split <;> rfl
  | _ => rfl

theorem upstream_dispose (x : Exchange) : x.dispose.upstream = x.upstream.close := by
  rw [← x.upstream_closeUpload.1]
  simp only [dispose, abortOrigin, closeDownload, upstream]
  split <;> rfl

/-! ## To the client -/

def onDownstream : Action → List Pipe.Event
  | .sendBody chunk => [.push chunk]
  | .sendEom => [.finish]
  | .abortClient => [.abort]
  | _ => []

def arriveDownstream : Event → List Pipe.Event
  | .downloadReady => [.drain]
  | .pollDownload => [.poll]
  | .dropDownload => [.drop]
  | _ => []

theorem pushes_onDownstream {action : Action} :
    Pipe.pushes (onDownstream action) = (sent? action).toList := by
  cases action <;> rfl

theorem pushes_arriveDownstream (event : Event) : Pipe.pushes (arriveDownstream event) = [] := by
  cases event <;> rfl

theorem downstream_performed (x : Exchange) {action : Action}
    (unanswered : ∀ response, action ≠ .respond response)
    (unbegun : ∀ head, action ≠ .sendHeaders head) :
    (x.perform action).1.downstream = (x.downstream.run (onDownstream action)).1 := by
  cases action with
  | respond response => exact absurd rfl (unanswered response)
  | sendHeaders head => exact absurd rfl (unbegun head)
  | sendBody chunk => exact (x.downstream_sendBody chunk).1
  | sendEom => exact x.downstream_sendEom.1
  | abortClient =>
      exact (downstream_abortDownload
        { x with replyPending := false, awaitingDelivery := false }).1
  | _ => exact (x.downstream_perform rfl).1

theorem downstream_arrived (x : Exchange) {event : Event} (enabled : x.enabled event = true) :
    x.downstream.run (arriveDownstream event) =
      ((x.arrive event).1.downstream, gained downloaded? (x.shown event)) := by
  have quiet : event ≠ .pollDownload → gained downloaded? (x.shown event) = [] := fun other =>
    gained_eq_nil fun observation member =>
      downloaded?_of_other (x.shown_ofDownload other observation member)
  have unmoved : event ≠ .downloadReady → event ≠ .pollDownload → event ≠ .dropDownload →
      (x.arrive event).1.downstream = x.downstream := by
    intro ready polls drops
    rcases x.downstream_arrive event with same | same | same | ⟨same, _⟩
    · exact absurd same ready
    · exact absurd same polls
    · exact absurd same drops
    · exact same
  cases event with
  | pollDownload =>
      rw [Exchange.enabled, Bool.and_eq_true, Option.any_eq_true] at enabled
      obtain ⟨_, body, download, reads⟩ := enabled
      rw [Bool.not_eq_true'] at reads
      rw [arrive, shown, download, gained_single rfl]
      simp [arriveDownstream, Pipe.run, Pipe.step, Pipe.poll, downstream, download, reads, pollBody]
  | downloadReady => exact congrArg (·, []) x.downstream_onDownloadReady.1.symm
  | dropDownload =>
      rw [quiet (by simp), arrive]
      cases download : x.download <;>
        simp [arriveDownstream, Pipe.run, Pipe.step, Pipe.drop, downstream, download]
  | _ =>
      rw [quiet (by simp), unmoved (by simp) (by simp) (by simp)]
      rfl

end CachingProxy.Exchange
