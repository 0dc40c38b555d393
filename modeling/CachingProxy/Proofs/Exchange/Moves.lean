import CachingProxy.Exchange.Exchange
import CachingProxy.Proofs.Session.Turns

/-!
# What an event does to an exchange

An event changes an exchange by itself (`arrive`) and may be told to the session, whose actions are
then performed one by one.  `Reached` gives these small steps, so a property of all exchanges is
proved for one event, for one action and for the release, without opening a run again.
-/

set_option autoImplicit false

namespace CachingProxy.Exchange

open Session (Action Turn)

/-! ## Events -/

def OriginEvent.told : OriginEvent → Session.Event
  | .headers head => .originHeaders head
  | .body chunk => .originBody chunk
  | .eom => .originEom
  | .error cause => .originError cause

def drainUpload (x : Exchange) : Exchange :=
  match x.uploadOutlet, x.upload with
  | some outlet, some body =>
      let (drained, body) := outlet.drain body
      let x := { x with upload := some body }
      match drained with
      | none => x.closeUpload
      | some outlet =>
          if outlet.isFinished then x.closeUpload else { x with uploadOutlet := some outlet }
  | _, _ => x

/-- What an event changes by itself, and what the session is then told. -/
def arrive (x : Exchange) : Event → Exchange × Option Session.Event
  | .clientFrame (.data chunk) => (x, if chunk.isEmpty then none else some (.clientBody chunk))
  | .clientFrame .other => (x, none)
  | .clientFrame .failed => ({ x with clientOpen := false }, some .clientError)
  | .clientFrame .ended => ({ x with clientOpen := false }, some .clientEom)
  | .connected (.ok _) => ({ x with connecting := none, connected := true }, some .connectSuccess)
  | .connected (.error cause) => ({ x with connecting := none }, some (.connectError cause))
  | .originReports event => ({ x with reader := x.reader.report event }, none)
  | .originReceived =>
      match x.reader.queue with
      | event :: rest => ({ x with reader := { x.reader with queue := rest } }, some event.told)
      | [] => ({ x.closeUpload with receiving := false, reader := {} }, some .originDetached)
  | .uploadReady =>
      (x.drainUpload,
        if x.uploadOutlet.isSome && x.upload.isSome && !isBlocked x.drainUpload.uploadOutlet then
          some .egressResumed
        else none)
  | .downloadReady => (x.onDownloadReady, none)
  | .deliveryReported =>
      match x.report with
      | none => (x, none)
      | some .complete => ({ x with awaitingDelivery := false }, some .clientComplete)
      | some .aborted => ({ x with awaitingDelivery := false }, some .clientError)
  | .clientGone => ({ x with clientWaiting := false }, none)
  | .replyClosed => ({ x with replyPending := false }, some .clientError)
  | .pollUpload => ({ x with upload := (pollBody x.upload).2 }, none)
  | .dropUpload => ({ x with upload := x.upload.map fun body => body.drop.2 }, none)
  | .pollDownload => ({ x with download := (pollBody x.download).2 }, none)
  | .dropDownload =>
      match x.download with
      | none => (x, none)
      | some body => ({ x with download := some body.drop.2, report := body.drop.1 }, none)

def shown (x : Exchange) : Event → List Observation
  | .pollUpload => [.uploaded (pollBody x.upload).1]
  | .pollDownload => [.downloaded (pollBody x.download).1]
  | .dropDownload =>
      match x.download with
      | none => []
      | some body => body.drop.1.toList.map .delivered
  | _ => []

def carry (x : Exchange) : Option Session.Event → Exchange × List Observation
  | none => (x, [])
  | some told => performed (x.notify told)

theorem onUploadReady_eq (x : Exchange) :
    x.onUploadReady =
      if x.uploadOutlet.isSome && x.upload.isSome && !isBlocked x.drainUpload.uploadOutlet then
        x.drainUpload.notify .egressResumed
      else (x.drainUpload, []) := by
  have whole : ∀ y : Exchange, (if isBlocked y.uploadOutlet then (y, [])
      else y.notify .egressResumed) =
      if !isBlocked y.uploadOutlet then y.notify .egressResumed else (y, []) := by
    intro y
    cases isBlocked y.uploadOutlet <;> rfl
  cases outlet : x.uploadOutlet with
  | none => simp [onUploadReady, drainUpload, outlet]
  | some fed =>
      cases body : x.upload with
      | none => simp [onUploadReady, drainUpload, outlet, body]
      | some stream =>
          rcases drained : fed.drain stream with ⟨_ | next, rest⟩ <;>
            simp only [onUploadReady, drainUpload, outlet, body, drained, Option.isSome_some,
              Bool.true_and] <;>
            exact whole _

theorem step_eq (x : Exchange) (event : Event) (enabled : x.enabled event = true) :
    x.step event =
      (((x.arrive event).1.carry (x.arrive event).2).1,
        x.shown event ++ ((x.arrive event).1.carry (x.arrive event).2).2) := by
  rw [step.eq_def, enabled]
  cases event with
  | clientFrame frame =>
      cases frame with
      | data chunk =>
          by_cases empty : chunk.isEmpty = true
          · simp [onClientFrame, arrive, shown, carry, performed, empty]
          · simp [onClientFrame, arrive, shown, carry, performed, empty]
      | other | failed | ended => rfl
  | connected result => cases result <;> rfl
  | originReceived =>
      cases queue : x.reader.queue with
      | nil => simp [onOriginReceived, arrive, shown, carry, performed, queue]
      | cons event rest =>
          cases event <;>
            simp [onOriginReceived, arrive, shown, carry, performed, queue, OriginEvent.told]
  | uploadReady =>
      simp only [Bool.not_true, Bool.false_eq_true, if_false, onUploadReady_eq, arrive, shown,
        List.nil_append]
      split <;> rfl
  | deliveryReported =>
      cases report : x.report with
      | none => simp [arrive, shown, carry, report]
      | some delivery => cases delivery <;> simp [onDelivery, arrive, shown, carry, report]
  | dropDownload =>
      cases body : x.download <;> simp [arrive, shown, carry, body]
  | _ => rfl

/-! ## Actions -/

theorem apply_nil (x : Exchange) : x.apply [] = (x, []) := by rw [apply]

theorem apply_cons (x : Exchange) (action : Action) (rest : List Action) :
    x.apply (action :: rest) =
      (((x.perform action).1.apply (rest ++ (x.perform action).2)).1,
        action :: ((x.perform action).1.apply (rest ++ (x.perform action).2)).2) := by
  rw [apply]

/-- What a session is told while its actions are performed: the origin takes no more for now, or is
lost. -/
def isInternal : Session.Event → Bool
  | .egressPaused | .originError _ | .originDetached => true
  | _ => false

theorem tell_plays (x : Exchange) (event : Session.Event) :
    x.session.play [⟨x.cache, event⟩] = ((x.tell event).1.session, (x.tell event).2) := by
  rw [Session.play_cons, Session.play_nil, List.append_nil]
  rfl

theorem closeUpload_session (x : Exchange) : x.closeUpload.session = x.session := by
  rw [closeUpload]
  split <;> rfl

theorem closeDownload_session (x : Exchange) : x.closeDownload.session = x.session := by
  rw [closeDownload]
  split <;> rfl

theorem sendResponse_session (x : Exchange) (head : ResponseHead) (body : Body) :
    (x.sendResponse head body).session = x.session := by
  rw [sendResponse]
  split
  · rfl
  · split <;> rfl

theorem sendBody_session (x : Exchange) (chunk : Bytes) :
    (x.sendBody chunk).session = x.session := by
  rw [sendBody]
  split
  · split
    · exact closeDownload_session _
    · rfl
  · rfl

theorem sendEom_session (x : Exchange) : x.sendEom.session = x.session := by
  rw [sendEom]
  split
  · rfl
  · dsimp only
    split
    · exact closeDownload_session x
    · rfl

theorem forwardEom_session (x : Exchange) : x.forwardEom.session = x.session := by
  rw [forwardEom]
  split
  · rfl
  · dsimp only
    split
    · exact closeUpload_session x
    · rfl

theorem abortDownload_session (x : Exchange) : x.abortDownload.session = x.session := by
  rw [abortDownload]
  split <;> rfl

theorem dispose_session (x : Exchange) : x.dispose.session = x.session := by
  have closed := closeDownload_session x.abortOrigin
  exact closed.trans (closeUpload_session x)

/-- An action is performed with some turns of the session, which answers with what is to be done
then. -/
theorem perform_plays (x : Exchange) (action : Action) :
    ∃ turns : List Turn, (∀ turn ∈ turns, isInternal turn.event = true) ∧
      x.session.play turns = ((x.perform action).1.session, (x.perform action).2) := by
  have silent : ∀ y : Exchange, y.session = x.session →
      ∃ turns : List Turn, (∀ turn ∈ turns, isInternal turn.event = true) ∧
        x.session.play turns = (y.session, []) := by
    intro y same
    exact ⟨[], by simp, by rw [Session.play_nil, same]⟩
  have telling : ∀ (y : Exchange) (event : Session.Event), isInternal event = true →
      y.session = x.session →
      ∃ turns : List Turn, (∀ turn ∈ turns, isInternal turn.event = true) ∧
        x.session.play turns = ((y.tell event).1.session, (y.tell event).2) := by
    intro y event internal same
    exact ⟨[⟨y.cache, event⟩], by simpa using internal, by rw [← same, tell_plays]⟩
  cases action with
  | respond response => exact silent _ (sendResponse_session x _ _)
  | sendHeaders head =>
      exact silent _ (sendResponse_session { x with downloadOutlet := some {} } _ _)
  | sendBody chunk => exact silent _ (sendBody_session x chunk)
  | sendEom => exact silent _ (sendEom_session x)
  | connect | pauseIngress | resumeIngress | release => exact silent _ rfl
  | sendOriginRequest head =>
      rw [perform, startOrigin]
      split
      · exact silent x rfl
      · have opened : ∀ y : Exchange, y.openUpload.session = y.session := by
          intro y
          rw [openUpload]
          split <;> rfl
        have same := opened { x with connected := false }
        simp only
        split
        · -- The session is told that the origin has failed, and then that it is gone.
          rename_i cause _
          generalize { x with connected := false }.openUpload = y at same ⊢
          refine ⟨[⟨y.cache, .originError cause⟩,
            ⟨(({ y with uploadOutlet := none, upload := none } : Exchange).tell
              (.originError cause)).1.cache, .originDetached⟩], by simp [isInternal], ?_⟩
          have first := tell_plays { y with uploadOutlet := none, upload := none }
            (.originError cause)
          have second := tell_plays ({ y with uploadOutlet := none, upload := none }.tell
            (.originError cause)).1 .originDetached
          rw [← List.singleton_append, Session.play_append, ← same, first, second]
          rfl
        · exact silent _ same
  | forwardBody chunk =>
      rw [perform, forwardBody]
      split
      · split
        · exact silent _ (closeUpload_session _)
        · dsimp only
          split
          · exact telling _ _ rfl rfl
          · exact silent _ rfl
      · exact silent x rfl
  | forwardEom => exact silent _ (forwardEom_session x)
  | abortOrigin => exact telling x.abortOrigin _ rfl (closeUpload_session x)
  | abortClient => exact silent _ (abortDownload_session _)

/-! ## Runs in small steps -/

/-- An exchange in the course of a run. -/
structure Course where
  exchange : Exchange
  happened : List Event
  told : List Turn
  pending : List Action
  seen : List Observation

def new (cache : ContentCache) (session : Session) (bodyDone : Bool) (head : RequestHead) :
    Exchange :=
  { cache, session, clientOpen := !bodyDone, method := head.method }

/-- How an exchange may come about.  An event waits until nothing is left to be performed. -/
inductive Reached (cache : ContentCache) (session : Session) (bodyDone : Bool)
    (head : RequestHead) : Course → Prop where
  | asked :
      Reached cache session bodyDone head
        ⟨((new cache session bodyDone head).tell (.request head)).1, [], [⟨cache, .request head⟩],
          ((new cache session bodyDone head).tell (.request head)).2, []⟩
  | bodiless {x : Exchange} {told : List Turn} {seen : List Observation}
      (before : Reached cache session bodyDone head ⟨x, [], told, [], seen⟩)
      (nothing : bodyDone = true) (untold : .clientEom ∉ told.map Turn.event) :
      Reached cache session bodyDone head
        ⟨(x.tell .clientEom).1, [], told ++ [⟨x.cache, .clientEom⟩], (x.tell .clientEom).2, seen⟩
  | silent {x : Exchange} {happened : List Event} {told : List Turn} {seen : List Observation}
      (before : Reached cache session bodyDone head ⟨x, happened, told, [], seen⟩) {event : Event}
      (enabled : x.enabled event = true) (tells : (x.arrive event).2 = none) :
      Reached cache session bodyDone head
        ⟨(x.arrive event).1, happened ++ [event], told, [], seen ++ x.shown event⟩
  | telling {x : Exchange} {happened : List Event} {told : List Turn} {seen : List Observation}
      (before : Reached cache session bodyDone head ⟨x, happened, told, [], seen⟩) {event : Event}
      {said : Session.Event} (enabled : x.enabled event = true)
      (tells : (x.arrive event).2 = some said) :
      Reached cache session bodyDone head
        ⟨((x.arrive event).1.tell said).1, happened ++ [event],
          told ++ [⟨(x.arrive event).1.cache, said⟩], ((x.arrive event).1.tell said).2,
          seen ++ x.shown event⟩
  | performing {x : Exchange} {happened : List Event} {told turns : List Turn} {action : Action}
      {rest : List Action} {seen : List Observation}
      (before : Reached cache session bodyDone head ⟨x, happened, told, action :: rest, seen⟩)
      (internal : ∀ turn ∈ turns, isInternal turn.event = true)
      (plays : x.session.play turns = ((x.perform action).1.session, (x.perform action).2)) :
      Reached cache session bodyDone head
        ⟨(x.perform action).1, happened, told ++ turns, rest ++ (x.perform action).2,
          seen ++ [.performed action]⟩
  | disposing {x : Exchange} {happened : List Event} {told : List Turn} {seen : List Observation}
      (before : Reached cache session bodyDone head ⟨x, happened, told, [], seen⟩)
      (released : x.released = true) :
      Reached cache session bodyDone head ⟨x.dispose, happened, told, [], seen⟩

deriving instance DecidableEq for Event

def happenings (x : Exchange) : List Event → List Event
  | [] => []
  | event :: rest =>
      (if x.enabled event then [event] else []) ++ (x.step event).1.happenings rest

section

variable {cache : ContentCache} {session : Session} {bodyDone : Bool} {head : RequestHead}

theorem apply_reached {x : Exchange} {actions : List Action} {happened : List Event}
    {told : List Turn} {seen : List Observation}
    (before : Reached cache session bodyDone head ⟨x, happened, told, actions, seen⟩) :
    ∃ turns, (∀ turn ∈ turns, isInternal turn.event = true) ∧
      Reached cache session bodyDone head ⟨(x.apply actions).1, happened, told ++ turns, [],
        seen ++ (x.apply actions).2.map .performed⟩ := by
  induction x, actions using apply.induct generalizing told seen with
  | case1 x =>
      refine ⟨[], by simp, ?_⟩
      simpa [apply_nil] using before
  | case2 x action rest ih =>
      obtain ⟨turns, internal, plays⟩ := x.perform_plays action
      obtain ⟨more, internalToo, reached⟩ := ih (before.performing internal plays)
      refine ⟨turns ++ more, ?_, ?_⟩
      · intro turn member
        rcases List.mem_append.mp member with first | later
        · exact internal turn first
        · exact internalToo turn later
      · simpa [apply_cons] using reached

theorem notify_reached {x : Exchange} {said : Session.Event} {happened : List Event}
    {told : List Turn} {seen : List Observation}
    (before : Reached cache session bodyDone head
      ⟨(x.tell said).1, happened, told, (x.tell said).2, seen⟩) :
    ∃ turns, (∀ turn ∈ turns, isInternal turn.event = true) ∧
      Reached cache session bodyDone head ⟨(x.notify said).1, happened, told ++ turns, [],
        seen ++ (x.notify said).2.map .performed⟩ := by
  obtain ⟨turns, internal, reached⟩ := apply_reached before
  refine ⟨turns, internal, ?_⟩
  rw [notify]
  dsimp only
  split
  · rename_i released
    exact reached.disposing released
  · exact reached

theorem step_reached {x : Exchange} {happened : List Event} {told : List Turn}
    {seen : List Observation}
    (before : Reached cache session bodyDone head ⟨x, happened, told, [], seen⟩) (event : Event) :
    ∃ told', Reached cache session bodyDone head ⟨(x.step event).1,
      happened ++ (if x.enabled event then [event] else []), told', [],
      seen ++ (x.step event).2⟩ := by
  by_cases enabled : x.enabled event = true
  · rw [if_pos enabled, step_eq x event enabled]
    cases tells : (x.arrive event).2 with
    | none =>
        refine ⟨told, ?_⟩
        rw [carry, List.append_nil]
        exact before.silent enabled tells
    | some said =>
        obtain ⟨turns, _, reached⟩ := notify_reached (before.telling enabled tells)
        rw [carry, performed, ← List.append_assoc]
        exact ⟨_, reached⟩
  · refine ⟨told, ?_⟩
    rw [if_neg enabled, step.eq_def, if_pos (by simpa using enabled)]
    simpa using before

theorem run_reached {x : Exchange} {happened : List Event} {told : List Turn}
    {seen : List Observation}
    (before : Reached cache session bodyDone head ⟨x, happened, told, [], seen⟩)
    (events : List Event) :
    ∃ told', Reached cache session bodyDone head ⟨(x.run events).1,
      happened ++ x.happenings events, told', [], seen ++ (x.run events).2⟩ := by
  induction events generalizing x happened told seen with
  | nil =>
      refine ⟨told, ?_⟩
      simpa [run, happenings] using before
  | cons event rest ih =>
      obtain ⟨told', next⟩ := step_reached before event
      obtain ⟨final, reached⟩ := ih next
      refine ⟨final, ?_⟩
      simpa [run, happenings] using reached

theorem start_reached (cache : ContentCache) (session : Session) (bodyDone : Bool)
    (head : RequestHead) :
    ∃ told, Reached cache session bodyDone head ⟨(start cache session bodyDone head).1, [], told,
      [], (start cache session bodyDone head).2⟩ := by
  have begun : Reached cache session bodyDone head _ := .asked
  obtain ⟨turns, internal, opened⟩ := notify_reached begun
  rw [start]
  cases bodyDone with
  | false => exact ⟨_, by simpa [new] using opened⟩
  | true =>
      have untold : .clientEom ∉
          ([⟨cache, .request head⟩] ++ turns : List Turn).map Turn.event := by
        intro member
        obtain ⟨turn, listed, eom⟩ := List.mem_map.mp member
        rcases List.mem_append.mp listed with first | later
        · rw [List.mem_singleton.mp first] at eom
          cases eom
        · have inner := internal turn later
          rw [eom] at inner
          cases inner
      obtain ⟨more, _, reached⟩ := notify_reached (opened.bodiless rfl untold)
      exact ⟨_, by simpa [new] using reached⟩

/-- Every run of an exchange is a run in small steps. -/
theorem reached (cache : ContentCache) (session : Session) (bodyDone : Bool) (head : RequestHead)
    (events : List Event) :
    let begun := start cache session bodyDone head
    ∃ told, Reached cache session bodyDone head ⟨(begun.1.run events).1,
      begun.1.happenings events, told, [], begun.2 ++ (begun.1.run events).2⟩ := by
  intro begun
  obtain ⟨told, opened⟩ := start_reached cache session bodyDone head
  obtain ⟨final, ran⟩ := run_reached opened events
  exact ⟨final, by simpa using ran⟩

end

end CachingProxy.Exchange
