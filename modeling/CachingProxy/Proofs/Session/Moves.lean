import CachingProxy.Proofs.Session.Turns
import Mathlib.Data.Option.Basic

/-!
# What an event does to a session

The handlers of a session, restated as one relation with a rule for each way an event is taken.
Events that a session has no use for leave it as it is; `Session.ignores` says which these are.
Every other step follows a rule (`take_cases`), so a property of all steps is proved rule by rule,
without opening a handler again.
-/

set_option autoImplicit false

namespace CachingProxy.Session

/-- The events that a session has no use for in the state it is in. -/
def ignores (session : Session) : Event → Bool
  | .request _ => session.released || session.state != .new
  | .connectSuccess =>
      session.released || session.state != .connecting || session.request.isNone
  | .connectError _ => session.released || session.state != .connecting
  | .clientBody _ | .clientEom =>
      session.released || session.clientTerminated ||
        (session.state != .connecting && !session.originOpen)
  | .clientComplete | .clientError => session.released || session.clientTerminated
  | .originHeaders _ => session.released || !session.originOpen
  | .originBody _ =>
      session.released || session.state != .streaming ||
        (session.responseBody.isNone &&
          (session.progress != .streaming || session.clientTerminated))
  | .originEom => session.released || session.state != .streaming
  | .originError _ => session.released || session.originDone || !session.originAttached
  | .originDetached => session.released || !session.originAttached
  | .egressPaused | .egressResumed =>
      session.released || session.clientTerminated || !session.originOpen

theorem originOpen_iff (session : Session) :
    session.originOpen = true ↔ session.originAttached = true ∧ session.originDone = false := by
  simp [originOpen]

/-- The rules of a session that is not released.  The result is the session after the event and the
actions it answers with. -/
inductive Moves (cache : ContentCache) (session : Session) :
    Event → Session × List Action → Prop where
  | hit {head : RequestHead} {route : Route} (start : session.state = .new)
      (get : head.method = "GET")
      (found : (cache.get session.domain head.path).1 = some route) :
      Moves cache session (.request head)
        ({ session with
            method := head.method, path := head.path
            state := .cacheHitRespond, progress := .sent },
          [.respond (hitResponse session.transform route)])
  | unserved {head : RequestHead} (start : session.state = .new)
      (missed : head.method = "GET" → (cache.get session.domain head.path).1 = none)
      (nowhere : session.origin = none) :
      Moves cache session (.request head)
        ({ session with
            method := head.method, path := head.path
            request := some (forwardedHead session.domain head)
            state := .originError, progress := .sent },
          [.respond (failure 502)])
  | asked {head : RequestHead} {origin : Endpoint} (start : session.state = .new)
      (missed : head.method = "GET" → (cache.get session.domain head.path).1 = none)
      (known : session.origin = some origin) :
      Moves cache session (.request head)
        ({ session with
            method := head.method, path := head.path
            request := some (forwardedHead session.domain head)
            state := .connecting },
          [.pauseIngress, .connect origin])
  | connected {request : RequestHead} (waiting : session.state = .connecting)
      (held : session.request = some request) :
      Moves cache session .connectSuccess
        ({ session with
            request := none, originAttached := true, state := .connected, pendingBody := [] },
          .sendOriginRequest request :: session.pendingBody.map .forwardBody ++
            (if session.pendingEom then [.forwardEom] else []) ++ [.resumeIngress])
  | unconnected {cause : ProxyError} (waiting : session.state = .connecting)
      (present : session.clientTerminated = false) :
      Moves cache session (.connectError cause)
        ({ session with state := .originError, pendingBody := [], progress := .sent },
          [.respond (failure cause.gatewayStatus)])
  | unconnectedAlone {cause : ProxyError} (waiting : session.state = .connecting)
      (gone : session.clientTerminated = true) :
      Moves cache session (.connectError cause)
        (abortClient { session with state := .originError, pendingBody := [] })
  | bodyHeld {chunk : Bytes} (present : session.clientTerminated = false)
      (waiting : session.state = .connecting) :
      Moves cache session (.clientBody chunk)
        ({ session with pendingBody := session.pendingBody ++ [chunk] }, [])
  | bodyForwarded {chunk : Bytes} (present : session.clientTerminated = false)
      (notWaiting : session.state ≠ .connecting) (attached : session.originAttached = true)
      (undone : session.originDone = false) :
      Moves cache session (.clientBody chunk) (session, [.forwardBody chunk])
  | eomHeld (present : session.clientTerminated = false)
      (waiting : session.state = .connecting) :
      Moves cache session .clientEom ({ session with pendingEom := true }, [])
  | eomForwarded (present : session.clientTerminated = false)
      (notWaiting : session.state ≠ .connecting) (attached : session.originAttached = true)
      (undone : session.originDone = false) :
      Moves cache session .clientEom (session, [.forwardEom])
  | completed (present : session.clientTerminated = false)
      (attached : session.originAttached = true) :
      Moves cache session .clientComplete ({ session with clientTerminated := true }, [])
  | completedLast (present : session.clientTerminated = false)
      (detached : session.originAttached = false) :
      Moves cache session .clientComplete
        ({ session with clientTerminated := true, state := .terminal, released := true },
          [.release])
  | left (present : session.clientTerminated = false)
      (attached : session.originAttached = true) :
      Moves cache session .clientError
        ({ session with
            clientTerminated := true, state := .clientAborted
            responseBody := none, pendingBody := [] },
          [.abortOrigin])
  | leftLast (present : session.clientTerminated = false)
      (detached : session.originAttached = false) :
      Moves cache session .clientError
        ({ session with
            clientTerminated := true, state := .terminal, released := true
            responseBody := none, pendingBody := [] },
          [.release])
  | headersKept {head : ResponseHead} (attached : session.originAttached = true)
      (undone : session.originDone = false) (get : session.method = "GET") :
      Moves cache session (.originHeaders head)
        ({ session with
            state := .streaming
            responseHead := some { head with headers := head.headers.stripResponse }
            responseBody := some [] },
          [])
  | headersUnseen {head : ResponseHead} (attached : session.originAttached = true)
      (undone : session.originDone = false) (other : session.method ≠ "GET")
      (gone : session.clientTerminated = true) :
      Moves cache session (.originHeaders head) ({ session with state := .streaming }, [])
  | headersSent {head : ResponseHead} (attached : session.originAttached = true)
      (undone : session.originDone = false) (other : session.method ≠ "GET")
      (present : session.clientTerminated = false) :
      Moves cache session (.originHeaders head)
        ({ session with state := .streaming, progress := .streaming },
          [.sendHeaders { head with headers := head.headers.stripResponse }])
  | bodyKept {chunk body : Bytes} (running : session.state = .streaming)
      (kept : session.responseBody = some body) :
      Moves cache session (.originBody chunk)
        ({ session with responseBody := some (body ++ chunk) }, [])
  | bodySent {chunk : Bytes} (running : session.state = .streaming)
      (unkept : session.responseBody = none) (begun : session.progress = .streaming)
      (present : session.clientTerminated = false) :
      Moves cache session (.originBody chunk) (session, [.sendBody chunk])
  | endUnseen (running : session.state = .streaming)
      (gone : session.clientTerminated = true) :
      Moves cache session .originEom
        ({ session with state := .originComplete, originDone := true }, [])
  | endSent (running : session.state = .streaming)
      (present : session.clientTerminated = false) (begun : session.progress = .streaming) :
      Moves cache session .originEom
        ({ session with state := .originComplete, originDone := true, progress := .sent },
          [.sendEom])
  | endAnswered {head : ResponseHead} {body : Bytes} (running : session.state = .streaming)
      (present : session.clientTerminated = false) (unbegun : session.progress ≠ .streaming)
      (keptHead : session.responseHead = some head) (kept : session.responseBody = some body) :
      Moves cache session .originEom
        ({ session with
            state := .originComplete, originDone := true
            responseHead := none, responseBody := none, progress := .sent },
          [.respond ⟨{ head with headers := head.headers.erase "content-length" }, body⟩])
  /-- Nothing was assembled. -/
  | endMissing (running : session.state = .streaming)
      (present : session.clientTerminated = false) (unbegun : session.progress ≠ .streaming)
      (unkept : session.responseHead = none ∨ session.responseBody = none) :
      Moves cache session .originEom
        ({ session with
            state := .originError, originDone := true
            responseHead := none, responseBody := none, progress := .sent },
          [.respond (failure 502)])
  | failedUnseen {cause : ProxyError} (undone : session.originDone = false)
      (attached : session.originAttached = true) (gone : session.clientTerminated = true) :
      Moves cache session (.originError cause)
        ({ session with
            state := .originError, originDone := true
            responseHead := none, responseBody := none },
          [])
  | failedUnanswered {cause : ProxyError} (undone : session.originDone = false)
      (attached : session.originAttached = true) (present : session.clientTerminated = false)
      (unbegun : session.progress = .none) :
      Moves cache session (.originError cause)
        ({ session with
            state := .originError, originDone := true
            responseHead := none, responseBody := none, progress := .sent },
          [.respond (failure cause.gatewayStatus)])
  | failedBegun {cause : ProxyError} (undone : session.originDone = false)
      (attached : session.originAttached = true) (present : session.clientTerminated = false)
      (begun : session.progress ≠ .none) :
      Moves cache session (.originError cause)
        ({ session with
            state := .originError, originDone := true
            responseHead := none, responseBody := none, clientTerminated := true },
          [.abortClient])
  | detachedLast (attached : session.originAttached = true)
      (gone : session.clientTerminated = true) :
      Moves cache session .originDetached
        ({ session with originAttached := false, state := .terminal, released := true },
          [.release])
  | detachedDone (attached : session.originAttached = true)
      (present : session.clientTerminated = false) (done : session.originDone = true) :
      Moves cache session .originDetached ({ session with originAttached := false }, [])
  | detachedUnanswered (attached : session.originAttached = true)
      (present : session.clientTerminated = false) (undone : session.originDone = false)
      (unbegun : session.progress = .none) :
      Moves cache session .originDetached
        ({ session with
            originAttached := false, originDone := true, state := .originError
            responseHead := none, responseBody := none, progress := .sent },
          [.respond (failure 502)])
  | detachedBegun (attached : session.originAttached = true)
      (present : session.clientTerminated = false) (undone : session.originDone = false)
      (begun : session.progress ≠ .none) :
      Moves cache session .originDetached
        ({ session with
            originAttached := false, originDone := true, state := .terminal
            responseHead := none, responseBody := none
            clientTerminated := true, released := true },
          [.abortClient, .release])
  | paused (present : session.clientTerminated = false)
      (attached : session.originAttached = true) (undone : session.originDone = false) :
      Moves cache session .egressPaused (session, [.pauseIngress])
  | resumed (present : session.clientTerminated = false)
      (attached : session.originAttached = true) (undone : session.originDone = false) :
      Moves cache session .egressResumed (session, [.resumeIngress])

/-! ## Every step follows a rule -/

section Rules

variable (cache : ContentCache) (session : Session)

theorem step_of_ignores (event : Event) (unused : session.ignores event = true) :
    session.step cache event = (cache, session, []) := by
  cases event with
  | request head => exact if_pos unused
  | connectSuccess =>
      simp only [ignores, Bool.or_eq_true] at unused
      rw [step, onConnectSuccess]
      rcases unused with unused | unasked
      · rw [if_pos (by simpa using unused)]
      · rw [Option.isNone_iff_eq_none] at unasked
        simp only [unasked, ite_self]
  | connectError cause => exact congrArg (Prod.mk cache) (if_pos unused)
  | clientBody chunk =>
      simp only [ignores, Bool.or_eq_true, Bool.and_eq_true] at unused
      rw [step, onClientBody]
      rcases unused with unused | ⟨notWaiting, shut⟩
      · rw [if_pos (by simpa using unused)]
      · rw [Bool.not_eq_true'] at shut
        simp [bne_iff_ne.mp notWaiting, shut]
  | clientEom =>
      simp only [ignores, Bool.or_eq_true, Bool.and_eq_true] at unused
      rw [step, onClientEom]
      rcases unused with unused | ⟨notWaiting, shut⟩
      · rw [if_pos (by simpa using unused)]
      · rw [Bool.not_eq_true'] at shut
        simp [bne_iff_ne.mp notWaiting, shut]
  | clientComplete => exact congrArg (Prod.mk cache) (if_pos unused)
  | clientError => exact congrArg (Prod.mk cache) (if_pos unused)
  | originHeaders head => exact congrArg (Prod.mk cache) (if_pos unused)
  | originBody chunk =>
      simp only [ignores, Bool.or_eq_true, Bool.and_eq_true] at unused
      rw [step, onOriginBody]
      rcases unused with unused | ⟨unkept, unsent⟩
      · rw [if_pos (by simpa using unused)]
      · rw [Option.isNone_iff_eq_none] at unkept
        have notSending :
            ¬ (session.progress = .streaming && !session.clientTerminated) = true := by
          rcases unsent with unbegun | gone
          · simp [bne_iff_ne.mp unbegun]
          · simp [gone]
        simp only [unkept, if_neg notSending, ite_self]
  | originEom => exact if_pos unused
  | originError cause => exact congrArg (Prod.mk cache) (if_pos unused)
  | originDetached => exact congrArg (Prod.mk cache) (if_pos unused)
  | egressPaused => exact congrArg (Prod.mk cache) (if_pos unused)
  | egressResumed => exact congrArg (Prod.mk cache) (if_pos unused)

theorem forward_moves (head : RequestHead) (start : session.state = .new)
    (missed : head.method = "GET" → (cache.get session.domain head.path).1 = none)
    (current : Session)
    (same : current.forward head =
      forward { session with method := head.method, path := head.path } head) :
    Moves cache session (.request head) (current.forward head) := by
  rw [same, forward]
  split
  · rename_i nowhere
    exact .unserved start missed nowhere
  · rename_i origin known
    exact .asked start missed known

theorem onRequest_moves (head : RequestHead)
    (used : session.ignores (.request head) = false) :
    Moves cache session (.request head) (session.onRequest cache head).2 := by
  obtain ⟨alive, start⟩ : session.released = false ∧ session.state = .new := by
    simpa [ignores] using used
  rw [onRequest, if_neg (by simp [alive, start])]
  by_cases get : head.method = "GET"
  · simp only [if_pos get]
    split
    · rename_i route _ answer
      exact .hit start get (by rw [answer])
    · rename_i answer
      exact forward_moves cache session head start (fun _ => by rw [answer]) _ rfl
  · simp only [if_neg get]
    exact forward_moves cache session head start (fun got => absurd got get) _ rfl

theorem onConnectSuccess_moves (used : session.ignores .connectSuccess = false) :
    Moves cache session .connectSuccess session.onConnectSuccess := by
  obtain ⟨⟨alive, waiting⟩, asked⟩ :
      (session.released = false ∧ session.state = .connecting) ∧
        session.request.isSome = true := by
    simpa [ignores] using used
  obtain ⟨request, held⟩ := Option.isSome_iff_exists.mp asked
  rw [onConnectSuccess, if_neg (by simp [alive, waiting]), held]
  exact .connected waiting held

theorem onConnectError_moves (cause : ProxyError)
    (used : session.ignores (.connectError cause) = false) :
    Moves cache session (.connectError cause) (session.onConnectError cause) := by
  obtain ⟨alive, waiting⟩ : session.released = false ∧ session.state = .connecting := by
    simpa [ignores] using used
  rw [onConnectError, if_neg (by simp [alive, waiting])]
  by_cases gone : session.clientTerminated = true
  · simp only [if_pos gone]
    exact .unconnectedAlone waiting gone
  · simp only [if_neg gone]
    exact .unconnected waiting (by simpa using gone)

theorem onClientBody_moves (chunk : Bytes)
    (used : session.ignores (.clientBody chunk) = false) :
    Moves cache session (.clientBody chunk) (session.onClientBody chunk) := by
  obtain ⟨⟨alive, present⟩, room⟩ :
      (session.released = false ∧ session.clientTerminated = false) ∧
        (session.state = .connecting ∨ session.originOpen = true) := by
    simpa [ignores, or_iff_not_imp_left] using used
  rw [onClientBody, if_neg (by simp [alive, present])]
  by_cases waiting : session.state = .connecting
  · rw [if_pos waiting]
    exact .bodyHeld present waiting
  · have isOpen := room.resolve_left waiting
    obtain ⟨attached, undone⟩ := session.originOpen_iff.mp isOpen
    rw [if_neg waiting, if_pos isOpen]
    exact .bodyForwarded present waiting attached undone

theorem onClientEom_moves (used : session.ignores .clientEom = false) :
    Moves cache session .clientEom session.onClientEom := by
  obtain ⟨⟨alive, present⟩, room⟩ :
      (session.released = false ∧ session.clientTerminated = false) ∧
        (session.state = .connecting ∨ session.originOpen = true) := by
    simpa [ignores, or_iff_not_imp_left] using used
  rw [onClientEom, if_neg (by simp [alive, present])]
  by_cases waiting : session.state = .connecting
  · rw [if_pos waiting]
    exact .eomHeld present waiting
  · have isOpen := room.resolve_left waiting
    obtain ⟨attached, undone⟩ := session.originOpen_iff.mp isOpen
    rw [if_neg waiting, if_pos isOpen]
    exact .eomForwarded present waiting attached undone

theorem onClientComplete_moves (used : session.ignores .clientComplete = false) :
    Moves cache session .clientComplete session.onClientComplete := by
  obtain ⟨alive, present⟩ :
      session.released = false ∧ session.clientTerminated = false := by
    simpa [ignores] using used
  rw [onClientComplete, if_neg (by simp [alive, present])]
  by_cases attached : session.originAttached = true
  · have rule : Moves cache session .clientComplete _ := .completed present attached
    simpa [releaseIfDone, alive, attached] using rule
  · rw [Bool.not_eq_true] at attached
    have rule : Moves cache session .clientComplete _ := .completedLast present attached
    simpa [releaseIfDone, alive, attached] using rule

theorem onClientError_moves (used : session.ignores .clientError = false) :
    Moves cache session .clientError session.onClientError := by
  obtain ⟨alive, present⟩ :
      session.released = false ∧ session.clientTerminated = false := by
    simpa [ignores] using used
  rw [onClientError, if_neg (by simp [alive, present])]
  by_cases attached : session.originAttached = true
  · have rule : Moves cache session .clientError _ := .left present attached
    simpa [releaseIfDone, alive, attached] using rule
  · rw [Bool.not_eq_true] at attached
    have rule : Moves cache session .clientError _ := .leftLast present attached
    simpa [releaseIfDone, alive, attached] using rule

theorem onOriginHeaders_moves (head : ResponseHead)
    (used : session.ignores (.originHeaders head) = false) :
    Moves cache session (.originHeaders head) (session.onOriginHeaders head) := by
  obtain ⟨alive, isOpen⟩ : session.released = false ∧ session.originOpen = true := by
    simpa [ignores] using used
  obtain ⟨attached, undone⟩ := session.originOpen_iff.mp isOpen
  rw [onOriginHeaders, if_neg (by simp [alive, isOpen])]
  by_cases get : session.method = "GET"
  · simp only [if_pos get]
    exact .headersKept attached undone get
  · simp only [if_neg get]
    by_cases gone : session.clientTerminated = true
    · rw [if_pos gone]
      exact .headersUnseen attached undone get gone
    · rw [if_neg gone]
      exact .headersSent attached undone get (by simpa using gone)

theorem onOriginBody_moves (chunk : Bytes)
    (used : session.ignores (.originBody chunk) = false) :
    Moves cache session (.originBody chunk) (session.onOriginBody chunk) := by
  obtain ⟨⟨alive, running⟩, wanted⟩ :
      (session.released = false ∧ session.state = .streaming) ∧
        (session.responseBody = none →
          session.progress = .streaming ∧ session.clientTerminated = false) := by
    simpa [ignores] using used
  rw [onOriginBody, if_neg (by simp [alive, running])]
  split
  · rename_i body kept
    exact .bodyKept running kept
  · rename_i unkept
    obtain ⟨begun, present⟩ := wanted unkept
    rw [if_pos (by simp [begun, present])]
    exact .bodySent running unkept begun present

theorem onOriginEom_moves (used : session.ignores .originEom = false) :
    Moves cache session .originEom (session.onOriginEom cache).2 := by
  obtain ⟨alive, running⟩ : session.released = false ∧ session.state = .streaming := by
    simpa [ignores] using used
  rw [onOriginEom, if_neg (by simp [alive, running])]
  by_cases gone : session.clientTerminated = true
  · simp only [if_pos gone]
    exact .endUnseen running gone
  have present : session.clientTerminated = false := by simpa using gone
  simp only [if_neg gone]
  by_cases begun : session.progress = .streaming
  · simp only [if_pos begun]
    exact .endSent running present begun
  simp only [if_neg begun]
  split
  · rename_i head body keptHead kept
    exact .endAnswered running present begun keptHead kept
  · rename_i unkept
    refine .endMissing running present begun ?_
    by_contra kept
    rw [not_or, ← ne_eq, ← ne_eq, Option.ne_none_iff_exists',
      Option.ne_none_iff_exists'] at kept
    obtain ⟨⟨head, keptHead⟩, body, kept⟩ := kept
    exact unkept head body keptHead kept

theorem failOrigin_of_begun (status : Status) (begun : session.progress ≠ .none) :
    session.failOrigin status = session.abortClient := by
  rw [failOrigin]
  split
  · rename_i unbegun
    exact absurd unbegun begun
  · rfl

theorem onOriginError_moves (cause : ProxyError)
    (used : session.ignores (.originError cause) = false) :
    Moves cache session (.originError cause) (session.onOriginError cause) := by
  obtain ⟨⟨alive, undone⟩, attached⟩ :
      (session.released = false ∧ session.originDone = false) ∧
        session.originAttached = true := by
    simpa [ignores] using used
  rw [onOriginError, if_neg (by simp [alive, undone, attached])]
  by_cases gone : session.clientTerminated = true
  · simp only [if_pos gone]
    exact .failedUnseen undone attached gone
  have present : session.clientTerminated = false := by simpa using gone
  by_cases unbegun : session.progress = .none
  · have rule : Moves cache session (.originError cause) _ :=
      .failedUnanswered undone attached present unbegun
    simpa [present, failOrigin, unbegun, failBeforeResponse] using rule
  · have rule : Moves cache session (.originError cause) _ :=
      .failedBegun undone attached present unbegun
    simpa [present, failOrigin_of_begun, unbegun, abortClient, originOpen, releaseIfDone,
      attached] using rule

theorem onOriginDetached_moves (used : session.ignores .originDetached = false) :
    Moves cache session .originDetached session.onOriginDetached := by
  obtain ⟨alive, attached⟩ : session.released = false ∧ session.originAttached = true := by
    simpa [ignores] using used
  rw [onOriginDetached, if_neg (by simp [alive, attached])]
  by_cases gone : session.clientTerminated = true
  · have rule : Moves cache session .originDetached _ := .detachedLast attached gone
    simpa [gone, releaseIfDone, alive] using rule
  have present : session.clientTerminated = false := by simpa using gone
  by_cases done : session.originDone = true
  · have rule : Moves cache session .originDetached _ := .detachedDone attached present done
    simpa [present, done, releaseIfDone] using rule
  have undone : session.originDone = false := by simpa using done
  by_cases unbegun : session.progress = .none
  · have rule : Moves cache session .originDetached _ :=
      .detachedUnanswered attached present undone unbegun
    simpa [present, undone, failOrigin, unbegun, failBeforeResponse, releaseIfDone] using rule
  · have rule : Moves cache session .originDetached _ :=
      .detachedBegun attached present undone unbegun
    simpa [present, undone, failOrigin_of_begun, unbegun, abortClient, originOpen,
      releaseIfDone, alive] using rule

theorem onEgressPaused_moves (used : session.ignores .egressPaused = false) :
    Moves cache session .egressPaused session.onEgressPaused := by
  obtain ⟨⟨alive, present⟩, isOpen⟩ :
      (session.released = false ∧ session.clientTerminated = false) ∧
        session.originOpen = true := by
    simpa [ignores] using used
  obtain ⟨attached, undone⟩ := session.originOpen_iff.mp isOpen
  rw [onEgressPaused, if_neg (by simp [alive, present, isOpen])]
  exact .paused present attached undone

theorem onEgressResumed_moves (used : session.ignores .egressResumed = false) :
    Moves cache session .egressResumed session.onEgressResumed := by
  obtain ⟨⟨alive, present⟩, isOpen⟩ :
      (session.released = false ∧ session.clientTerminated = false) ∧
        session.originOpen = true := by
    simpa [ignores] using used
  obtain ⟨attached, undone⟩ := session.originOpen_iff.mp isOpen
  rw [onEgressResumed, if_neg (by simp [alive, present, isOpen])]
  exact .resumed present attached undone

theorem released_of_used (event : Event) (used : session.ignores event = false) :
    session.released = false := by
  cases released : session.released with
  | false => rfl
  | true => cases event <;> simp [ignores, released] at used

theorem step_moves (event : Event) (used : session.ignores event = false) :
    Moves cache session event (session.step cache event).2 := by
  cases event with
  | request head => exact onRequest_moves cache session head used
  | connectSuccess => exact onConnectSuccess_moves cache session used
  | connectError cause => exact onConnectError_moves cache session cause used
  | clientBody chunk => exact onClientBody_moves cache session chunk used
  | clientEom => exact onClientEom_moves cache session used
  | clientComplete => exact onClientComplete_moves cache session used
  | clientError => exact onClientError_moves cache session used
  | originHeaders head => exact onOriginHeaders_moves cache session head used
  | originBody chunk => exact onOriginBody_moves cache session chunk used
  | originEom => exact onOriginEom_moves cache session used
  | originError cause => exact onOriginError_moves cache session cause used
  | originDetached => exact onOriginDetached_moves cache session used
  | egressPaused => exact onEgressPaused_moves cache session used
  | egressResumed => exact onEgressResumed_moves cache session used

/-- A turn is ignored, or the session is not released and follows a rule. -/
theorem take_cases (turn : Turn) :
    (session.ignores turn.event = true ∧ session.take turn = (session, [])) ∨
      (session.ignores turn.event = false ∧ session.released = false ∧
        Moves turn.cache session turn.event (session.take turn)) := by
  by_cases unused : session.ignores turn.event = true
  · left
    refine ⟨unused, ?_⟩
    rw [take, step_of_ignores turn.cache session turn.event unused]
  · right
    rw [Bool.not_eq_true] at unused
    exact ⟨unused, released_of_used session turn.event unused,
      step_moves turn.cache session turn.event unused⟩

end Rules

/-! ## A rule is a step -/

section Exact

variable {cache : ContentCache} {session : Session} {event : Event}
  {result : Session × List Action}

theorem onRequest_of_missed {head : RequestHead} (alive : session.released = false)
    (start : session.state = .new)
    (missed : head.method = "GET" → (cache.get session.domain head.path).1 = none) :
    (session.onRequest cache head).2 =
      forward { session with method := head.method, path := head.path } head := by
  rw [onRequest, if_neg (by simp [alive, start])]
  by_cases get : head.method = "GET"
  · simp only [if_pos get]
    split
    · rename_i answer
      have absent := missed get
      rw [answer] at absent
      cases absent
    · rfl
  · simp only [if_neg get]

theorem onRequest_of_found {head : RequestHead} {route : Route}
    (alive : session.released = false) (start : session.state = .new)
    (get : head.method = "GET") (found : (cache.get session.domain head.path).1 = some route) :
    (session.onRequest cache head).2 =
      ({ session with
          method := head.method, path := head.path
          state := .cacheHitRespond, progress := .sent },
        [.respond (hitResponse session.transform route)]) := by
  rw [onRequest, if_neg (by simp [alive, start])]
  simp only [if_pos get]
  split
  · rename_i other _ answer
    rw [answer] at found
    rw [Option.some.inj found]
  · rename_i answer
    rw [answer] at found
    cases found

theorem Moves.eq_step (rule : Moves cache session event result)
    (alive : session.released = false) : (session.step cache event).2 = result := by
  cases rule with
  | hit start get found => exact onRequest_of_found alive start get found
  | unserved start missed nowhere =>
      rw [step, onRequest_of_missed alive start missed]
      simp only [forward, nowhere, failBeforeResponse]
  | asked start missed known =>
      rw [step, onRequest_of_missed alive start missed]
      simp only [forward, known]
  | connected waiting held => simp [step, onConnectSuccess, alive, waiting, held]
  | unconnected waiting present =>
      simp [step, onConnectError, alive, waiting, present, failBeforeResponse]
  | unconnectedAlone waiting gone => simp [step, onConnectError, alive, waiting, gone]
  | bodyHeld present waiting => simp [step, onClientBody, alive, present, waiting]
  | bodyForwarded present notWaiting attached undone =>
      simp [step, onClientBody, alive, present, notWaiting, originOpen, attached, undone]
  | eomHeld present waiting => simp [step, onClientEom, alive, present, waiting]
  | eomForwarded present notWaiting attached undone =>
      simp [step, onClientEom, alive, present, notWaiting, originOpen, attached, undone]
  | completed present attached =>
      simp [step, onClientComplete, alive, present, attached, releaseIfDone]
  | completedLast present detached =>
      simp [step, onClientComplete, alive, present, detached, releaseIfDone]
  | left present attached => simp [step, onClientError, alive, present, attached, releaseIfDone]
  | leftLast present detached =>
      simp [step, onClientError, alive, present, detached, releaseIfDone]
  | headersKept attached undone get =>
      simp [step, onOriginHeaders, alive, originOpen, attached, undone, get]
  | headersUnseen attached undone other gone =>
      simp [step, onOriginHeaders, alive, originOpen, attached, undone, other, gone]
  | headersSent attached undone other present =>
      simp [step, onOriginHeaders, alive, originOpen, attached, undone, other, present]
  | bodyKept running kept => simp [step, onOriginBody, alive, running, kept]
  | bodySent running unkept begun present =>
      simp [step, onOriginBody, alive, running, unkept, begun, present]
  | endUnseen running gone => simp [step, onOriginEom, alive, running, gone]
  | endSent running present begun => simp [step, onOriginEom, alive, running, present, begun]
  | endAnswered running present unbegun keptHead kept =>
      simp [step, onOriginEom, alive, running, present, unbegun, keptHead, kept]
  | endMissing running present unbegun unkept =>
      rcases unkept with unkept | unkept <;>
        simp [step, onOriginEom, alive, running, present, unbegun, unkept, failBeforeResponse]
  | failedUnseen undone attached gone => simp [step, onOriginError, alive, undone, attached, gone]
  | failedUnanswered undone attached present unbegun =>
      simp [step, onOriginError, alive, undone, attached, present, failOrigin, unbegun,
        failBeforeResponse]
  | failedBegun undone attached present begun =>
      simp [step, onOriginError, alive, undone, attached, present, failOrigin_of_begun, begun,
        abortClient, originOpen, releaseIfDone]
  | detachedLast attached gone => simp [step, onOriginDetached, alive, attached, gone, releaseIfDone]
  | detachedDone attached present done =>
      simp [step, onOriginDetached, alive, attached, present, done, releaseIfDone]
  | detachedUnanswered attached present undone unbegun =>
      simp [step, onOriginDetached, alive, attached, present, undone, failOrigin, unbegun,
        failBeforeResponse, releaseIfDone]
  | detachedBegun attached present undone begun =>
      simp [step, onOriginDetached, alive, attached, present, undone, failOrigin_of_begun, begun,
        abortClient, originOpen, releaseIfDone]
  | paused present attached undone =>
      simp [step, onEgressPaused, alive, present, originOpen, attached, undone]
  | resumed present attached undone =>
      simp [step, onEgressResumed, alive, present, originOpen, attached, undone]

end Exact

end CachingProxy.Session
