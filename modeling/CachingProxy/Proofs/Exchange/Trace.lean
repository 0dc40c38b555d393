import CachingProxy.Proofs.Exchange.Moves
import CachingProxy.Proofs.Exchange.Streams
import CachingProxy.Proofs.Session.ClientProtocol
import CachingProxy.Proofs.Session.OriginProtocol

/-!
# What the session of an exchange is told

An exchange performs what its session says, in order and without a rest (`Reached.traced`), so what
is proved of all runs of a session holds of it.  The events that it tells are orderly: the client's
body says nothing behind its end, and the origin begins its answer once.
-/

set_option autoImplicit false

namespace CachingProxy.Exchange

open Session (Action Turn EomLast InTurn)

/-! ## The actions of the session -/

def Observation.action? : Observation → Option Action
  | .performed action => some action
  | .uploaded _ | .downloaded _ | .delivered _ => none

def actionsOf (seen : List Observation) : List Action := seen.filterMap Observation.action?

theorem actionsOf_append (first second : List Observation) :
    actionsOf (first ++ second) = actionsOf first ++ actionsOf second := List.filterMap_append

theorem actionsOf_concat (seen : List Observation) (action : Action) :
    actionsOf (seen ++ [.performed action]) = actionsOf seen ++ [action] := actionsOf_append _ _

theorem mem_actionsOf {seen : List Observation} {action : Action} :
    action ∈ actionsOf seen ↔ .performed action ∈ seen := by
  rw [actionsOf, List.mem_filterMap]
  constructor
  · rintro ⟨observation, member, performs⟩
    cases observation with
    | performed other =>
        rw [Observation.action?, Option.some.injEq] at performs
        rwa [← performs]
    | uploaded | downloaded | delivered => cases performs
  · exact fun member => ⟨_, member, rfl⟩

theorem actionsOf_silent (seen : List Observation) {observation : Observation}
    (silent : observation.action? = none) : actionsOf (seen ++ [observation]) = actionsOf seen := by
  have nothing : actionsOf [observation] = [] := List.filterMap_cons_none silent
  rw [actionsOf_append, nothing, List.append_nil]

theorem mem_actionsOf_append {seen more : List Observation} {action : Action}
    (member : action ∈ actionsOf seen) : action ∈ actionsOf (seen ++ more) := by
  rw [actionsOf_append]
  exact List.mem_append_left _ member

theorem last_performed (seen : List Observation) (action : Action) :
    action ∈ actionsOf (seen ++ [.performed action]) := by
  rw [actionsOf_concat]
  exact List.mem_append_right _ (List.mem_singleton_self _)

/-- The chunks that actions of one kind carry. -/
def handed (chunk? : Action → Option Bytes) (seen : List Observation) : List Bytes :=
  (actionsOf seen).filterMap chunk?

/-- The chunks in the frames that one of the connections has read. -/
def gained (frame? : Observation → Option Body.Frame) (seen : List Observation) : List Bytes :=
  (seen.filterMap frame?).flatMap Body.Frame.chunks

section

variable {chunk? : Action → Option Bytes} {frame? : Observation → Option Body.Frame}

theorem handed_append (first second : List Observation) :
    handed chunk? (first ++ second) = handed chunk? first ++ handed chunk? second := by
  rw [handed, actionsOf_append, List.filterMap_append, handed, handed]

theorem gained_append (first second : List Observation) :
    gained frame? (first ++ second) = gained frame? first ++ gained frame? second := by
  rw [gained, List.filterMap_append, List.flatMap_append, gained, gained]

theorem handed_concat (seen : List Observation) {observation : Observation}
    (idle : observation.action?.bind chunk? = none) :
    handed chunk? (seen ++ [observation]) = handed chunk? seen := by
  have nothing : handed chunk? [observation] = [] := by
    rw [handed, actionsOf, List.filterMap_filterMap]
    exact List.filterMap_cons_none idle
  rw [handed_append, nothing, List.append_nil]

theorem gained_concat (seen : List Observation) {observation : Observation} {frame : Body.Frame}
    (reads : frame? observation = some frame) :
    gained frame? (seen ++ [observation]) = gained frame? seen ++ frame.chunks := by
  have now : gained frame? [observation] = frame.chunks := by
    rw [gained, List.filterMap_cons_some reads, List.filterMap_nil, List.flatMap_singleton]
  rw [gained_append, now]

theorem gained_performed (silent : ∀ action, frame? (.performed action) = none)
    (seen : List Observation) (action : Action) :
    gained frame? (seen ++ [.performed action]) = gained frame? seen := by
  rw [gained_append, gained, gained, List.filterMap_cons_none (silent action)]
  exact List.append_nil _

theorem handed_eq_nil {seen : List Observation}
    (others : ∀ action ∈ actionsOf seen, chunk? action = none) : handed chunk? seen = [] :=
  List.filterMap_eq_nil_iff.mpr others

theorem gained_eq_nil {seen : List Observation}
    (others : ∀ observation ∈ seen, frame? observation = none) : gained frame? seen = [] := by
  rw [gained, List.filterMap_eq_nil_iff.mpr others, List.flatMap_nil]

end

theorem actionsOf_shown (x : Exchange) (event : Event) : actionsOf (x.shown event) = [] := by
  cases event with
  | dropDownload =>
      rw [shown]
      split
      · rfl
      · rename_i body _
        cases body.drop.1 <;> rfl
  | _ => rfl

theorem drainUpload_session (x : Exchange) : x.drainUpload.session = x.session := by
  rw [drainUpload]
  split
  · dsimp only
    split
    · exact closeUpload_session _
    · split
      · exact closeUpload_session _
      · rfl
  · rfl

theorem onDownloadReady_session (x : Exchange) : x.onDownloadReady.session = x.session := by
  rw [onDownloadReady]
  split
  · dsimp only
    split
    · exact closeDownload_session _
    · split
      · exact closeDownload_session _
      · rfl
  · rfl

theorem arrive_session (x : Exchange) (event : Event) : (x.arrive event).1.session = x.session := by
  cases event with
  | clientFrame frame => cases frame <;> rfl
  | connected result => cases result <;> rfl
  | originReceived =>
      rw [arrive]
      split
      · rfl
      · exact closeUpload_session x
  | uploadReady => exact drainUpload_session x
  | downloadReady => exact onDownloadReady_session x
  | deliveryReported =>
      rw [arrive]
      split <;> rfl
  | dropDownload =>
      rw [arrive]
      split <;> rfl
  | _ => rfl

section

variable {cache : ContentCache} {session : Session} {bodyDone : Bool} {head : RequestHead}
  {c : Course}

/-- What was performed, and what is still to be, is all that the session has said. -/
theorem Reached.traced (reached : Reached cache session bodyDone head c) :
    session.play c.told = (c.exchange.session, actionsOf c.seen ++ c.pending) := by
  have told : ∀ (x : Exchange) (turns : List Turn) (said : Session.Event) (actions : List Action),
      session.play turns = (x.session, actions) →
      session.play (turns ++ [⟨x.cache, said⟩]) =
        ((x.tell said).1.session, actions ++ (x.tell said).2) := by
    intro x turns said actions sofar
    rw [Session.play_append, sofar, tell_plays]
  induction reached with
  | asked => exact told (new cache session bodyDone head) [] _ [] rfl
  | bodiless _ _ _ ih => exact told _ _ _ _ (by simpa using ih)
  | @silent x happened turns seen _ event _ _ ih =>
      rw [actionsOf_append, actionsOf_shown, List.append_nil, arrive_session]
      exact ih
  | @telling x happened turns seen _ event said _ _ ih =>
      rw [actionsOf_append, actionsOf_shown, List.append_nil]
      refine told _ turns said _ ?_
      rw [arrive_session]
      simpa using ih
  | performing _ _ plays ih =>
      rw [Session.play_append, ih, plays, actionsOf_append]
      simp [actionsOf, Observation.action?]
  | disposing _ _ ih =>
      rw [dispose_session]
      exact ih

end

/-! ## The client's body -/

theorem perform_clientOpen (x : Exchange) (action : Action) :
    (x.perform action).1.clientOpen = x.clientOpen := by
  cases action <;>
    simp only [perform, sendResponse, sendBody, sendEom, startOrigin, openUpload, refuseTarget,
      tell, forwardBody, forwardEom, abortOrigin, closeUpload, closeDownload, abortDownload] <;>
    (repeat' split) <;> rfl

theorem dispose_clientOpen (x : Exchange) : x.dispose.clientOpen = x.clientOpen := by
  simp only [dispose, abortOrigin, closeUpload, closeDownload]
  repeat' split
  all_goals rfl

theorem arrive_closed {x : Exchange} (closed : x.clientOpen = false) (event : Event) :
    (x.arrive event).1.clientOpen = false := by
  cases event with
  | clientFrame frame => cases frame <;> first | exact closed | rfl
  | connected result => cases result <;> exact closed
  | originReceived =>
      simp only [arrive, closeUpload]
      repeat' split
      all_goals exact closed
  | uploadReady =>
      simp only [arrive, drainUpload, closeUpload]
      repeat' split
      all_goals exact closed
  | downloadReady =>
      simp only [arrive, onDownloadReady, closeDownload]
      repeat' split
      all_goals exact closed
  | deliveryReported | dropDownload =>
      simp only [arrive]
      split <;> exact closed
  | _ => exact closed

theorem arrive_clientBody {x : Exchange} {event : Event} {said : Session.Event}
    (enabled : x.enabled event = true) (tells : (x.arrive event).2 = some said)
    (body : said.ofClientBody = true) :
    x.clientOpen = true ∧ (said = .clientEom →
      event = .clientFrame .ended ∧ (x.arrive event).1.clientOpen = false) := by
  have reads : ∀ frame, x.enabled (.clientFrame frame) = true → x.clientOpen = true := by
    intro frame enabled
    simp only [Exchange.enabled, readsClient, Bool.and_eq_true] at enabled
    exact enabled.2
  cases event with
  | clientFrame frame =>
      refine ⟨reads frame enabled, ?_⟩
      rintro rfl
      cases frame with
      | ended => exact ⟨rfl, rfl⟩
      | data chunk =>
          rw [arrive] at tells
          dsimp only at tells
          split at tells <;> cases tells
      | other | failed => cases tells
  | connected result => cases result <;> cases tells <;> cases body
  | originReceived =>
      rw [arrive] at tells
      split at tells
      · rename_i event _ _
        cases event <;> cases tells <;> cases body
      · cases tells
        cases body
  | uploadReady =>
      rw [arrive] at tells
      dsimp only at tells
      split at tells <;> cases tells
      cases body
  | deliveryReported =>
      rw [arrive] at tells
      split at tells <;> cases tells <;> cases body
  | dropDownload =>
      rw [arrive] at tells
      split at tells <;> cases tells
  | replyClosed =>
      cases tells
      cases body
  | _ => cases tells

theorem ofClientBody_of_internal {event : Session.Event} (internal : isInternal event = true) :
    event.ofClientBody = false := by
  cases event <;> first | rfl | cases internal

theorem isOriginHeaders_of_internal {event : Session.Event} (internal : isInternal event = true) :
    event.isOriginHeaders = false := by
  cases event <;> first | rfl | cases internal

/-- What the session knows of the client's body. -/
structure ClientSide (bodyDone : Bool) (c : Course) : Prop where
  last : EomLast (c.told.map Turn.event)
  closed : .clientEom ∈ c.told.map Turn.event → c.exchange.clientOpen = false
  ended : .clientEom ∈ c.told.map Turn.event →
    bodyDone = true ∨ .clientFrame .ended ∈ c.happened
  none : bodyDone = true → c.exchange.clientOpen = false

section

variable {cache : ContentCache} {session : Session} {bodyDone : Bool} {head : RequestHead}
  {c : Course}

theorem Reached.clientSide (reached : Reached cache session bodyDone head c) :
    ClientSide bodyDone c := by
  induction reached with
  | asked =>
      refine ⟨?_, by simp, by simp, fun done => ?_⟩
      · intro before after listed
        rcases before with _ | ⟨_, _⟩ <;> simp at listed
      · rw [done]
        rfl
  | bodiless _ nothing untold ih =>
      refine ⟨?_, fun _ => ih.none nothing, fun _ => .inl nothing, ih.none⟩
      rw [List.map_append]
      exact ih.last.concat fun _ => untold
  | @silent x happened told seen _ event _ _ ih =>
      exact ⟨ih.last, fun told => arrive_closed (ih.closed told) event,
        fun told => (ih.ended told).imp_right (List.mem_append_left _),
        fun done => arrive_closed (ih.none done) event⟩
  | @telling x happened told seen _ event said enabled tells ih =>
      have body := arrive_clientBody enabled tells
      have now_or_before : ∀ {cache : ContentCache},
          .clientEom ∈ (told ++ [Turn.mk cache said]).map Turn.event →
          .clientEom ∈ told.map Turn.event ∨ said = .clientEom := by
        intro cache member
        rw [List.map_append, List.mem_append, List.map_singleton, List.mem_singleton] at member
        exact member.imp_right Eq.symm
      refine ⟨?_, fun member => ?_, fun member => ?_,
        fun done => arrive_closed (ih.none done) event⟩
      · rw [List.map_append]
        refine ih.last.concat fun own before => ?_
        exact Bool.false_ne_true ((ih.closed before).symm.trans (body own).1)
      · rcases now_or_before member with earlier | rfl
        · exact arrive_closed (ih.closed earlier) event
        · exact ((body rfl).2 rfl).2
      · rcases now_or_before member with earlier | rfl
        · exact (ih.ended earlier).imp_right (List.mem_append_left _)
        · right
          rw [((body rfl).2 rfl).1]
          simp
  | @performing x happened told turns action rest seen _ internal plays ih =>
      have others : ∀ event ∈ turns.map Turn.event, event.ofClientBody = false := by
        intro event member
        obtain ⟨turn, listed, rfl⟩ := List.mem_map.mp member
        exact ofClientBody_of_internal (internal turn listed)
      have earlier : .clientEom ∈ (told ++ turns).map Turn.event →
          .clientEom ∈ told.map Turn.event := by
        intro member
        rw [List.map_append, List.mem_append] at member
        exact member.resolve_right fun inner => Bool.false_ne_true (others _ inner).symm
      refine ⟨?_, fun member => ?_, fun member => ih.ended (earlier member), fun done => ?_⟩
      · rw [List.map_append]
        exact ih.last.append others
      · rw [perform_clientOpen]
        exact ih.closed (earlier member)
      · rw [perform_clientOpen]
        exact ih.none done
  | @disposing x _ _ _ _ _ ih =>
      have same := dispose_clientOpen x
      exact ⟨ih.last, fun told => same.trans (ih.closed told), ih.ended,
        fun done => same.trans (ih.none done)⟩

end

/-! ## The origin's answer -/

def OriginEvent.isHeaders : OriginEvent → Bool
  | .headers _ => true
  | .body _ | .eom | .error _ => false

theorem OriginEvent.isOriginHeaders_told (event : OriginEvent) :
    event.told.isOriginHeaders = event.isHeaders := by
  cases event <;> rfl

theorem arrive_reader (x : Exchange) (event : Event) :
    (∃ report, event = .originReports report) ∨ event = .originReceived ∨
      ((x.arrive event).1.reader = x.reader ∧
        ∀ said, (x.arrive event).2 = some said → said.isOriginHeaders = false) := by
  cases event with
  | originReports report => exact .inl ⟨report, rfl⟩
  | originReceived => exact .inr (.inl rfl)
  | clientFrame frame =>
      cases frame with
      | data chunk =>
          refine .inr (.inr ⟨rfl, fun said tells => ?_⟩)
          rw [arrive] at tells
          dsimp only at tells
          split at tells <;> cases tells
          rfl
      | _ => exact .inr (.inr ⟨rfl, fun said tells => by cases tells <;> rfl⟩)
  | connected result =>
      cases result <;> exact .inr (.inr ⟨rfl, fun said tells => by cases tells; rfl⟩)
  | uploadReady =>
      refine .inr (.inr ⟨?_, fun said tells => ?_⟩)
      · simp only [arrive, drainUpload, closeUpload]
        repeat' split
        all_goals rfl
      · rw [arrive] at tells
        dsimp only at tells
        split at tells <;> cases tells
        rfl
  | downloadReady =>
      refine .inr (.inr ⟨?_, fun said tells => by cases tells⟩)
      simp only [arrive, onDownloadReady, closeDownload]
      repeat' split
      all_goals rfl
  | deliveryReported =>
      right
      right
      rw [arrive]
      split <;> exact ⟨rfl, fun said tells => by cases tells <;> rfl⟩
  | dropDownload =>
      right
      right
      rw [arrive]
      split <;> exact ⟨rfl, fun said tells => by cases tells⟩
  | _ => exact .inr (.inr ⟨rfl, fun said tells => by cases tells <;> rfl⟩)

theorem perform_reader (x : Exchange) (action : Action) :
    (x.perform action).1.reader = x.reader ∨ (x.perform action).1.reader = {} ∨
      ∃ request, action = .sendOriginRequest request ∧
        (x.perform action).1.reader = { reading := .awaitingHead } := by
  cases action with
  | sendOriginRequest request =>
      simp only [perform, startOrigin, openUpload, refuseTarget, tell]
      repeat' split
      all_goals first
        | exact .inl rfl
        | exact .inr (.inr ⟨request, rfl, rfl⟩)
  | abortOrigin => exact .inr (.inl rfl)
  | _ =>
      left
      simp only [perform, sendResponse, sendBody, sendEom, tell, forwardBody, forwardEom,
        closeUpload, closeDownload, abortDownload]
      repeat' split
      all_goals rfl

theorem dispose_reader (x : Exchange) : x.dispose.reader = {} := by
  simp only [dispose, abortOrigin, closeDownload]
  split <;> rfl

theorem Reader.reading_of_mayReport {reader : Reader} {event : OriginEvent}
    (may : reader.mayReport event = true) :
    reader.reading = .awaitingHead ∨ (reader.reading = .inBody ∧ event.isHeaders = false) := by
  rw [mayReport.eq_def, Bool.and_eq_true] at may
  obtain ⟨_, fits⟩ := may
  cases reading : reader.reading with
  | idle | finished => simp [reading] at fits
  | awaitingHead => exact .inl rfl
  | inBody =>
      right
      refine ⟨rfl, ?_⟩
      cases event with
      | headers head => simp [reading] at fits
      | body | eom | error => rfl

theorem Reader.report_reading (reader : Reader) (event : OriginEvent) :
    (reader.report event).reading ≠ .awaitingHead := by
  cases event <;> simp [report]

def headsTold (told : List Turn) : Nat := told.countP fun turn => turn.event.isOriginHeaders

theorem headsTold_append (first second : List Turn) :
    headsTold (first ++ second) = headsTold first + headsTold second := List.countP_append

/-- The origin has begun its answer once at most. -/
structure HeadsOnce (c : Course) : Prop where
  few : headsTold c.told + c.exchange.reader.queue.countP OriginEvent.isHeaders ≤ 1
  waiting : c.exchange.reader.reading = .awaitingHead →
    headsTold c.told = 0 ∧ c.exchange.reader.queue = []
  unasked : (∀ request, .sendOriginRequest request ∉ actionsOf c.seen) →
    headsTold c.told = 0 ∧ c.exchange.reader = {}

theorem HeadsOnce.same {c next : Course} (once : HeadsOnce c)
    (reader : next.exchange.reader = c.exchange.reader)
    (told : headsTold next.told = headsTold c.told)
    (more : ∀ action ∈ actionsOf c.seen, action ∈ actionsOf next.seen) : HeadsOnce next := by
  refine ⟨?_, ?_, fun unasked => ?_⟩
  · rw [reader, told]
    exact once.few
  · rw [reader, told]
    exact once.waiting
  · rw [reader, told]
    exact once.unasked fun request member => unasked request (more _ member)

theorem HeadsOnce.reset {c next : Course} (once : HeadsOnce c) (reader : next.exchange.reader = {})
    (told : headsTold next.told = headsTold c.told)
    (more : ∀ action ∈ actionsOf c.seen, action ∈ actionsOf next.seen) : HeadsOnce next := by
  have few := once.few
  refine ⟨?_, ?_, fun unasked => ?_⟩
  · rw [reader, told, List.countP_nil]
    omega
  · rw [reader]
    exact fun waits => by cases waits
  · rw [reader, told]
    exact ⟨(once.unasked fun request member => unasked request (more _ member)).1, rfl⟩

theorem HeadsOnce.reported {c next : Course} {report : OriginEvent} (once : HeadsOnce c)
    (may : c.exchange.reader.mayReport report = true)
    (reader : next.exchange.reader = c.exchange.reader.report report)
    (told : headsTold next.told = headsTold c.told)
    (more : ∀ action ∈ actionsOf c.seen, action ∈ actionsOf next.seen) : HeadsOnce next := by
  have reading := Reader.reading_of_mayReport may
  refine ⟨?_, fun waits => ?_, fun unasked => ?_⟩
  · have few := once.few
    rw [reader, told]
    simp only [Reader.report, List.countP_append, List.countP_singleton]
    rcases reading with waits | ⟨_, other⟩
    · obtain ⟨untold, empty⟩ := once.waiting waits
      rw [untold, empty, List.countP_nil]
      split <;> omega
    · rw [other, if_neg Bool.false_ne_true]
      exact few
  · rw [reader] at waits
    exact absurd waits (c.exchange.reader.report_reading report)
  · -- There is no reader before the request was sent.
    have idle := (once.unasked fun request member => unasked request (more _ member)).2
    rw [idle] at reading
    rcases reading with waits | ⟨inBody, _⟩
    · cases waits
    · cases inBody

theorem HeadsOnce.received {c next : Course} {report : OriginEvent} {rest : List OriginEvent}
    (once : HeadsOnce c) (queue : c.exchange.reader.queue = report :: rest)
    (reader : next.exchange.reader = { c.exchange.reader with queue := rest })
    (told : headsTold next.told = headsTold c.told + if report.isHeaders then 1 else 0)
    (more : ∀ action ∈ actionsOf c.seen, action ∈ actionsOf next.seen) : HeadsOnce next := by
  refine ⟨?_, fun waits => ?_, fun unasked => ?_⟩
  · have few := once.few
    rw [queue, List.countP_cons] at few
    rw [reader, told]
    dsimp only
    omega
  · rw [reader] at waits
    have empty := (once.waiting waits).2
    rw [queue] at empty
    cases empty
  · have idle := (once.unasked fun request member => unasked request (more _ member)).2
    rw [idle] at queue
    cases queue

theorem HeadsOnce.asks {c next : Course} {request : RequestHead} (once : HeadsOnce c)
    (first : ∀ action ∈ actionsOf c.seen, action.toOrigin = false)
    (reader : next.exchange.reader = { reading := .awaitingHead })
    (told : headsTold next.told = headsTold c.told)
    (sent : .sendOriginRequest request ∈ actionsOf next.seen) : HeadsOnce next := by
  -- Nothing was sent before, so there was no reader and no head.
  have untold : headsTold c.told = 0 :=
    (once.unasked fun other member => by cases first _ member).1
  refine ⟨?_, fun _ => ?_, fun unsent => absurd sent (unsent request)⟩
  · rw [reader, told, untold]
    exact Nat.zero_le 1
  · rw [reader, told]
    exact ⟨untold, rfl⟩

theorem headsTold_concat (told : List Turn) (turn : Turn) :
    headsTold (told ++ [turn]) =
      headsTold told + if turn.event.isOriginHeaders then 1 else 0 := by
  rw [headsTold_append]
  exact congrArg _ List.countP_singleton

theorem headsTold_internal {turns : List Turn}
    (internal : ∀ turn ∈ turns, isInternal turn.event = true) : headsTold turns = 0 := by
  rw [headsTold, List.countP_eq_zero]
  intro turn member heads
  have other := isOriginHeaders_of_internal (internal turn member)
  exact Bool.false_ne_true (other.symm.trans heads)

section

variable {cache : ContentCache} {domain : String} {origin : Option Endpoint}
  {transform : Option Transform} {bodyDone : Bool} {head : RequestHead} {c : Course}

theorem Reached.inTurn
    (reached : Reached cache (Session.fresh domain origin transform) bodyDone head c) :
    InTurn (actionsOf c.seen ++ c.pending) := by
  have sending := Session.play_sending domain origin transform c.told reached.clientSide.last
  rw [reached.traced] at sending
  exact sending.inTurn

theorem Reached.headsOnce
    (reached : Reached cache (Session.fresh domain origin transform) bodyDone head c) :
    HeadsOnce c := by
  induction reached with
  | asked => exact ⟨Nat.zero_le 1, by simp [new, tell], fun _ => ⟨rfl, rfl⟩⟩
  | bodiless _ _ _ ih => exact ih.same rfl (headsTold_concat _ _) fun _ => id
  | @silent x happened told seen _ event enabled tells ih =>
      have more := fun action => @mem_actionsOf_append seen (x.shown event) action
      rcases x.arrive_reader event with ⟨report, rfl⟩ | rfl | ⟨reader, _⟩
      · rw [Exchange.enabled, Bool.and_eq_true] at enabled
        exact ih.reported enabled.2 rfl rfl more
      · rw [arrive] at tells
        split at tells <;> cases tells
      · exact ih.same reader rfl more
  | @telling x happened told seen _ event said enabled tells ih =>
      have more := fun action => @mem_actionsOf_append seen (x.shown event) action
      rcases x.arrive_reader event with ⟨report, rfl⟩ | rfl | ⟨reader, others⟩
      · cases tells
      · cases queue : x.reader.queue with
        | nil =>
            have lost : x.arrive .originReceived =
                ({ x.closeUpload with receiving := false, reader := {} },
                  some .originDetached) := by
              rw [arrive, queue]
            rw [lost] at tells ⊢
            cases tells
            exact ih.reset rfl (headsTold_concat _ _) more
        | cons report rest =>
            have received : x.arrive .originReceived =
                ({ x with reader := { x.reader with queue := rest } }, some report.told) := by
              rw [arrive, queue]
            rw [received] at tells ⊢
            cases tells
            refine ih.received queue rfl ?_ more
            rw [headsTold_concat, report.isOriginHeaders_told]
      · refine ih.same reader ?_ more
        rw [headsTold_concat, others said tells]
        rfl
  | @performing x happened told turns action rest seen before internal plays ih =>
      have more := fun other => @mem_actionsOf_append seen [.performed action] other
      have same : headsTold (told ++ turns) = headsTold told := by
        rw [headsTold_append, headsTold_internal internal, Nat.add_zero]
      rcases x.perform_reader action with reader | reader | ⟨request, rfl, reader⟩
      · exact ih.same reader same more
      · exact ih.reset reader same more
      · exact ih.asks (before.inTurn (actionsOf seen) _ rest rfl) reader same
          (last_performed seen _)
  | @disposing x _ _ _ _ _ ih => exact ih.reset (dispose_reader x) rfl fun _ => id

theorem Reached.oneAnswer
    (reached : Reached cache (Session.fresh domain origin transform) bodyDone head c) :
    Session.OneAnswer ((actionsOf c.seen ++ c.pending).filter Action.toClient) := by
  obtain ⟨_, _, told⟩ := Session.play_told domain origin transform c.told
  rw [reached.traced] at told
  exact (told (Nat.le_trans (Nat.le_add_right _ _) reached.headsOnce.few)).oneAnswer

theorem Reached.not_broken
    (reached : Reached cache (Session.fresh domain origin transform) bodyDone head c)
    (ended : .sendEom ∈ actionsOf c.seen ++ c.pending) :
    .abortClient ∉ actionsOf c.seen ++ c.pending := by
  intro broken
  have one := reached.oneAnswer
  generalize actionsOf c.seen ++ c.pending = actions at one ended broken
  -- Neither of the two may come behind the other.
  obtain ⟨before, after, rfl⟩ := List.append_of_mem broken
  rcases List.mem_append.mp ended with earlier | later
  · exact one.mayTell.2.1 earlier
  · rw [List.mem_cons] at later
    obtain ⟨between, rest, rfl⟩ := List.append_of_mem (later.resolve_left (by simp))
    rw [← List.cons_append, ← List.append_assoc] at one
    exact one.mayTell.2.2 (List.mem_append_right _ List.mem_cons_self)

end

end CachingProxy.Exchange
