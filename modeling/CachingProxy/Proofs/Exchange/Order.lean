import CachingProxy.Proofs.Exchange.Pacing

/-!
# What goes through an exchange stays in order

Each of the two streams of an exchange is a new pipe on some schedule (`Pipe.Runs`), so what holds
of every schedule holds of the body of the request and of a streamed answer.  The end of either is
never pushed behind a chunk that waits, so it takes the outlet away at once, and all is in the
channel (`Pipe.Ended`).
-/

set_option autoImplicit false

namespace CachingProxy

namespace Pipe

/-- Nothing is lost, doubled or overtaken. -/
structure Faithful (pipe : Pipe) (pushed yielded : List Bytes) : Prop where
  whole : ∀ outlet body, pipe.outlet = some outlet → pipe.body = some body →
    body.dropped = false → yielded ++ pipe.inChannel ++ outlet.queue = pushed
  /-- A chunk goes behind those that wait, and does not enter the channel before them. -/
  behind : ∀ chunk, pipe.waiting ≠ [] → (pipe.push chunk).inChannel = pipe.inChannel ∧
    (pipe.push chunk).waiting = pipe.waiting ++ [chunk]
  first : yielded <+: pushed

theorem InOrder.faithful {pipe : Pipe} {pushed yielded : List Bytes}
    (inOrder : InOrder pipe pushed yielded) : Faithful pipe pushed yielded := by
  refine ⟨fun outlet body fed _ _ => ?_, fun chunk => push_behind ?_, inOrder.read_first⟩
  · have whole := inOrder.whole (by simp [fed])
    rwa [waiting, fed] at whole
  · cases inOrder with
    | fed is => rw [is, Option.isSome_some]
    | left is => rw [is, Option.isSome_some]

/-- The pipe of a stream, some time after it was opened. -/
def Runs (pipe : Pipe) (pushed yielded : List Bytes) : Prop :=
  ∃ length schedule, pushes schedule = pushed ∧
    (opened Exchange.chunkCapacity length).run schedule = (pipe, yielded)

theorem Runs.run {pipe : Pipe} {pushed yielded : List Bytes} (runs : Runs pipe pushed yielded)
    (more : List Event) :
    Runs (pipe.run more).1 (pushed ++ pushes more) (yielded ++ (pipe.run more).2) := by
  obtain ⟨length, schedule, pushed', ran⟩ := runs
  refine ⟨length, schedule ++ more, ?_, ?_⟩
  · rw [pushes_append, pushed']
  · rw [run_append, ran]

theorem Runs.faithful {pipe : Pipe} {pushed yielded : List Bytes}
    (runs : Runs pipe pushed yielded) : Faithful pipe pushed yielded := by
  obtain ⟨length, schedule, rfl, ran⟩ := runs
  have inOrder := run_inOrder Exchange.chunkCapacity length schedule
  rw [ran] at inOrder
  exact inOrder.faithful

theorem run_closed (schedule : List Event) :
    run ⟨none, none⟩ schedule = (⟨none, none⟩, []) := by
  induction schedule with
  | nil => rfl
  | cons event rest ih =>
      have idle : step ⟨none, none⟩ event = (⟨none, none⟩, []) := by cases event <;> rfl
      rw [run_cons, idle, ih, List.append_nil]

theorem closed_faithful (pushed : List Bytes) : Faithful ⟨none, none⟩ pushed [] :=
  ⟨fun _ _ fed => (by cases fed), fun _ waits => absurd rfl waits, List.nil_prefix⟩

/-! ## The end -/

/-- The outlet is gone, and what was pushed was read or is in the channel for a reader. -/
structure Ended (pipe : Pipe) (pushed yielded : List Bytes) : Prop where
  shut : pipe.outlet = none
  whole : ∀ body, pipe.body = some body → body.dropped = false →
    ∃ channel, body.content = .stream channel ∧ yielded ++ channel.queue = pushed

namespace Ended

variable {pipe : Pipe} {pushed yielded : List Bytes}

theorem step (ended : Ended pipe pushed yielded) (event : Event) :
    Ended (pipe.step event).1 pushed (yielded ++ (pipe.step event).2) := by
  obtain ⟨outlet, body?⟩ := pipe
  obtain ⟨rfl, whole⟩ := ended
  have unread : ∀ {pipe : Pipe}, Ended pipe pushed yielded → Ended pipe pushed (yielded ++ []) := by
    intro pipe ended
    rwa [List.append_nil]
  cases event with
  | push | finish | drain | close | abort => exact unread ⟨rfl, whole⟩
  | drop =>
      refine unread ⟨rfl, fun body present reads => ?_⟩
      obtain ⟨before, _, rfl⟩ := Option.map_eq_some_iff.mp present
      cases (Body.dropped_drop before).symm.trans reads
  | poll =>
      cases body? with
      | none => exact unread ⟨rfl, whole⟩
      | some body =>
          cases reads : body.dropped with
          | true =>
              simp only [Pipe.step, Pipe.poll, reads]
              exact unread ⟨rfl, whole⟩
          | false =>
              obtain ⟨channel, stream, all⟩ := whole body rfl reads
              obtain ⟨rest, after, queue⟩ := Body.poll_channel stream
              simp only [Pipe.step, Pipe.poll, if_neg (Bool.eq_false_iff.mp reads)]
              refine ⟨rfl, fun body' present _ => ?_⟩
              obtain rfl := Option.some.inj present
              refine ⟨_, after, ?_⟩
              rw [List.append_assoc, queue, all]

theorem run (ended : Ended pipe pushed yielded) (schedule : List Event) :
    Ended (pipe.run schedule).1 pushed (yielded ++ (pipe.run schedule).2) := by
  induction schedule generalizing pipe yielded with
  | nil =>
      rw [run_nil, List.append_nil]
      exact ended
  | cons event rest ih =>
      have later := ih (ended.step event)
      rwa [List.append_assoc] at later

theorem inChannel (ended : Ended pipe pushed yielded) {body : Body}
    (present : pipe.body = some body) (reads : body.dropped = false) :
    yielded ++ pipe.inChannel = pushed := by
  obtain ⟨channel, stream, all⟩ := ended.whole body present reads
  obtain ⟨outlet, body?⟩ := pipe
  obtain rfl : body? = some body := present
  rw [inChannel_of_stream stream, all]

end Ended

/-- Behind an end that finds nothing waiting, all is in the channel. -/
theorem Carries.ended {pipe : Pipe} {pushed yielded : List Bytes} {ended : Prop}
    {lost : Body → Prop} (carries : Carries pipe pushed yielded ended lost) (unended : ¬ ended)
    (room : pipe.waiting = []) (kept : ∀ body, pipe.body = some body → ¬ lost body) :
    Ended pipe.finish pushed yielded := by
  obtain ⟨outlet?, body?⟩ := pipe
  cases outlet? with
  | none =>
      refine ⟨rfl, fun body present reads => ?_⟩
      rcases carries.left rfl body present with gone | ⟨truth, _⟩ | loses
      · cases reads.symm.trans gone
      · exact absurd truth unended
      · exact absurd loses (kept body present)
  | some outlet =>
      obtain ⟨body, stream, feeds, _⟩ := carries.fed outlet rfl
      obtain rfl : body? = some body := stream
      have empty : outlet.queue = [] := room
      have finished : ({ outlet with closing := true } : Outlet).isFinished = true := by
        rw [Outlet.isFinished, empty]
        rfl
      obtain ⟨accepted, all, channel, stream, _, _, rest⟩ := feeds.dropSender
      rw [empty, List.append_nil] at all
      simp only [Pipe.finish, finished]
      refine ⟨rfl, fun body' present _ => ?_⟩
      obtain rfl := Option.some.inj present
      exact ⟨channel, stream, by rw [← rest, all]⟩

end Pipe

namespace Exchange

open Session (Action Turn)

theorem handed_shown (chunk? : Action → Option Bytes) (x : Exchange) (event : Event) :
    handed chunk? (x.shown event) = [] := by
  rw [handed, actionsOf_shown, List.filterMap_nil]

theorem handed_performed (chunk? : Action → Option Bytes) (action : Action) :
    handed chunk? [.performed action] = (chunk? action).toList := by
  change List.filterMap chunk? [action] = _
  cases carried : chunk? action with
  | none => rw [List.filterMap_cons_none carried, List.filterMap_nil, Option.toList_none]
  | some chunk => rw [List.filterMap_cons_some carried, List.filterMap_nil, Option.toList_some]

section

variable {chunk? : Action → Option Bytes} {frame? : Observation → Option Body.Frame}
  {pipe next : Pipe} {schedule : List Pipe.Event} {seen more : List Observation}

/-! A pipe runs on as more is seen of it. -/

theorem runs_seen (runs : pipe.Runs (handed chunk? seen) (gained frame? seen))
    (pushes : handed chunk? more = Pipe.pushes schedule)
    (ran : pipe.run schedule = (next, gained frame? more)) :
    next.Runs (handed chunk? (seen ++ more)) (gained frame? (seen ++ more)) := by
  have later := runs.run schedule
  rw [ran, ← pushes] at later
  rwa [handed_append, gained_append]

theorem ended_seen (ended : pipe.Ended (handed chunk? seen) (gained frame? seen))
    (idle : handed chunk? more = []) (ran : pipe.run schedule = (next, gained frame? more)) :
    next.Ended (handed chunk? (seen ++ more)) (gained frame? (seen ++ more)) := by
  have later := ended.run schedule
  rw [ran] at later
  rwa [handed_append, idle, List.append_nil, gained_append]

end

/-! ## To the origin -/

def Uploaded (x : Exchange) (seen : List Observation) : Prop :=
  (x.upstream = ⟨none, none⟩ ∧ gained uploaded? seen = []) ∨
    x.upstream.Runs (handed forwarded? seen) (gained uploaded? seen)

theorem Uploaded.run {x y : Exchange} {seen more : List Observation} (uploaded : Uploaded x seen)
    {schedule : List Pipe.Event} (pushes : handed forwarded? more = Pipe.pushes schedule)
    (ran : x.upstream.run schedule = (y.upstream, gained uploaded? more)) :
    Uploaded y (seen ++ more) := by
  rcases uploaded with ⟨closed, unread⟩ | runs
  · rw [closed, Pipe.run_closed, Prod.mk.injEq] at ran
    exact .inl ⟨ran.1.symm, by rw [gained_append, unread, ← ran.2, List.append_nil]⟩
  · exact .inr (runs_seen runs pushes ran)

theorem Uploaded.faithful {x : Exchange} {seen : List Observation} (uploaded : Uploaded x seen) :
    x.upstream.Faithful (handed forwarded? seen) (gained uploaded? seen) := by
  rcases uploaded with ⟨closed, unread⟩ | runs
  · rw [closed, unread]
    exact Pipe.closed_faithful _
  · exact runs.faithful

theorem upstream_performed (x : Exchange) {action : Action}
    (asked : ∀ request, action ≠ .sendOriginRequest request) :
    x.upstream.run (onUpstream action) =
      ((x.perform action).1.upstream, gained uploaded? [.performed action]) := by
  refine Prod.ext (x.upstream_perform asked).symm ?_
  cases action <;> rfl

theorem upstream_disposed (x : Exchange) :
    x.upstream.run [.close] = (x.dispose.upstream, gained uploaded? []) :=
  congrArg (·, []) x.upstream_dispose.symm

section

variable {cache : ContentCache} {domain : String} {origin : Option Endpoint}
  {transform : Option Transform} {bodyDone : Bool} {head : RequestHead} {c : Course}

theorem Reached.uploaded_asked {x : Exchange} {happened : List Event} {told : List Turn}
    {request : RequestHead} {rest : List Action} {seen : List Observation}
    (reached : Reached cache (Session.fresh domain origin transform) bodyDone head
      ⟨x, happened, told, .sendOriginRequest request :: rest, seen⟩) :
    Uploaded (x.perform (.sendOriginRequest request)).1
      (seen ++ [.performed (.sendOriginRequest request)]) := by
  -- A session asks its origin once, so nothing was forwarded or read before.
  have first : ∀ action ∈ actionsOf seen, action.toOrigin = false :=
    reached.inTurn (actionsOf seen) _ rest rfl
  obtain ⟨upload, unread⟩ := reached.uploads.unasked fun request member =>
    Bool.false_ne_true (first _ member).symm
  have unread' : gained uploaded? (seen ++ [.performed (.sendOriginRequest request)]) = [] := by
    rw [gained_performed (fun _ => rfl)]
    exact unread
  have unfed : handed forwarded? (seen ++ [.performed (.sendOriginRequest request)]) = [] := by
    rw [handed_concat seen rfl]
    exact handed_eq_nil fun action member => forwarded?_of_unsent (first action member)
  obtain ⟨outlet, ⟨_, _, _, upstream⟩ | ⟨_, upstream⟩⟩ := reached.asking
  · rw [openUpload] at upstream
    split at upstream
    · refine .inr ⟨none, [], unfed.symm, ?_⟩
      rw [perform, upstream, unread']
      rfl
    · exact .inl ⟨upstream.trans (congr (congrArg Pipe.mk outlet) upload), unread'⟩
  · exact .inl ⟨upstream, unread'⟩

theorem Reached.uploaded
    (reached : Reached cache (Session.fresh domain origin transform) bodyDone head c) :
    Uploaded c.exchange c.seen := by
  have arrived : ∀ {x : Exchange} {seen : List Observation} {event : Event},
      x.enabled event = true → Uploaded x seen →
      Uploaded (x.arrive event).1 (seen ++ x.shown event) := by
    intro x seen event enabled uploaded
    refine uploaded.run ?_ (x.upstream_arrive enabled)
    rw [pushes_arriveUpstream, handed_shown]
  induction reached with
  | asked => exact .inl ⟨rfl, rfl⟩
  | bodiless _ _ _ ih => exact ih
  | silent _ enabled _ ih => exact arrived enabled ih
  | telling _ enabled _ ih => exact arrived enabled ih
  | @performing x _ _ _ action rest seen before _ _ ih =>
      by_cases asks : ∃ request, action = .sendOriginRequest request
      · obtain ⟨request, rfl⟩ := asks
        exact before.uploaded_asked
      · rw [not_exists] at asks
        refine ih.run ?_ (x.upstream_performed asks)
        rw [pushes_onUpstream, handed_performed]
  | @disposing x _ _ seen _ _ ih =>
      have shut := ih.run rfl x.upstream_disposed
      rwa [List.append_nil] at shut

theorem Reached.upload_ended
    (reached : Reached cache (Session.fresh domain origin transform) bodyDone head c)
    (eom : .forwardEom ∈ actionsOf c.seen) :
    c.exchange.upstream.Ended (handed forwarded? c.seen) (gained uploaded? c.seen) := by
  induction reached with
  | asked => simp [actionsOf] at eom
  | bodiless _ _ _ ih => exact ih eom
  | @silent x _ _ _ _ event enabled _ ih | @telling x _ _ _ _ event _ enabled _ ih =>
      rw [actionsOf_append, actionsOf_shown, List.append_nil] at eom
      exact ended_seen (ih eom) (handed_shown forwarded? x event) (x.upstream_arrive enabled)
  | @performing x _ _ _ action rest seen before _ _ ih =>
      have follows := before.inTurn (actionsOf seen) action rest rfl
      rw [actionsOf_concat, List.mem_append, List.mem_singleton] at eom
      rcases eom with earlier | rfl
      · -- Neither the request nor a chunk comes behind the end.
        have asked : ∀ request, action ≠ .sendOriginRequest request := by
          rintro request rfl
          cases follows _ earlier
        refine ended_seen (ih earlier) ?_ (x.upstream_performed asked)
        rw [handed_performed]
        cases action with
        | forwardBody chunk => exact absurd earlier follows
        | _ => rfl
      · have finished : (x.perform .forwardEom).1.upstream = x.upstream.finish :=
          x.upstream_forwardEom.1
        rw [finished, handed_concat seen rfl, gained_performed (fun _ => rfl)]
        cases before.uploading with
        | clear nothing => cases nothing _ List.mem_cons_self
        | body alone => cases (List.cons.inj alone).1
        | asks first => cases (List.cons.inj first).1
        | eom _ _ room streams =>
            refine before.uploads.carries.ended follows (isBlocked_eq_false.mp room) ?_
            rintro body present ⟨unheard, _⟩
            exact Bool.false_ne_true (unheard.symm.trans (streams (Option.isSome_of_mem present)))
  | @disposing x _ _ seen _ _ ih =>
      have shut := ended_seen (ih eom) rfl x.upstream_disposed
      rwa [List.append_nil] at shut

end

/-! ## To the client -/

theorem runs_sendHeaders (x : Exchange) (head : ResponseHead) :
    (x.perform (.sendHeaders head)).1.downstream.Runs [] [] := by
  have opened : Pipe.opened chunkCapacity (declaredLength x.method head) =
      ⟨some {}, some (streamedBody x.method head)⟩ := rfl
  have present : (streamedBody x.method head).dropped = false := by
    rw [streamedBody]
    split <;> rfl
  have dropped : (streamedBody x.method head).drop.2 =
      { streamedBody x.method head with dropped := true } := by
    rw [Body.drop, if_neg (Bool.eq_false_iff.mp present)]
  rw [perform, sendResponse]
  split
  · refine ⟨declaredLength x.method head, [.drop], rfl, ?_⟩
    simp [opened, Pipe.run, Pipe.step, Pipe.drop, dropped, downstream]
  · split
    · exact ⟨declaredLength x.method head, [], rfl, rfl⟩
    · exact ⟨declaredLength x.method head, [.drop], rfl, rfl⟩

theorem downstream_ran (x : Exchange) {action : Action}
    (unanswered : ∀ response, action ≠ .respond response)
    (unbegun : ∀ head, action ≠ .sendHeaders head) :
    x.downstream.run (onDownstream action) =
      ((x.perform action).1.downstream, gained downloaded? [.performed action]) := by
  refine Prod.ext (x.downstream_performed unanswered unbegun).symm ?_
  cases action <;> rfl

theorem downstream_disposed (x : Exchange) :
    x.downstream.run [.close] = (x.dispose.downstream, gained downloaded? []) :=
  congrArg (·, []) x.downstream_dispose.symm

section

variable {cache : ContentCache} {domain : String} {origin : Option Endpoint}
  {transform : Option Transform} {bodyDone : Bool} {head : RequestHead} {c : Course}

theorem Reached.begins_once {x : Exchange} {happened : List Event} {told : List Turn}
    {action : Action} {rest : List Action} {seen : List Observation}
    (reached : Reached cache (Session.fresh domain origin transform) bodyDone head
      ⟨x, happened, told, action :: rest, seen⟩) {other : Action}
    (earlier : other ∈ actionsOf seen) (visible : other.toClient = true) :
    (∀ response, action ≠ .respond response) ∧ ∀ head, action ≠ .sendHeaders head := by
  have follows := reached.oneAnswer.mayTell
  constructor
  · rintro response rfl
    exact Bool.false_ne_true ((follows other earlier).symm.trans visible)
  · rintro head rfl
    exact Bool.false_ne_true ((follows other earlier).symm.trans visible)

theorem Reached.downloaded
    (reached : Reached cache (Session.fresh domain origin transform) bodyDone head c)
    {answer : ResponseHead} (begun : .sendHeaders answer ∈ actionsOf c.seen) :
    c.exchange.downstream.Runs (handed sent? c.seen) (gained downloaded? c.seen) := by
  induction reached with
  | asked => simp [actionsOf] at begun
  | bodiless _ _ _ ih => exact ih begun
  | @silent x _ _ _ _ event enabled _ ih | @telling x _ _ _ _ event _ enabled _ ih =>
      rw [actionsOf_append, actionsOf_shown, List.append_nil] at begun
      refine runs_seen (ih begun) ?_ (x.downstream_arrived enabled)
      rw [pushes_arriveDownstream, handed_shown]
  | @performing x _ _ _ action rest seen before _ _ ih =>
      rw [actionsOf_concat, List.mem_append, List.mem_singleton] at begun
      rcases begun with earlier | rfl
      · obtain ⟨unanswered, unbegun⟩ := before.begins_once earlier rfl
        refine runs_seen (ih earlier) ?_ (x.downstream_ran unanswered unbegun)
        rw [pushes_onDownstream, handed_performed]
      · have first : ∀ action ∈ actionsOf seen, action.toClient = false :=
          before.oneAnswer.mayTell
        have unfed : handed sent? (seen ++ [.performed (.sendHeaders answer)]) = [] := by
          rw [handed_concat seen rfl]
          exact handed_eq_nil fun action member => sent?_of_hidden (first action member)
        rw [unfed, gained_performed (fun _ => rfl), (before.downloads.unbegun first).2]
        exact x.runs_sendHeaders answer
  | @disposing x _ _ seen _ _ ih =>
      have shut := runs_seen (ih begun) rfl x.downstream_disposed
      rwa [List.append_nil] at shut

theorem Reached.gone_of_failed
    (reached : Reached cache (Session.fresh domain origin transform) bodyDone head c)
    (failed : .clientFrame .failed ∈ c.happened) :
    c.exchange.session.clientTerminated = true := by
  induction reached with
  | asked => cases failed
  | bodiless => cases failed
  | @silent x _ _ _ _ event _ tells ih =>
      rcases List.mem_append.mp failed with earlier | now
      · exact (congrArg _ (arrive_session x event)).trans (ih earlier)
      · obtain rfl := List.mem_singleton.mp now
        cases tells
  | @telling x _ _ _ before event said _ tells ih =>
      have session := arrive_session x event
      rcases List.mem_append.mp failed with earlier | now
      · exact Session.take_stays_gone _ ⟨_, said⟩ (session ▸ ih earlier)
      · obtain rfl := List.mem_singleton.mp now
        obtain rfl := Option.some.inj tells
        exact x.session.take_leaving ⟨x.cache, .clientError⟩ before.accounted.toSettled (.inr rfl)
  | @performing x _ _ turns action _ _ _ _ plays ih =>
      have gone := x.session.play_stays_gone turns (ih failed)
      rwa [plays] at gone
  | disposing _ _ ih => exact (congrArg _ (dispose_session _)).trans (ih failed)

/-- The end of an answer is sent to a client that is there, when nothing waits for it. -/
theorem Reached.download_ended
    (reached : Reached cache (Session.fresh domain origin transform) bodyDone head c)
    (eom : .sendEom ∈ actionsOf c.seen) :
    c.exchange.downstream.Ended (handed sent? c.seen) (gained downloaded? c.seen) := by
  induction reached with
  | asked => simp [actionsOf] at eom
  | bodiless _ _ _ ih => exact ih eom
  | @silent x _ _ _ _ event enabled _ ih | @telling x _ _ _ _ event _ enabled _ ih =>
      rw [actionsOf_append, actionsOf_shown, List.append_nil] at eom
      exact ended_seen (ih eom) (handed_shown sent? x event) (x.downstream_arrived enabled)
  | @performing x happened _ _ action rest seen before _ _ ih =>
      have follows := before.oneAnswer.mayTell
      rw [actionsOf_concat, List.mem_append, List.mem_singleton] at eom
      rcases eom with earlier | rfl
      · -- No chunk comes behind the end.
        obtain ⟨unanswered, unbegun⟩ := before.begins_once earlier rfl
        refine ended_seen (ih earlier) ?_ (x.downstream_ran unanswered unbegun)
        rw [handed_performed]
        cases action with
        | sendBody chunk => exact absurd earlier follows.2.1
        | _ => rfl
      · obtain ⟨begun, unended, unaborted⟩ := follows
        have finished : (x.perform .sendEom).1.downstream = x.downstream.finish :=
          x.downstream_sendEom.1
        rw [finished, handed_concat seen rfl, gained_performed (fun _ => rfl)]
        cases before.downloading with
        | clear nothing => cases nothing _ List.mem_cons_self
        | one _ room present =>
            refine (before.downloads.carries begun).ended unended (isBlocked_eq_false.mp room) ?_
            rintro body _ (⟨aborted, _⟩ | ⟨failed, _⟩)
            · exact unaborted aborted
            · exact Bool.false_ne_true (present.symm.trans (before.gone_of_failed failed))
  | @disposing x _ _ seen _ _ ih =>
      have shut := ended_seen (ih eom) rfl x.downstream_disposed
      rwa [List.append_nil] at shut

end

/-! ## A whole run -/

/-- A pipe of any capacity, on any schedule, loses, doubles and reorders nothing.  As long as both
its ends are there it closes only behind its end and when nothing waits, so what was pushed before
its end can be read.  Both streams of an exchange are such pipes at every step of a run, and their
ends find nothing waiting. -/
theorem chunks_kept_in_order (cache : ContentCache) (domain : String) (origin : Option Endpoint)
    (transform : Option Transform) (bodyDone : Bool) (head : RequestHead) :
    (∀ capacity length schedule,
      let begun := Pipe.opened capacity length
      let now := begun.run schedule
      now.1.Faithful (Pipe.pushes schedule) now.2 ∧
      ((∀ event ∈ schedule, event.breaks = false) →
        (∀ event : Pipe.Event, event.breaks = false →
          let next := begun.run (schedule ++ [event])
          now.1.outlet ≠ none → next.1.outlet = none →
            next.2 ++ next.1.inChannel = Pipe.pushes (schedule ++ [event])) ∧
        (now.1.outlet = none → ∃ before after, schedule = before ++ .finish :: after ∧
          .finish ∉ before ∧ ∃ polls, Pipe.pushes before <+:
            (begun.run (schedule ++ List.replicate polls .poll)).2))) ∧
    (∀ c, Reached cache (Session.fresh domain origin transform) bodyDone head c →
      let uploaded := gained uploaded? c.seen
      let downloaded := gained downloaded? c.seen
      c.exchange.upstream.Faithful (handed forwarded? c.seen) uploaded ∧
      (.performed .forwardEom ∈ c.seen →
        c.exchange.upstream.Ended (handed forwarded? c.seen) uploaded) ∧
      (∀ answer, .performed (.sendHeaders answer) ∈ c.seen →
        c.exchange.downstream.Faithful (handed sent? c.seen) downloaded) ∧
      (.performed .sendEom ∈ c.seen →
        c.exchange.downstream.Ended (handed sent? c.seen) downloaded)) ∧
    ∀ events, let begun := start cache (Session.fresh domain origin transform) bodyDone head
      ∃ c, Reached cache (Session.fresh domain origin transform) bodyDone head c ∧
        c.exchange = (begun.1.run events).1 ∧ c.seen = begun.2 ++ (begun.1.run events).2 := by
  refine ⟨fun capacity length schedule => ⟨?_, fun whole => ⟨?_, fun shut => ?_⟩⟩,
    fun c reached => ⟨?_, fun ended => ?_, fun answer begun => ?_, fun ended => ?_⟩,
    fun events => ?_⟩
  · exact (Pipe.run_inOrder capacity length schedule).faithful
  · exact fun event last fed shut => Pipe.shut_when_empty capacity length whole last fed shut
  · have ended : .finish ∈ schedule := by
      by_contra unended
      exact Pipe.open_until_ended capacity length whole unended shut
    obtain ⟨before, after, rfl, unended⟩ := List.eq_append_cons_of_mem ended
    exact ⟨before, after, rfl, unended, Pipe.kept_until_read capacity length whole unended shut⟩
  · exact reached.uploaded.faithful
  · exact reached.upload_ended (mem_actionsOf.mpr ended)
  · exact (reached.downloaded (mem_actionsOf.mpr begun)).faithful
  · exact reached.download_ended (mem_actionsOf.mpr ended)
  · obtain ⟨_, reached⟩ :=
      reached cache (Session.fresh domain origin transform) bodyDone head events
    exact ⟨_, reached, rfl, rfl⟩

/-- A pipe that is full when its end comes, and an exchange whose body and answer have both come to
an end before the last chunks were read. -/
theorem ended_streams_keep_order :
    let schedule : List Pipe.Event := [.push [1], .push [2], .finish, .poll, .drain]
    let cache : ContentCache := { partitions := [], maxEntries := 1 }
    let session := Session.fresh "example.com" (some ⟨"10.0.0.1", 80⟩) none
    let begun := start cache session false { method := "POST", uri := .rooted "/" none }
    let events : List Event := [.connected (.ok ()), .clientFrame (.data [1]), .pollUpload,
      .clientFrame (.data [2, 3]), .clientFrame .ended, .originReports (.headers ⟨200, []⟩),
      .originReceived, .originReports (.body [4]), .originReceived, .originReports .eom,
      .originReceived]
    let x := (begun.1.run events).1
    let seen := begun.2 ++ (begun.1.run events).2
    (∃ before after, schedule = before ++ .finish :: after ∧ .finish ∉ before ∧
      ∃ polls, Pipe.pushes before <+:
        ((Pipe.opened 1 none).run (schedule ++ List.replicate polls .poll)).2) ∧
    (.performed .forwardEom ∈ seen ∧ x.uploadOutlet = none ∧
      gained uploaded? seen ++ x.upstream.inChannel = handed forwarded? seen) ∧
    (.performed .sendEom ∈ seen ∧ x.downloadOutlet = none ∧
      gained downloaded? seen ++ x.downstream.inChannel = handed sent? seen) ∧
    gained uploaded? seen = [[1]] ∧ handed forwarded? seen = [[1], [2, 3]] ∧
      gained downloaded? seen = [] ∧ handed sent? seen = [[4]] := by
  intro schedule cache session begun events x seen
  obtain ⟨scheduled, exchanged, run⟩ := chunks_kept_in_order cache "example.com"
    (some ⟨"10.0.0.1", 80⟩) none false { method := "POST", uri := .rooted "/" none }
  have shut : ((Pipe.opened 1 none).run schedule).1.outlet = none := by rfl
  have whole : ∀ event ∈ schedule, event.breaks = false := by decide
  obtain ⟨c, reached, same, same'⟩ : ∃ c, Reached cache session false _ c ∧
    c.exchange = x ∧ c.seen = seen := run events
  obtain ⟨_, upload, _, download⟩ := exchanged c reached
  rw [same, same'] at upload download
  have forwarded : .performed .forwardEom ∈ seen := by decide +kernel
  have sent : .performed .sendEom ∈ seen := by decide +kernel
  have uploads : x.upload.any (!·.dropped) = true := by decide +kernel
  have downloads : x.download.any (!·.dropped) = true := by decide +kernel
  obtain ⟨_, uploaded, reads⟩ := (Option.any_eq_true _ _).mp uploads
  obtain ⟨_, downloaded, reads'⟩ := (Option.any_eq_true _ _).mp downloads
  rw [Bool.not_eq_true'] at reads reads'
  have readable := ((scheduled 1 none schedule).2 whole).2 shut
  have carried : gained uploaded? seen = [[1]] ∧ handed forwarded? seen = [[1], [2, 3]] ∧
      gained downloaded? seen = [] ∧ handed sent? seen = [[4]] := by decide +kernel
  exact ⟨readable,
    ⟨forwarded, (upload forwarded).shut, (upload forwarded).inChannel uploaded reads⟩,
    ⟨sent, (download sent).shut, (download sent).inChannel downloaded reads'⟩, carried⟩

end Exchange

end CachingProxy
