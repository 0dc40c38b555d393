import CachingProxy.Proofs.Session.OriginProtocol
import CachingProxy.Proofs.Session.Requests

/-!
# When the origin connects

The client may send its body before the origin is connected.  What came of it by then is held, and
sent on behind the head of the request when the origin connects; what comes later is sent on at
once.  Held or not, it is sent in the order in which it came (`Forwards`), so what the origin is
sent does not tell when it connected.
-/

set_option autoImplicit false

namespace CachingProxy.Session

/-! ## Uploads among other events -/

def Event.sentOn : Event → List Action
  | .clientBody chunk => [.forwardBody chunk]
  | .clientEom => [.forwardEom]
  | _ => []

/-- The events behind which nothing more may be sent to the origin. -/
def Event.endsUpload : Event → Bool
  | .clientComplete | .clientError | .connectError _ | .originEom | .originError _
  | .originDetached => true
  | _ => false

def uploadEvents (chunks : List Bytes) (ended : Bool) : List Event :=
  chunks.map .clientBody ++ if ended then [.clientEom] else []

def uploadActions (request : RequestHead) (chunks : List Bytes) (ended : Bool) : List Action :=
  .sendOriginRequest request :: chunks.map .forwardBody ++ if ended then [.forwardEom] else []

/-- Among other events the origin connects and the client's body comes.  What ends an upload comes
behind all of it. -/
def Delivers (chunks : List Bytes) (ended : Bool) (events : List Event) : Prop :=
  ∃ first later, events = first ++ later ∧ .connectSuccess ∈ first ∧
    first.filter Event.ofClientBody = uploadEvents chunks ended ∧
    (∀ event ∈ first, event.endsUpload = false) ∧
    ∀ event ∈ later, event.ofClientBody = false

theorem sentOn_eq_nil {event : Event} (other : event.ofClientBody = false) : event.sentOn = [] := by
  cases event <;> first | rfl | cases other

theorem flatMap_sentOn_filter (events : List Event) :
    (events.filter Event.ofClientBody).flatMap Event.sentOn = events.flatMap Event.sentOn := by
  induction events with
  | nil => rfl
  | cons event rest ih =>
      rw [List.flatMap_cons, ← ih]
      cases body : event.ofClientBody with
      | false => rw [List.filter_cons_of_neg (by simp [body]), sentOn_eq_nil body, List.nil_append]
      | true => rw [List.filter_cons_of_pos body, List.flatMap_cons]

theorem flatMap_sentOn_uploadEvents (chunks : List Bytes) (ended : Bool) :
    (uploadEvents chunks ended).flatMap Event.sentOn =
      chunks.map .forwardBody ++ if ended then [.forwardEom] else [] := by
  have bodies : (chunks.map Event.clientBody).flatMap Event.sentOn =
      chunks.map Action.forwardBody := by
    rw [List.flatMap_map]
    exact List.map_eq_flatMap.symm
  rw [uploadEvents, List.flatMap_append, bodies]
  cases ended <;> rfl

theorem eomLast_of_filter {events : List Event} {chunks : List Bytes} {ended : Bool}
    (upload : events.filter Event.ofClientBody = uploadEvents chunks ended) : EomLast events := by
  rintro before after rfl event member
  suffices nothing : after.filter Event.ofClientBody = [] by
    simpa using List.filter_eq_nil_iff.mp nothing event member
  rw [List.filter_append, List.filter_cons_of_pos rfl, uploadEvents] at upload
  have short : (if ended then [Event.clientEom] else []).length ≤ 1 := by cases ended <;> simp
  rcases List.append_eq_append_iff.mp upload.symm with ⟨between, _, tail⟩ | ⟨between, body, tail⟩
  · rw [tail, List.length_append, List.length_cons] at short
    exact List.eq_nil_of_length_eq_zero (by omega)
  · cases between with
    | nil =>
        rw [List.nil_append] at tail
        rw [← tail, List.length_cons] at short
        exact List.eq_nil_of_length_eq_zero (by omega)
    | cons final between =>
        -- The end of the upload is none of its chunks.
        rw [List.cons_append, List.cons.injEq] at tail
        have chunk : .clientEom ∈ chunks.map Event.clientBody := by
          rw [body, tail.1]
          simp
        simp at chunk

/-! ## What was sent so far -/

theorem toOrigin_connected (request : RequestHead) (chunks : List Bytes) (ended : Bool) :
    (Action.sendOriginRequest request :: chunks.map .forwardBody ++
      (if ended then [Action.forwardEom] else []) ++ [Action.resumeIngress]).filter
        Action.toOrigin = uploadActions request chunks ended := by
  have bodies : (chunks.map Action.forwardBody).filter Action.toOrigin =
      chunks.map .forwardBody := by
    refine List.filter_eq_self.mpr fun action member => ?_
    obtain ⟨chunk, _, rfl⟩ := List.mem_map.mp member
    rfl
  cases ended <;> simp [List.filter_cons, bodies, uploadActions, Action.toOrigin]

theorem Moves.unsent {cache : ContentCache} {session : Session} {event : Event}
    {result : Session × List Action} (rule : Moves cache session event result)
    (old : session.state ≠ .new) (connected : session.state ≠ .connecting)
    (other : event.ofClientBody = false) :
    result.1.state ≠ .new ∧ result.1.state ≠ .connecting ∧
      result.2.filter Action.toOrigin = [] := by
  cases rule with
  | hit start | unserved start | asked start => exact absurd start old
  | connected waiting | unconnected waiting | unconnectedAlone waiting =>
      exact absurd waiting connected
  | bodyHeld | bodyForwarded | eomHeld | eomForwarded => cases other
  | completed | bodyKept | bodySent | detachedDone | paused | resumed =>
      exact ⟨old, connected, rfl⟩
  | _ => exact ⟨by simp, by simp, rfl⟩

theorem play_unsent {session : Session} (old : session.state ≠ .new)
    (connected : session.state ≠ .connecting) (turns : List Turn)
    (others : ∀ turn ∈ turns, turn.event.ofClientBody = false) :
    (session.play turns).2.filter Action.toOrigin = [] := by
  induction turns generalizing session with
  | nil => rfl
  | cons turn rest ih =>
      have later := fun other member => others other (List.mem_cons_of_mem turn member)
      rw [play_cons, List.filter_append]
      rcases session.take_cases turn with ⟨_, same⟩ | ⟨_, _, rule⟩
      · rw [same]
        exact ih old connected later
      · obtain ⟨old', connected', unsent⟩ :=
          rule.unsent old connected (others turn List.mem_cons_self)
        rw [unsent, ih old' connected' later, List.append_nil]

/-- How far the upload has come, after the given events behind the request. -/
inductive Forwards (request : RequestHead) (events : List Event) (session : Session)
    (actions : List Action) : Prop where
  | held (waiting : session.state = .connecting) (asked : session.request = some request)
      (alive : session.released = false) (present : session.clientTerminated = false)
      (unconnected : .connectSuccess ∉ events)
      (ended : session.pendingEom = true → .clientEom ∈ events)
      (kept : session.pendingBody.map .forwardBody ++
        (if session.pendingEom then [.forwardEom] else []) = events.flatMap Event.sentOn)
      (unsent : actions.filter Action.toOrigin = [])
  | sent (old : session.state ≠ .new) (connected : session.state ≠ .connecting)
      (alive : session.released = false) (present : session.clientTerminated = false)
      (isOpen : session.originOpen = true)
      (sent : actions.filter Action.toOrigin =
        .sendOriginRequest request :: events.flatMap Event.sentOn)

namespace Forwards

variable {request : RequestHead} {events : List Event} {session : Session} {actions : List Action}

theorem ignored (forwards : Forwards request events session actions) {event : Event}
    (unused : session.ignores event = true) :
    Forwards request (events ++ [event]) session actions := by
  cases forwards with
  | held waiting asked alive present unconnected ended kept unsent =>
      have others : event.sentOn = [] ∧ event ≠ .connectSuccess := by
        cases event <;> simp [ignores, waiting, asked, alive, present, Event.sentOn] at unused ⊢
      refine .held waiting asked alive present ?_ (fun pending => ?_) ?_ unsent
      · simpa using ⟨unconnected, others.2.symm⟩
      · exact List.mem_append_left _ (ended pending)
      · rw [kept, List.flatMap_append, List.flatMap_singleton, others.1, List.append_nil]
  | sent old connected alive present isOpen sent =>
      have other : event.sentOn = [] := by
        cases event <;> simp [ignores, alive, present, isOpen, Event.sentOn] at unused ⊢
      refine .sent old connected alive present isOpen ?_
      rw [sent, List.flatMap_append, List.flatMap_singleton, other, List.append_nil]

theorem moved {cache : ContentCache} {event : Event} {result : Session × List Action}
    (forwards : Forwards request events session actions) (accounted : Accounted session)
    (rule : Moves cache session event result) (goes : event.endsUpload = false)
    (last : EomLast (events ++ [event])) :
    Forwards request (events ++ [event]) result.1 (actions ++ result.2) := by
  cases forwards with
  | held waiting asked alive present unconnected ended kept unsent =>
      obtain ⟨detached, undone, _⟩ := accounted.early (.inr waiting)
      have unended : event.ofClientBody = true → session.pendingEom = false := fun body =>
        Bool.eq_false_iff.mpr fun pending => last.unended body (ended pending)
      cases rule with
      | @connected request' _ asked' =>
          obtain rfl : request = request' := Option.some.inj (asked.symm.trans asked')
          refine .sent (by simp) (by simp) alive present (by simp [originOpen, undone]) ?_
          rw [List.filter_append, unsent, toOrigin_connected, uploadActions, List.cons_append, kept]
          simp [Event.sentOn]
      | bodyHeld =>
          refine .held waiting asked alive present (by simpa using unconnected)
            (fun pending => List.mem_append_left _ (ended pending)) ?_ (by simpa using unsent)
          rw [unended rfl, List.flatMap_append, ← kept, unended rfl]
          simp [Event.sentOn]
      | eomHeld =>
          refine .held waiting asked alive present (by simpa using unconnected) (fun _ => by simp)
            ?_ (by simpa using unsent)
          rw [List.flatMap_append, ← kept, unended rfl]
          simp [Event.sentOn]
      | hit start | unserved start | asked start => cases waiting.symm.trans start
      | bodyKept running | bodySent running => cases waiting.symm.trans running
      | bodyForwarded _ _ attached | eomForwarded _ _ attached | headersKept attached
      | headersUnseen attached | headersSent attached | paused _ attached | resumed _ attached =>
          cases detached.symm.trans attached
      | _ => cases goes
  | sent old connected alive present isOpen sent =>
      have further : ∀ {next : Session} {more : List Action}, next.state ≠ .new →
          next.state ≠ .connecting → next.released = session.released →
          next.clientTerminated = session.clientTerminated →
          next.originOpen = session.originOpen → more.filter Action.toOrigin = event.sentOn →
          Forwards request (events ++ [event]) next (actions ++ more) := by
        intro next more old connected released terminated opened sentOn
        refine .sent old connected (released.trans alive) (terminated.trans present)
          (opened.trans isOpen) ?_
        rw [List.filter_append, sent, sentOn, List.flatMap_append, List.flatMap_singleton,
          List.cons_append]
      cases rule with
      | headersKept | headersSent => exact further (by simp) (by simp) rfl rfl rfl rfl
      | bodyForwarded | eomForwarded | bodyKept | bodySent | paused | resumed =>
          exact further old connected rfl rfl rfl rfl
      | hit start | unserved start | asked start => exact absurd start old
      | connected waiting | bodyHeld _ waiting | eomHeld _ waiting =>
          exact absurd waiting connected
      | headersUnseen _ _ _ gone => cases present.symm.trans gone
      | _ => cases goes

theorem play (forwards : Forwards request events session actions) (accounted : Accounted session)
    (turns : List Turn) (goes : ∀ turn ∈ turns, turn.event.endsUpload = false)
    (last : EomLast (events ++ turns.map Turn.event)) :
    Forwards request (events ++ turns.map Turn.event) (session.play turns).1
      (actions ++ (session.play turns).2) := by
  induction turns generalizing events session actions with
  | nil =>
      rw [List.map_nil, List.append_nil, play_nil, List.append_nil]
      exact forwards
  | cons turn rest ih =>
      rw [List.map_cons, List.append_cons] at last ⊢
      rw [play_cons, ← List.append_assoc]
      have goesOn := fun other member => goes other (List.mem_cons_of_mem turn member)
      rcases session.take_cases turn with ⟨unused, same⟩ | ⟨_, alive, rule⟩
      · rw [same, List.append_nil]
        exact ih (forwards.ignored unused) accounted goesOn last
      · exact ih (forwards.moved accounted rule (goes turn List.mem_cons_self) last.of_append)
          (rule.accounted alive accounted) goesOn last

theorem delivered (forwards : Forwards request [] session actions) (accounted : Accounted session)
    {chunks : List Bytes} {ended : Bool} {turns : List Turn}
    (delivers : Delivers chunks ended (turns.map Turn.event)) :
    (actions ++ (session.play turns).2).filter Action.toOrigin =
      uploadActions request chunks ended := by
  obtain ⟨first, later, split, connected, upload, goes, others⟩ := delivers
  obtain ⟨first, later, rfl, rfl, rfl⟩ := List.map_eq_append_iff.mp split
  have whole := forwards.play accounted first (by simpa using goes) (eomLast_of_filter upload)
  rw [List.nil_append] at whole
  rw [play_append, ← List.append_assoc, List.filter_append]
  cases whole with
  | held _ _ _ _ unconnected => exact absurd connected unconnected
  | sent old waited _ _ _ done =>
      rw [done, play_unsent old waited later (by simpa using others), List.append_nil,
        ← flatMap_sentOn_filter, upload, flatMap_sentOn_uploadEvents, uploadActions,
        List.cons_append]

end Forwards

/-! ## A whole run -/

theorem play_connects (domain : String) (origin : Option Endpoint) (transform : Option Transform)
    {earlier : List Turn} {cache : ContentCache} {head : RequestHead} {endpoint : Endpoint}
    (connects : .connect endpoint ∈
      (((fresh domain origin transform).play earlier).1.take ⟨cache, .request head⟩).2) :
    (fresh domain origin transform).play earlier = (fresh domain origin transform, []) ∧
      (fresh domain origin transform).take ⟨cache, .request head⟩ =
        ({ fresh domain origin transform with
            method := head.method, path := head.path
            request := some (forwardedHead domain head), state := .connecting },
          [.pauseIngress, .connect endpoint]) := by
  have asked := play_asked domain origin transform earlier
  have before := play_unasked domain origin transform earlier
  generalize (fresh domain origin transform).play earlier = reached at connects asked before ⊢
  rcases reached.1.take_cases ⟨cache, .request head⟩ with ⟨_, same⟩ | ⟨_, alive, rule⟩
  · rw [same] at connects
    cases connects
  · generalize taken : reached.1.take ⟨cache, .request head⟩ = result at connects rule
    cases rule with
    | hit | unserved => simp at connects
    | @asked _ target start =>
        have untouched := (before (asked.unasked start)).resolve_right fun left =>
          Bool.false_ne_true (alive.symm.trans left.2.1)
        subst untouched
        obtain rfl : endpoint = target := by simpa using connects
        exact ⟨rfl, taken⟩

/-- An origin is sent the request and all of the client's body in order, with its end if that has
come.  When it connected makes no difference. -/
theorem origin_sent_whole_upload (domain : String) (origin : Option Endpoint)
    (transform : Option Transform) (earlier : List Turn) (cache : ContentCache)
    (head : RequestHead) (endpoint : Endpoint)
    (connects : .connect endpoint ∈
      (((fresh domain origin transform).play earlier).1.take ⟨cache, .request head⟩).2)
    (chunks : List Bytes) (ended : Bool) :
    let sent := fun turns => ((fresh domain origin transform).play
      (earlier ++ ⟨cache, .request head⟩ :: turns)).2.filter Action.toOrigin
    (∀ turns, Delivers chunks ended (turns.map Turn.event) →
      sent turns = uploadActions (forwardedHead domain head) chunks ended) ∧
    ∀ first second, Delivers chunks ended (first.map Turn.event) →
      Delivers chunks ended (second.map Turn.event) → sent first = sent second := by
  intro sent
  obtain ⟨untouched, asked⟩ := play_connects domain origin transform connects
  have whole : ∀ turns, Delivers chunks ended (turns.map Turn.event) →
      sent turns = uploadActions (forwardedHead domain head) chunks ended := by
    intro turns delivers
    have start : Forwards (forwardedHead domain head) []
        ((fresh domain origin transform).take ⟨cache, .request head⟩).1
        ((fresh domain origin transform).take ⟨cache, .request head⟩).2 := by
      rw [asked]
      exact .held rfl rfl rfl rfl (by simp) (by simp [fresh]) rfl rfl
    have accounted : Accounted ((fresh domain origin transform).take ⟨cache, .request head⟩).1 := by
      have once := play_accounted domain origin transform [⟨cache, .request head⟩]
      rwa [play_cons, play_nil] at once
    simp only [sent, play_append, untouched, play_cons, List.nil_append]
    exact start.delivered accounted delivers
  exact ⟨whole, fun first second one other => (whole first one).trans (whole second other).symm⟩

/-- The origin connects before the client sends its body, or behind all of it. -/
theorem late_origin_sent_the_same :
    let cache : ContentCache := { partitions := [], maxEntries := 1 }
    let head : RequestHead := { method := "POST", uri := .rooted "/" none }
    let early := [.connectSuccess, .clientBody [1], .originHeaders ⟨100, []⟩, .clientBody [2, 3],
      .egressPaused, .clientEom, .originDetached].map (Turn.mk cache)
    let late := [.clientBody [1], .clientBody [2, 3], .clientEom, .connectSuccess,
      .clientError].map (Turn.mk cache)
    let sent := fun turns => ((fresh "example.com" (some ⟨"10.0.0.1", 80⟩) none).play
      (⟨cache, .request head⟩ :: turns)).2.filter Action.toOrigin
    sent early = sent late ∧
      sent late = uploadActions (forwardedHead "example.com" head) [[1], [2, 3]] true := by
  intro cache head early late sent
  have first : Delivers [[1], [2, 3]] true (early.map Turn.event) :=
    ⟨[.connectSuccess, .clientBody [1], .originHeaders ⟨100, []⟩, .clientBody [2, 3],
      .egressPaused, .clientEom], [.originDetached], by decide⟩
  have second : Delivers [[1], [2, 3]] true (late.map Turn.event) :=
    ⟨[.clientBody [1], .clientBody [2, 3], .clientEom, .connectSuccess], [.clientError], by decide⟩
  obtain ⟨whole, same⟩ := origin_sent_whole_upload "example.com" (some ⟨"10.0.0.1", 80⟩) none []
    cache head ⟨"10.0.0.1", 80⟩ (by decide) [[1], [2, 3]] true
  exact ⟨same early late first second, whole late second⟩

end CachingProxy.Session
