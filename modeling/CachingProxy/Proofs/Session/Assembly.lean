import CachingProxy.Proofs.Session.Progress

/-!
# How an answer is assembled and stored

The answer to a GET is kept until the origin has ended it, then sent in one piece and, with status
200, stored.  `received` reads off the events what the origin has sent since its last head; a
session that streams the answer to a GET keeps just that (`Assembled`).
-/

set_option autoImplicit false

namespace CachingProxy.Session

/-! ## What the origin has sent -/

/-- The last head of an origin and the chunks that came after it. -/
structure Received where
  head? : Option ResponseHead := none
  chunks : List Bytes := []

def Received.add (sofar : Received) : Event → Received
  | .originHeaders head => ⟨some head, []⟩
  | .originBody chunk => { sofar with chunks := sofar.chunks ++ [chunk] }
  | _ => sofar

def received (events : List Event) : Received := events.foldl Received.add {}

def Received.body (sofar : Received) : Bytes := Bytes.concat sofar.chunks

theorem received_concat (events : List Event) (event : Event) :
    received (events ++ [event]) = (received events).add event := by
  rw [received, List.foldl_append]
  rfl

theorem body_add_chunk (sofar : Received) (chunk : Bytes) :
    (sofar.add (.originBody chunk)).body = sofar.body ++ chunk := by
  simp [Received.body, Received.add, Bytes.concat]

/-! ## What a session keeps of it -/

structure Assembled (events : List Event) (session : Session) : Prop where
  unbegun : session.method = "GET" → session.progress ≠ .streaming
  kept : session.state = .streaming → session.method = "GET" → ∃ head,
    (received events).head? = some head ∧
      session.responseHead = some { head with headers := head.headers.stripResponse } ∧
      session.responseBody = some (received events).body

namespace Assembled

variable {events : List Event} {event : Event} {session next : Session}

theorem carried (assembled : Assembled events session)
    (quiet : (received events).add event = received events)
    (method : next.method = session.method)
    (unbegun : next.progress = .streaming → session.progress = .streaming)
    (running : next.state = .streaming → session.state = .streaming)
    (head : next.responseHead = session.responseHead)
    (body : next.responseBody = session.responseBody) :
    Assembled (events ++ [event]) next := by
  constructor
  · intro get begun
    exact assembled.unbegun (method ▸ get) (unbegun begun)
  · intro streams get
    rw [received_concat, quiet, head, body]
    exact assembled.kept (running streams) (method ▸ get)

theorem stopped (assembled : Assembled events session)
    (method : next.method = session.method)
    (unbegun : next.progress = .streaming → session.progress = .streaming)
    (halted : next.state ≠ .streaming) : Assembled (events ++ [event]) next :=
  ⟨fun get begun => assembled.unbegun (method ▸ get) (unbegun begun),
    fun streams => absurd streams halted⟩

theorem ignored (assembled : Assembled events session) (accounted : Accounted session)
    (unused : session.ignores event = true) : Assembled (events ++ [event]) session := by
  cases event with
  | originHeaders head =>
      refine assembled.stopped rfl id fun streams => ?_
      obtain ⟨attached, undone⟩ := accounted.running streams
      have alive := accounted.alive (by rw [streams]; simp)
      simp [ignores, alive, originOpen, attached, undone] at unused
  | originBody chunk =>
      refine ⟨assembled.unbegun, fun streams get => ?_⟩
      obtain ⟨_, _, _, kept⟩ := assembled.kept streams get
      have alive := accounted.alive (by rw [streams]; simp)
      simp [ignores, alive, streams, kept] at unused
  | _ => exact assembled.carried rfl rfl id id rfl rfl

end Assembled

theorem Moves.assembled {cache : ContentCache} {session : Session} {event : Event}
    {result : Session × List Action} {events : List Event}
    (rule : Moves cache session event result) (alive : session.released = false)
    (accounted : Accounted session) (assembled : Assembled events session) :
    Assembled (events ++ [event]) result.1 := by
  cases rule with
  | hit | unserved => exact ⟨by simp, by simp⟩
  | asked start =>
      refine ⟨fun _ => ?_, by simp⟩
      rw [accounted.unbegun (.inl start)]
      simp
  | unconnectedAlone waiting gone =>
      exact absurd gone (accounted.present_of_waiting alive waiting)
  | bodyHeld | bodyForwarded | eomHeld | eomForwarded | completed | detachedDone | paused
  | resumed => exact assembled.carried rfl rfl id id rfl rfl
  | headersKept _ _ get =>
      refine ⟨assembled.unbegun, fun _ _ => ⟨_, ?_, rfl, ?_⟩⟩ <;> rw [received_concat] <;> rfl
  | headersUnseen _ _ other =>
      exact ⟨fun get => absurd get other, fun _ get => absurd get other⟩
  | headersSent _ _ other =>
      exact ⟨fun get => absurd get other, fun _ get => absurd get other⟩
  | bodyKept _ kept =>
      refine ⟨assembled.unbegun, fun streams get => ?_⟩
      obtain ⟨head, last, keptHead, keptBody⟩ := assembled.kept streams get
      refine ⟨head, ?_, keptHead, ?_⟩
      · rw [received_concat]
        exact last
      · rw [received_concat, body_add_chunk, ← Option.some.inj (kept.symm.trans keptBody)]
  | bodySent _ unkept =>
      refine ⟨assembled.unbegun, fun streams get => ?_⟩
      obtain ⟨_, _, _, kept⟩ := assembled.kept streams get
      exact absurd (unkept.symm.trans kept) (by simp)
  | unconnected | endSent | endAnswered | endMissing | failedUnanswered | detachedUnanswered =>
      exact assembled.stopped rfl (by simp) (by simp)
  | connected | completedLast | left | leftLast | endUnseen | failedUnseen | failedBegun
  | detachedLast | detachedBegun => exact assembled.stopped rfl id (by simp)

theorem play_assembled (domain : String) (origin : Option Endpoint)
    (transform : Option Transform) (turns : List Turn) :
    Assembled (turns.map Turn.event) ((fresh domain origin transform).play turns).1 := by
  refine (play_rule_induction (motive := fun turns session _ =>
    Assembled (turns.map Turn.event) session) domain origin transform
    ⟨by simp [fresh], by simp [fresh]⟩ ?_ ?_ turns).2
  · intro turns session _ turn accounted unused assembled
    rw [List.map_append]
    exact assembled.ignored accounted unused
  · intro turns session _ turn result accounted alive rule assembled
    rw [List.map_append]
    exact rule.assembled alive accounted assembled

end CachingProxy.Session
