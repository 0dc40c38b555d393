import CachingProxy.Proofs.Exchange.Streams
import Mathlib.Data.List.Infix

/-!
# What a body tells its two sides

A body is fed, read and dropped in any order.  Its notes are the events with their outcomes, from
which it is read off what was accepted, what was read and how the sender went (`Recorded`).  What a
frame says of the stream, and what the drop reports of the delivery, is true of the notes
(`delivery_told_truthfully`).
-/

set_option autoImplicit false

namespace CachingProxy.Body

/-! ## Notes -/

/-- An event and what came of it. -/
abbrev Note := Event × Outcome

def notes (body : Body) (events : List Event) : List Note := events.zip (body.run events).1

def accepted? : Note → Option Bytes
  | (.trySend chunk, .sent .accepted) | (.send chunk, .awaited .accepted) => some chunk
  | _ => none

def accepted (notes : List Note) : List Bytes := notes.filterMap accepted?

def read : Note → List Bytes
  | (_, .frame frame) => frame.chunks
  | _ => []

def yielded (notes : List Note) : List Bytes := notes.flatMap read

def reports (notes : List Note) : List Delivery := notes.filterMap fun note => note.2.report?

def SenderDropped (notes : List Note) : Prop := (.dropSender, .done) ∈ notes

def SenderAborted (notes : List Note) : Prop := (.abort, .done) ∈ notes

/-- All that was accepted was read, and no more will come. -/
def Whole (notes : List Note) : Prop := yielded notes = accepted notes ∧ SenderDropped notes

def Reached (length : Option Nat) (notes : List Note) : Prop :=
  ∃ declared, length = some declared ∧ declared ≤ (Bytes.concat (yielded notes)).length

theorem length_run (body : Body) (events : List Event) :
    (body.run events).1.length = events.length := by
  induction events generalizing body with
  | nil => rfl
  | cons event rest ih => exact congrArg (· + 1) (ih _)

theorem run_cons (body : Body) (event : Event) (rest : List Event) :
    body.run (event :: rest) =
      ((body.step event).1 :: ((body.step event).2.run rest).1,
        ((body.step event).2.run rest).2) := rfl

theorem run_concat (body : Body) (events : List Event) (event : Event) :
    body.run (events ++ [event]) =
      ((body.run events).1 ++ [((body.run events).2.step event).1],
        ((body.run events).2.step event).2) := by
  induction events generalizing body with
  | nil => rfl
  | cons first rest ih => rw [List.cons_append, run_cons, run_cons, ih, List.cons_append]

theorem notes_concat (body : Body) (events : List Event) (event : Event) :
    body.notes (events ++ [event]) =
      body.notes events ++ [(event, ((body.run events).2.step event).1)] := by
  rw [notes, run_concat, List.zip_append (body.length_run events).symm]
  rfl

/-- What holds of a body without notes and is kept by each of its steps holds behind every run. -/
theorem notes_induction {motive : List Note → Body → Prop} {body : Body} {before : List Note}
    (start : motive before body) (events : List Event)
    (carried : ∀ notes body, motive notes body → ∀ event,
      motive (notes ++ [(event, (body.step event).1)]) (body.step event).2) :
    motive (before ++ body.notes events) (body.run events).2 := by
  induction events using List.reverseRecOn with
  | nil => simpa [notes, run] using start
  | append_singleton events event ih =>
      rw [run_concat, notes_concat, ← List.append_assoc]
      exact carried _ _ ih event

section Latest

variable (notes : List Note) (note : Note)

theorem accepted_concat :
    accepted (notes ++ [note]) = accepted notes ++ (accepted? note).toList := by
  rw [accepted, List.filterMap_append]
  cases told : accepted? note <;> simp [accepted, told]

theorem yielded_concat : yielded (notes ++ [note]) = yielded notes ++ read note := by
  simp [yielded]

theorem reports_append (more : List Note) :
    reports (notes ++ more) = reports notes ++ reports more := List.filterMap_append

theorem reports_concat : reports (notes ++ [note]) = reports notes ++ note.2.report?.toList := by
  rw [reports_append]
  cases told : note.2.report? <;> simp [reports, told]

end Latest

theorem accepted?_sent (chunk : Bytes) (sent : Sent) :
    accepted? (.trySend chunk, .sent sent) = (if sent = .accepted then some chunk else none) ∧
      accepted? (.send chunk, .awaited sent) = if sent = .accepted then some chunk else none := by
  cases sent <;> exact ⟨rfl, rfl⟩

/-! ## The body behind its notes -/

/-- A stream after what its notes say has happened to it. -/
structure Recorded (length : Option Nat) (notes : List Note) (body : Body) : Prop where
  carried : ∃ channel, body.content = .stream channel ∧
    accepted notes = yielded notes ++ channel.queue ∧
    (channel.sending = false ↔ SenderDropped notes ∨ SenderAborted notes) ∧
    (channel.aborted = true ↔ SenderAborted notes)
  /-- The sender goes in one way. -/
  once : SenderDropped notes → ¬ SenderAborted notes
  counted : body.remaining =
    length.map fun declared => declared - (Bytes.concat (yielded notes)).length
  finished : body.finished = true → body.isDrained = true ∨ Reached length notes
  reached : Reached length notes → body.finished = true

theorem sender_concat {notes : List Note} {event : Event} {outcome : Outcome} :
    (SenderDropped (notes ++ [(event, outcome)]) ↔
      SenderDropped notes ∨ (event = .dropSender ∧ outcome = .done)) ∧
    (SenderAborted (notes ++ [(event, outcome)]) ↔
      SenderAborted notes ∨ (event = .abort ∧ outcome = .done)) := by
  simp [SenderDropped, SenderAborted, eq_comm]

theorem isDrained_of_stream {body : Body} {channel : Channel}
    (stream : body.content = .stream channel) :
    body.isDrained = (!channel.sending && channel.queue.isEmpty && !channel.aborted) := by
  rw [isDrained, stream]

namespace Recorded

variable {length : Option Nat} {notes : List Note} {body next : Body} {event : Event}
  {outcome : Outcome}

theorem start (capacity : Nat) : Recorded none [] (ofCapacity capacity) where
  carried := ⟨_, rfl, rfl, by simp [SenderDropped, SenderAborted], by simp [SenderAborted]⟩
  once := by simp [SenderDropped]
  counted := rfl
  finished := by simp [ofCapacity]
  reached := by simp [Reached]

theorem declare (recorded : Recorded none notes body) (unread : yielded notes = [])
    (declared : Nat) : Recorded (some declared) notes (body.withLength declared) := by
  obtain ⟨channel, stream, carried⟩ := recorded.carried
  have reached : Reached (some declared) notes ↔ declared = 0 := by
    simp [Reached, unread, Bytes.concat]
  have same : body.withLength declared =
      { body with remaining := some declared, finished := declared == 0 } := by
    rw [withLength, stream]
  rw [same]
  refine ⟨⟨channel, stream, carried⟩, recorded.once, ?_, fun finished => ?_, fun all => ?_⟩
  · simp [unread, Bytes.concat]
  · exact .inr (reached.mpr (by simpa using finished))
  · simpa using reached.mp all

theorem moved (recorded : Recorded length notes body) {channel after : Channel}
    (stream : body.content = .stream channel) (content : next.content = .stream after)
    (undone : outcome ≠ .done) (sending : after.sending = channel.sending)
    (aborted : after.aborted = channel.aborted)
    (queued : channel.queue ++ (accepted? (event, outcome)).toList =
      read (event, outcome) ++ after.queue)
    (counted : next.remaining =
      body.remaining.map fun left => left - (Bytes.concat (read (event, outcome))).length)
    (finished : next.finished = true →
      next.isDrained = true ∨ Reached length (notes ++ [(event, outcome)]))
    (reached : Reached length (notes ++ [(event, outcome)]) → next.finished = true) :
    Recorded length (notes ++ [(event, outcome)]) next := by
  obtain ⟨held, known, carried, gone, broken⟩ := recorded.carried
  obtain rfl : channel = held := Content.stream.inj (stream.symm.trans known)
  have stays : SenderDropped (notes ++ [(event, outcome)]) ↔ SenderDropped notes := by
    simp [sender_concat.1, undone]
  have unbroken : SenderAborted (notes ++ [(event, outcome)]) ↔ SenderAborted notes := by
    simp [sender_concat.2, undone]
  refine ⟨⟨after, content, ?_, ?_, ?_⟩, ?_, ?_, finished, reached⟩
  · rw [accepted_concat, yielded_concat, carried, List.append_assoc, queued, List.append_assoc]
  · rw [sending, stays, unbroken]
    exact gone
  · rw [aborted, unbroken]
    exact broken
  · rw [stays, unbroken]
    exact recorded.once
  · rw [counted, recorded.counted, yielded_concat, Option.map_map]
    congr 1
    funext declared
    simp only [Function.comp, Bytes.concat, List.flatMap_append, List.length_append]
    omega

theorem quiet (recorded : Recorded length notes body) (undone : outcome ≠ .done)
    (unsent : accepted? (event, outcome) = none) (unread : read (event, outcome) = [])
    (content : next.content = body.content) (remaining : next.remaining = body.remaining)
    (finished : next.finished = true → body.finished = true ∨ body.isDrained = true)
    (kept : body.finished = true → next.finished = true) :
    Recorded length (notes ++ [(event, outcome)]) next := by
  obtain ⟨channel, stream, -⟩ := recorded.carried
  have drained : next.isDrained = body.isDrained := by rw [isDrained, content, isDrained]
  have reached : Reached length (notes ++ [(event, outcome)]) ↔ Reached length notes := by
    rw [Reached, yielded_concat, unread, List.append_nil, Reached]
  refine recorded.moved stream (content.trans stream) undone rfl rfl ?_ ?_ ?_ ?_
  · rw [unsent, unread, Option.toList_none, List.append_nil, List.nil_append]
  · rw [remaining, unread]
    simp [Bytes.concat]
  · rw [drained, reached]
    intro now
    rcases finished now with before | empty
    · exact recorded.finished before
    · exact .inl empty
  · rw [reached]
    exact fun all => kept (recorded.reached all)

theorem offer (recorded : Recorded length notes body) (sender : body.hasSender = true)
    (chunk : Bytes) (undone : outcome ≠ .done) (unread : read (event, outcome) = [])
    (told : accepted? (event, outcome) =
      if (body.trySend chunk).1 = .accepted then some chunk else none) :
    Recorded length (notes ++ [(event, outcome)]) (body.trySend chunk).2 := by
  obtain ⟨channel, stream, -⟩ := recorded.carried
  have undrained : body.isDrained = false := by
    rw [hasSender, stream] at sender
    simp [isDrained_of_stream stream, sender]
  rcases trySend_cases stream chunk with ⟨_, same⟩ | ⟨_, same | same⟩ <;> rw [same] at told ⊢
  · exact recorded.quiet undone told unread rfl rfl .inl id
  · exact recorded.quiet undone told unread rfl rfl .inl id
  · have reached : Reached length (notes ++ [(event, outcome)]) ↔ Reached length notes := by
      rw [Reached, yielded_concat, unread, List.append_nil, Reached]
    refine recorded.moved stream rfl undone rfl rfl ?_ ?_ ?_ ?_
    · rw [told, unread]
      rfl
    · simp [unread, Bytes.concat]
    · rw [reached]
      intro before
      exact .inr ((recorded.finished before).resolve_left (by simp [undrained]))
    · rw [reached]
      exact recorded.reached

theorem counts (recorded : Recorded length notes body) {channel : Channel} {chunk : Bytes}
    {rest : List Bytes} (stream : body.content = .stream channel)
    (queue : channel.queue = chunk :: rest) :
    Recorded length (notes ++ [(.poll, .frame (.data chunk))])
      ({ body with content := .stream { channel with queue := rest } }.countDown
        chunk.length) := by
  have undrained : body.isDrained = false := by simp [isDrained_of_stream stream, queue]
  have queued : channel.queue ++ (accepted? (.poll, .frame (.data chunk))).toList =
      read (.poll, .frame (.data chunk)) ++ rest := by
    simp [queue, accepted?, read, Frame.chunks]
  have counted := recorded.counted
  rw [countDown]
  cases length with
  | none =>
      rw [Option.map_none] at counted
      simp only [counted]
      refine recorded.moved stream rfl (by simp) rfl rfl queued (by simp [counted]) ?_ ?_
      · intro before
        rcases recorded.finished before with empty | ⟨_, known, -⟩
        · exact absurd empty (by simp [undrained])
        · cases known
      · rintro ⟨_, known, -⟩
        cases known
  | some declared =>
      rw [Option.map_some] at counted
      simp only [counted]
      have reached : Reached (some declared) (notes ++ [(.poll, .frame (.data chunk))]) ↔
          declared - (Bytes.concat (yielded notes)).length - chunk.length = 0 := by
        have size : (Bytes.concat (yielded (notes ++ [(.poll, .frame (.data chunk))]))).length =
            (Bytes.concat (yielded notes)).length + chunk.length := by
          simp [yielded_concat, read, Frame.chunks, Bytes.concat]
        rw [Reached, size]
        simp only [Option.some.injEq, exists_eq_left']
        omega
      refine recorded.moved stream rfl (by simp) rfl rfl queued ?_ ?_ ?_
      · simp [counted, read, Frame.chunks, Bytes.concat]
      · intro now
        exact .inr (reached.mpr (by simpa using now))
      · intro all
        simpa using reached.mp all

theorem polled (recorded : Recorded length notes body) :
    Recorded length (notes ++ [(.poll, .frame body.poll.1)]) body.poll.2 := by
  obtain ⟨channel, stream, -⟩ := recorded.carried
  rw [poll, stream]
  cases queue : channel.queue with
  | cons chunk rest =>
      simp only [queue]
      exact recorded.counts stream queue
  | nil =>
      simp only [queue]
      split
      · exact recorded.quiet (by simp) rfl rfl rfl rfl .inl id
      · rename_i gone
        split
        · exact recorded.quiet (by simp) rfl rfl rfl rfl .inl id
        · rename_i unbroken
          have drained : body.isDrained = true := by
            simp [isDrained_of_stream stream, queue, gone, unbroken]
          exact recorded.quiet (by simp) rfl rfl stream.symm rfl (fun _ => .inr drained)
            fun _ => rfl

theorem present (recorded : Recorded length notes body) (sender : body.hasSender = true)
    {channel : Channel} (stream : body.content = .stream channel) :
    channel.sending = true ∧ channel.aborted = false ∧ ¬ SenderDropped notes ∧
      ¬ SenderAborted notes := by
  obtain ⟨held, known, -, gone, aborted⟩ := recorded.carried
  obtain rfl : channel = held := Content.stream.inj (stream.symm.trans known)
  have sending : channel.sending = true := by simpa [hasSender, stream] using sender
  have stays : ¬ (SenderDropped notes ∨ SenderAborted notes) := by simp [← gone, sending]
  obtain ⟨undropped, unaborted⟩ := not_or.mp stays
  refine ⟨sending, ?_, undropped, unaborted⟩
  rw [← aborted] at unaborted
  exact Bool.eq_false_iff.mpr unaborted

theorem leave (recorded : Recorded length notes body) (sender : body.hasSender = true)
    {channel after : Channel} (stream : body.content = .stream channel)
    (queued : after.queue = channel.queue) (gone : after.sending = false)
    (goes : event = if after.aborted then .abort else .dropSender) :
    Recorded length (notes ++ [(event, .done)]) { body with content := .stream after } := by
  obtain ⟨sending, -, undropped, unaborted⟩ := recorded.present sender stream
  obtain ⟨held, known, carried, -⟩ := recorded.carried
  obtain rfl : channel = held := Content.stream.inj (stream.symm.trans known)
  have unread : read (event, .done) = [] := rfl
  have unsent : accepted? (event, .done) = none := by
    rw [goes]
    cases after.aborted <;> rfl
  have undrained : body.isDrained = false := by simp [isDrained_of_stream stream, sending]
  have reached : Reached length (notes ++ [(event, .done)]) ↔ Reached length notes := by
    rw [Reached, yielded_concat, unread, List.append_nil, Reached]
  constructor
  · refine ⟨_, rfl, ?_, ?_, ?_⟩
    · rw [accepted_concat, yielded_concat, unsent, unread, Option.toList_none, List.append_nil,
        List.append_nil, queued]
      exact carried
    · cases broken : after.aborted <;> simp [sender_concat, goes, gone, broken]
    · cases broken : after.aborted <;> simp [sender_concat, goes, broken, unaborted]
  · cases broken : after.aborted <;> simp [sender_concat, goes, broken, undropped, unaborted]
  · rw [yielded_concat, unread, List.append_nil]
    exact recorded.counted
  · intro before
    rw [reached]
    exact .inr ((recorded.finished before).resolve_left (by simp [undrained]))
  · rw [reached]
    exact recorded.reached

theorem step (recorded : Recorded length notes body) (event : Event) :
    Recorded length (notes ++ [(event, (body.step event).1)]) (body.step event).2 := by
  obtain ⟨channel, stream, -⟩ := recorded.carried
  have ignored : Recorded length (notes ++ [(event, .gone)]) body :=
    recorded.quiet (by simp) (by cases event <;> rfl) rfl rfl rfl .inl id
  cases event with
  | trySend chunk =>
      rw [Body.step]
      split
      · rename_i sender
        exact recorded.offer sender chunk (by simp) rfl (accepted?_sent ..).1
      · exact ignored
  | send chunk =>
      rw [Body.step]
      split
      · rename_i sender
        exact recorded.offer sender chunk (by simp) rfl (accepted?_sent ..).2
      · exact ignored
  | ready =>
      rw [Body.step]
      split
      · exact recorded.quiet (by simp) rfl rfl rfl rfl .inl id
      · exact ignored
  | dropSender =>
      rw [Body.step]
      split
      · rename_i sender
        have unbroken := (recorded.present sender stream).2.1
        rw [dropSender, stream]
        exact recorded.leave sender stream rfl rfl (by simp [unbroken])
      · exact ignored
  | abort =>
      rw [Body.step]
      split
      · rename_i sender
        rw [abort, stream]
        exact recorded.leave sender stream rfl rfl rfl
      · exact ignored
  | poll =>
      rw [Body.step]
      split
      · exact ignored
      · exact recorded.polled
  | drop =>
      rw [Body.step]
      split
      · exact ignored
      · rename_i present
        rw [drop, if_neg present]
        exact recorded.quiet (by simp) rfl rfl rfl rfl .inl id

theorem behind (recorded : Recorded length notes body) (events : List Event) :
    Recorded length (notes ++ body.notes events) (body.run events).2 :=
  notes_induction recorded events fun _ _ => step

theorem inOrder (recorded : Recorded length notes body) : yielded notes <+: accepted notes := by
  obtain ⟨channel, -, carried, -⟩ := recorded.carried
  rw [carried]
  exact List.prefix_append ..

theorem isDrained_iff (recorded : Recorded length notes body) :
    body.isDrained = true ↔ Whole notes := by
  obtain ⟨channel, stream, carried, gone, aborted⟩ := recorded.carried
  have unaborted : channel.aborted = false ↔ ¬ SenderAborted notes := by
    rw [← aborted, Bool.not_eq_true]
  have left : SenderDropped notes ↔
      (SenderDropped notes ∨ SenderAborted notes) ∧ ¬ SenderAborted notes := by
    have once := recorded.once
    tauto
  rw [isDrained_of_stream stream, Whole, left, carried, List.self_eq_append_right, ← gone,
    ← unaborted]
  simp [and_comm, and_left_comm, and_assoc]

/-- Every accepted chunk is read, in order, before a frame tells how the sender went. -/
theorem poll_tells (recorded : Recorded length notes body) :
    ((∃ chunk, body.poll.1 = .data chunk) ↔ yielded notes ≠ accepted notes) ∧
    (body.poll.1 = .ended ↔ Whole notes) ∧
    (∀ cause, body.poll.1 = .failed cause ↔
      cause = Body.aborted ∧ yielded notes = accepted notes ∧ SenderAborted notes) := by
  obtain ⟨channel, stream, carried, gone, aborted⟩ := recorded.carried
  have unsent : channel.aborted = true → channel.sending = false :=
    fun broken => gone.mpr (.inr (aborted.mp broken))
  rw [← recorded.isDrained_iff, isDrained_of_stream stream, ← aborted, carried, Ne,
    List.self_eq_append_right]
  rcases poll_cases stream with ⟨chunk, rest, queue, reads, -⟩ | ⟨queue, -, reads⟩
  · simp [reads, queue]
  · rw [reads, queue]
    cases broken : channel.aborted with
    | true =>
        rw [unsent broken]
        simpa using fun cause => eq_comm
    | false => cases channel.sending <;> simp

/-- A drop reports a complete delivery if the stream was read whole, or to its declared length. -/
theorem delivered_iff (recorded : Recorded length notes body) :
    (body.finished || body.isDrained) = true ↔ Whole notes ∨ Reached length notes := by
  rw [Bool.or_eq_true, ← recorded.isDrained_iff]
  constructor
  · rintro (finished | drained)
    · exact recorded.finished finished
    · exact .inl drained
  · rintro (drained | reached)
    · exact .inr drained
    · exact .inl (recorded.reached reached)

theorem finished_of_isEndStream (recorded : Recorded length notes body)
    (ended : body.isEndStream = true) : body.finished = true := by
  obtain ⟨channel, stream, -⟩ := recorded.carried
  rwa [isEndStream, stream] at ended

end Recorded

/-! ## Reports -/

theorem dropped_step (body : Body) (event : Event) :
    (body.step event).2.dropped = (body.dropped || event == .drop) := by
  cases event with
  | trySend chunk =>
      rw [step]
      split <;> simp [dropped_trySend]
  | send chunk =>
      rw [step]
      split <;> simp [dropped_trySend]
  | ready =>
      rw [step]
      split <;> simp
  | dropSender =>
      rw [step]
      split <;> simp [dropped_dropSender]
  | abort =>
      rw [step]
      split <;> simp [dropped_abort]
  | poll =>
      rw [step]
      split <;> simp [dropped_poll]
  | drop =>
      rw [step]
      split <;> simp_all [dropped_drop]

theorem dropped_withLength (body : Body) (length : Nat) :
    (body.withLength length).dropped = body.dropped := by
  rw [withLength]
  split <;> rfl

theorem report_step (body : Body) (event : Event) :
    (body.step event).1.report? = if event = .drop ∧ body.dropped = false then
      some (if body.finished || body.isDrained then .complete else .aborted) else none := by
  cases event with
  | drop =>
      rw [step, drop]
      cases body.dropped <;> rfl
  | _ =>
      rw [if_neg (by simp), step]
      split <;> rfl

theorem yielded_unpolled (body : Body) (events : List Event) (unpolled : .poll ∉ events) :
    yielded (body.notes events) = [] := by
  induction events using List.reverseRecOn with
  | nil => rfl
  | append_singleton events event ih =>
      obtain ⟨before, other⟩ : .poll ∉ events ∧ event ≠ .poll := by
        simpa [eq_comm] using unpolled
      rw [notes_concat, yielded_concat, ih before, List.nil_append]
      cases event with
      | poll => exact absurd rfl other
      | _ =>
          rw [step]
          split <;> rfl

theorem report_of_told {body : Body} {event : Event} {report : Delivery}
    (told : (body.step event).1.report? = some report) :
    event = .drop ∧ (report = .complete ↔ (body.finished || body.isDrained) = true) := by
  rw [report_step, Option.ite_none_right_eq_some] at told
  obtain ⟨⟨drops, -⟩, reported⟩ := told
  refine ⟨drops, ?_⟩
  rw [← Option.some.inj reported]
  cases body.finished || body.isDrained <;> simp

theorem poll_of_frame {body : Body} {frame : Frame} (reads : (body.step .poll).1 = .frame frame) :
    frame = body.poll.1 := by
  rw [step] at reads
  split at reads
  · cases reads
  · exact (Outcome.frame.inj reads).symm

section Once

variable {body : Body} (present : body.dropped = false) (events : List Event)
include present

theorem dropped_run : (body.run events).2.dropped = decide (.drop ∈ events) := by
  induction events using List.reverseRecOn with
  | nil => simpa [run] using present
  | append_singleton events event ih =>
      rw [run_concat, dropped_step, ih, Bool.beq_eq_decide_eq]
      simp [eq_comm]

theorem reports_run : (reports (body.notes events)).length = if .drop ∈ events then 1 else 0 := by
  induction events using List.reverseRecOn with
  | nil => rfl
  | append_singleton events event ih =>
      rw [notes_concat, reports_concat, List.length_append, ih, report_step,
        dropped_run present]
      by_cases dropped : .drop ∈ events
      · simp [dropped]
      · by_cases drops : event = .drop
        · simp [dropped, drops]
        · simp [dropped, drops, Ne.symm drops]

end Once

/-! ## Complete buffers -/

theorem withLength_full (bytes : Bytes) (length : Nat) :
    (full bytes).withLength length = full bytes := by
  rw [full]
  split <;> rfl

theorem full_run (bytes : Bytes) (events : List Event) (present : .drop ∉ events) :
    ((full bytes).run events).2.finished = decide (bytes = [] ∨ .poll ∈ events) ∧
      ∃ left, ((full bytes).run events).2.content = .full left := by
  induction events using List.reverseRecOn with
  | nil =>
      rw [run, full]
      cases bytes <;> simp
  | append_singleton events event ih =>
      obtain ⟨before, drops⟩ : .drop ∉ events ∧ event ≠ .drop := by
        simpa [eq_comm] using present
      obtain ⟨finished, left, content⟩ := ih before
      have there : ((full bytes).run events).2.dropped = false := by
        rw [dropped_run (by rw [full]; split <;> rfl)]
        simpa using before
      rw [run_concat]
      generalize ((full bytes).run events).2 = body at *
      have nothing : body.hasSender = false := by rw [hasSender, content]
      cases event with
      | poll =>
          rw [step, there, poll, content]
          cases left <;> simp
      | drop => exact absurd rfl drops
      | _ =>
          rw [step, nothing]
          exact ⟨by simpa using finished, left, content⟩

/-! ## Delivery reports -/

/-- What is read of a stream is, in order, a first part of what was accepted.  A frame tells that
the sender went, by a drop or by an abort, only behind the last accepted chunk.  The drop reports
once, and a complete delivery exactly if the stream was read whole or to its declared length; a
stream that says it has ended would report no less.  A buffer is delivered if it is empty or was
polled. -/
theorem delivery_told_truthfully :
    (∀ (capacity : Nat) (early : List Event) (length : Option Nat) (events : List Event),
      .poll ∉ early → .drop ∉ early →
      let fed := ((ofCapacity capacity).run early).2
      let opened := length.elim fed fed.withLength
      let notes := (ofCapacity capacity).notes early ++ opened.notes events
      let body := (opened.run events).2
      yielded notes <+: accepted notes ∧
      (∀ frame, (body.step .poll).1 = .frame frame →
        ((∃ chunk, frame = .data chunk) ↔ yielded notes ≠ accepted notes) ∧
        (frame = .ended ↔ Whole notes) ∧
        (∀ cause, frame = .failed cause ↔
          cause = Body.aborted ∧ yielded notes = accepted notes ∧ SenderAborted notes)) ∧
      (reports notes).length = (if .drop ∈ events then 1 else 0) ∧
      (∀ event report, (body.step event).1.report? = some report →
        event = .drop ∧ (report = .complete ↔ Whole notes ∨ Reached length notes)) ∧
      (body.isEndStream = true → .drop ∉ events →
        (body.step .drop).1 = .delivered (some .complete))) ∧
    (∀ (bytes : Bytes) (length : Option Nat) (events : List Event),
      let opened := length.elim (full bytes) (full bytes).withLength
      let body := (opened.run events).2
      (reports (opened.notes events)).length = (if .drop ∈ events then 1 else 0) ∧
      (∀ event report, (body.step event).1.report? = some report →
        event = .drop ∧ (report = .complete ↔ bytes = [] ∨ .poll ∈ events))) := by
  constructor
  · intro capacity early length events unpolled undropped fed opened notes body
    have unread : yielded ((ofCapacity capacity).notes early) = [] :=
      yielded_unpolled _ early unpolled
    have untold : reports ((ofCapacity capacity).notes early) = [] := by
      rw [← List.length_eq_zero_iff, reports_run rfl, if_neg undropped]
    have recorded : Recorded none ((ofCapacity capacity).notes early) fed :=
      (Recorded.start capacity).behind early
    have there : fed.dropped = false := by
      rw [dropped_run rfl]
      exact decide_eq_false undropped
    obtain ⟨started, present⟩ :
        Recorded length ((ofCapacity capacity).notes early) opened ∧ opened.dropped = false := by
      cases length with
      | none => exact ⟨recorded, there⟩
      | some declared =>
          exact ⟨recorded.declare unread declared, (dropped_withLength fed declared).trans there⟩
    have behind : Recorded length notes body := started.behind events
    refine ⟨behind.inOrder, fun frame reads => ?_, ?_, fun event report told => ?_,
      fun ended dropless => ?_⟩
    · rw [poll_of_frame reads]
      exact behind.poll_tells
    · rw [reports_append, untold, List.nil_append]
      exact reports_run present events
    · rw [← behind.delivered_iff]
      exact report_of_told told
    · have complete : (body.finished || body.isDrained) = true := by
        rw [behind.finished_of_isEndStream ended, Bool.true_or]
      rw [step, dropped_run present, decide_eq_false dropless, drop,
        dropped_run present, decide_eq_false dropless, complete]
      rfl
  · intro bytes length events opened body
    have same : opened = full bytes := by
      cases length with
      | none => rfl
      | some declared => exact withLength_full bytes declared
    have present : opened.dropped = false := by
      rw [same, full]
      split <;> rfl
    refine ⟨reports_run present events, fun event report told => ?_⟩
    obtain ⟨drops, complete⟩ := report_of_told told
    refine ⟨drops, complete.trans ?_⟩
    rw [report_step] at told
    obtain ⟨⟨-, there⟩, -⟩ := Option.ite_none_right_eq_some.mp told
    rw [dropped_run present, decide_eq_false_iff_not] at there
    have buffered := full_run bytes events there
    rw [← same] at buffered
    obtain ⟨finished, left, content⟩ := buffered
    rw [isDrained, content, finished]
    simp

/-- The connection stops reading at the declared length, with the sender still there and a chunk
unread. -/
theorem declared_length_read :
    let early : List Event := [.trySend [1, 2]]
    let events : List Event := [.trySend [3], .poll, .poll, .trySend [4]]
    let fed := ((ofCapacity 2).run early).2
    let opened := fed.withLength 3
    let notes := (ofCapacity 2).notes early ++ opened.notes events
    let body := (opened.run events).2
    .poll ∉ early ∧ .drop ∉ early ∧ body.isEndStream = true ∧ .drop ∉ events ∧
      yielded notes = [[1, 2], [3]] ∧ accepted notes = [[1, 2], [3], [4]] ∧
      (body.step .drop).1 = .delivered (some .complete) := by
  intro early events fed opened notes body
  have unpolled : .poll ∉ early := by decide
  have undropped : .drop ∉ early := by decide
  have ended : body.isEndStream = true := by decide
  have dropless : .drop ∉ events := by decide
  obtain ⟨-, -, -, -, complete⟩ :=
    delivery_told_truthfully.1 2 early (some 3) events unpolled undropped
  exact ⟨unpolled, undropped, ended, dropless, by decide, by decide, complete ended dropless⟩

end CachingProxy.Body
