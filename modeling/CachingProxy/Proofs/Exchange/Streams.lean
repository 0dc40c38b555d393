import CachingProxy.Exchange.Outlet

/-!
# What a stream carries

As long as an outlet feeds a stream, what was pushed into it has been read, or waits in the channel,
or waits behind it (`Outlet.Feeds`).  Without its sender a stream still gives what its channel
holds, and then ends (`Body.Ends`) or fails (`Body.Fails`).
-/

set_option autoImplicit false

namespace CachingProxy

def Body.Frame.chunks : Body.Frame → List Bytes
  | .data chunk => [chunk]
  | .pending | .ended | .failed _ => []

/-- All that was pushed has been read or is still to come, in order. -/
def Outlet.Feeds (outlet : Outlet) (body : Body) (pushed yielded : List Bytes) : Prop :=
  ∃ channel, body.content = .stream channel ∧ channel.sending = true ∧ channel.aborted = false ∧
    pushed = yielded ++ (channel.queue ++ outlet.queue)

/-- The stream will end cleanly behind all that was accepted. -/
def Body.Ends (body : Body) (accepted yielded : List Bytes) : Prop :=
  ∃ channel, body.content = .stream channel ∧ channel.sending = false ∧
    channel.aborted = false ∧ accepted = yielded ++ channel.queue

/-- The stream will end cleanly, be it whole or not. -/
def Body.Closed (body : Body) : Prop := ∃ accepted yielded, body.Ends accepted yielded

def Body.Fails (body : Body) : Prop :=
  ∃ channel, body.content = .stream channel ∧ channel.sending = false ∧ channel.aborted = true

namespace Body

theorem trySend_cases {body : Body} {channel : Channel} (stream : body.content = .stream channel)
    (chunk : Bytes) :
    (body.dropped = true ∧ body.trySend chunk = (.closed, body)) ∨
    (body.dropped = false ∧ (body.trySend chunk = (.full, body) ∨
      body.trySend chunk = (.accepted, { body with
        content := .stream { channel with queue := channel.queue ++ [chunk] } }))) := by
  rw [trySend, room, stream]
  cases gone : body.dropped with
  | true => exact .inl ⟨rfl, rfl⟩
  | false =>
      right
      refine ⟨rfl, ?_⟩
      by_cases free : channel.queue.length < channel.capacity
      · simp [free]
      · simp [free]

theorem dropped_trySend (body : Body) (chunk : Bytes) :
    (body.trySend chunk).2.dropped = body.dropped := by
  rw [trySend]
  split <;> rfl

theorem content_countDown (body : Body) (size : Nat) :
    (body.countDown size).content = body.content ∧
      (body.countDown size).dropped = body.dropped := by
  rw [countDown]
  split <;> exact ⟨rfl, rfl⟩

theorem content_drop (body : Body) : body.drop.2.content = body.content := by
  rw [drop]
  split <;> rfl

theorem dropped_drop (body : Body) : body.drop.2.dropped = true := by
  rw [drop]
  split
  · assumption
  · rfl

theorem poll_cases {body : Body} {channel : Channel} (stream : body.content = .stream channel) :
    (∃ chunk rest, channel.queue = chunk :: rest ∧ body.poll.1 = .data chunk ∧
      body.poll.2.content = .stream { channel with queue := rest }) ∨
    (channel.queue = [] ∧ body.poll.2.content = body.content ∧
      body.poll.1 = if channel.sending then .pending
        else if channel.aborted then .failed Body.aborted else .ended) := by
  rw [poll.eq_def, stream]
  cases queue : channel.queue with
  | nil =>
      right
      simp only [queue]
      refine ⟨trivial, ?_⟩
      split
      · exact ⟨stream, rfl⟩
      · split <;> simp [stream]
  | cons chunk rest =>
      left
      simp only [queue]
      exact ⟨chunk, rest, rfl, rfl, (content_countDown _ _).1⟩

theorem dropped_poll (body : Body) : body.poll.2.dropped = body.dropped := by
  rw [poll]
  split
  · rfl
  · rfl
  · split
    · exact (content_countDown _ _).2
    · split
      · rfl
      · split <;> rfl

end Body

namespace Outlet

theorem dropped_push (outlet : Outlet) (body : Body) (chunk : Bytes) :
    (outlet.push body chunk).2.dropped = body.dropped := by
  have sent := body.dropped_trySend chunk
  rw [push]
  split
  · rfl
  · split <;> (rename_i tried; rwa [tried] at sent)

theorem dropped_drain (outlet : Outlet) (body : Body) :
    (outlet.drain body).2.dropped = body.dropped := by
  have moved : ∀ (queue : List Bytes) (body : Body),
      (drainQueue queue body).2.dropped = body.dropped := by
    intro queue
    induction queue with
    | nil => exact fun _ => rfl
    | cons chunk rest ih =>
        intro body
        have sent := body.dropped_trySend chunk
        rw [drainQueue]
        split <;> rename_i tried <;> rw [tried] at sent
        · exact (ih _).trans sent
        · exact sent
        · exact sent
  exact moved outlet.queue body

theorem feeds_new {body : Body} {capacity : Nat} (stream : body.content = .stream { capacity }) :
    Feeds {} body [] [] :=
  ⟨{ capacity }, stream, rfl, rfl, rfl⟩

namespace Feeds

variable {outlet : Outlet} {body : Body} {pushed yielded : List Bytes}

/-- A chunk goes behind what was pushed before, unless the stream was dropped. -/
theorem push (feeds : Feeds outlet body pushed yielded) (chunk : Bytes) :
    (∃ next body', outlet.push body chunk = (some next, body') ∧
      Feeds next body' (pushed ++ [chunk]) yielded ∧ next.closing = outlet.closing) ∨
    (outlet.push body chunk = (none, body) ∧ body.dropped = true) := by
  obtain ⟨channel, stream, sending, unbroken, whole⟩ := feeds
  rw [Outlet.push]
  cases queue : outlet.queue with
  | cons first rest =>
      left
      refine ⟨_, _, rfl, ⟨channel, stream, sending, unbroken, ?_⟩, rfl⟩
      simp [whole, queue]
  | nil =>
      rw [queue, List.append_nil] at whole
      rcases Body.trySend_cases stream chunk with ⟨gone, same⟩ | ⟨_, full | accepted⟩
      · right
        rw [same]
        exact ⟨rfl, gone⟩
      · left
        rw [full]
        exact ⟨_, _, rfl, ⟨channel, stream, sending, unbroken, by simp [whole]⟩, rfl⟩
      · left
        rw [accepted]
        exact ⟨_, _, rfl, ⟨_, rfl, sending, unbroken, by simp [whole, queue]⟩, rfl⟩

theorem drain (feeds : Feeds outlet body pushed yielded) :
    (∃ next body', outlet.drain body = (some next, body') ∧
      Feeds next body' pushed yielded ∧ next.closing = outlet.closing) ∨
    (outlet.drain body = (none, body) ∧ body.dropped = true) := by
  have moved : ∀ (queue : List Bytes) (body : Body),
      Feeds { outlet with queue } body pushed yielded →
      (∃ rest body', drainQueue queue body = (some rest, body') ∧
        Feeds { outlet with queue := rest } body' pushed yielded) ∨
      (drainQueue queue body = (none, body) ∧ body.dropped = true) := by
    intro queue
    induction queue with
    | nil => exact fun body feeds => .inl ⟨[], body, rfl, feeds⟩
    | cons chunk rest ih =>
        rintro body ⟨channel, stream, sending, unbroken, whole⟩
        rw [drainQueue]
        rcases Body.trySend_cases stream chunk with ⟨gone, same⟩ | ⟨present, full | accepted⟩
        · right
          rw [same]
          exact ⟨rfl, gone⟩
        · left
          rw [full]
          exact ⟨_, _, rfl, channel, stream, sending, unbroken, whole⟩
        · rw [accepted]
          rcases ih { body with
              content := .stream { channel with queue := channel.queue ++ [chunk] } }
            ⟨_, rfl, sending, unbroken, by simp [whole]⟩ with later | ⟨_, gone⟩
          · exact .inl later
          · exact absurd (present.symm.trans gone) Bool.false_ne_true
  rw [Outlet.drain]
  rcases moved outlet.queue body feeds with ⟨rest, body', drained, feeds'⟩ | ⟨drained, gone⟩
  · left
    rw [drained]
    exact ⟨_, _, rfl, feeds', rfl⟩
  · right
    rw [drained]
    exact ⟨rfl, gone⟩

theorem poll (feeds : Feeds outlet body pushed yielded) :
    (∃ chunk, body.poll.1 = .data chunk ∧
      Feeds outlet body.poll.2 pushed (yielded ++ [chunk])) ∨
    (body.poll.1 = .pending ∧ Feeds outlet body.poll.2 pushed yielded) := by
  obtain ⟨channel, stream, sending, unbroken, whole⟩ := feeds
  rcases Body.poll_cases stream with ⟨chunk, rest, queue, read, after⟩ | ⟨_, same, read⟩
  · left
    exact ⟨chunk, read, _, after, sending, unbroken, by simp [whole, queue]⟩
  · right
    rw [if_pos sending] at read
    exact ⟨read, channel, same.trans stream, sending, unbroken, whole⟩

theorem drop (feeds : Feeds outlet body pushed yielded) :
    Feeds outlet body.drop.2 pushed yielded := by
  obtain ⟨channel, stream, rest⟩ := feeds
  exact ⟨channel, (Body.content_drop body).trans stream, rest⟩

theorem dropSender (feeds : Feeds outlet body pushed yielded) :
    ∃ accepted, accepted ++ outlet.queue = pushed ∧ body.dropSender.Ends accepted yielded := by
  obtain ⟨channel, stream, _, unbroken, whole⟩ := feeds
  refine ⟨yielded ++ channel.queue, by rw [whole, List.append_assoc],
    { channel with sending := false }, ?_, rfl, unbroken, rfl⟩
  rw [Body.dropSender, stream]

theorem abort (feeds : Feeds outlet body pushed yielded) : body.abort.Fails := by
  obtain ⟨channel, stream, _⟩ := feeds
  refine ⟨{ channel with sending := false, aborted := true }, ?_, rfl, rfl⟩
  rw [Body.abort, stream]

end Feeds

end Outlet

namespace Body

theorem dropped_dropSender (body : Body) : body.dropSender.dropped = body.dropped := by
  rw [dropSender]
  split <;> rfl

theorem dropped_abort (body : Body) : body.abort.dropped = body.dropped := by
  rw [abort]
  split <;> rfl

variable {body : Body} {accepted yielded : List Bytes}

/-- A stream that ends cleanly has given all that was accepted. -/
theorem Ends.poll (ends : Ends body accepted yielded) :
    (∃ chunk, body.poll.1 = .data chunk ∧ Ends body.poll.2 accepted (yielded ++ [chunk])) ∨
    (body.poll.1 = .ended ∧ yielded = accepted ∧ Ends body.poll.2 accepted yielded) := by
  obtain ⟨channel, stream, ended, unbroken, whole⟩ := ends
  rcases poll_cases stream with ⟨chunk, rest, queue, read, after⟩ | ⟨queue, same, read⟩
  · left
    exact ⟨chunk, read, _, after, ended, unbroken, by simp [whole, queue]⟩
  · right
    rw [ended, unbroken] at read
    refine ⟨read, ?_, channel, same.trans stream, ended, unbroken, whole⟩
    rw [whole, queue, List.append_nil]

theorem Closed.poll (closed : Closed body) :
    ((∃ chunk, body.poll.1 = .data chunk) ∨ body.poll.1 = .ended) ∧ Closed body.poll.2 := by
  obtain ⟨accepted, yielded, ends⟩ := closed
  rcases ends.poll with ⟨chunk, yields, ends'⟩ | ⟨yields, _, ends'⟩
  · exact ⟨.inl ⟨chunk, yields⟩, _, _, ends'⟩
  · exact ⟨.inr yields, _, _, ends'⟩

theorem Fails.poll (fails : Fails body) :
    ((∃ chunk, body.poll.1 = .data chunk) ∨ body.poll.1 = .failed Body.aborted) ∧
      Fails body.poll.2 := by
  obtain ⟨channel, stream, ended, broken⟩ := fails
  rcases poll_cases stream with ⟨chunk, rest, _, read, after⟩ | ⟨_, same, read⟩
  · exact ⟨.inl ⟨chunk, read⟩, _, after, ended, broken⟩
  · rw [ended, broken] at read
    exact ⟨.inr read, channel, same.trans stream, ended, broken⟩

end Body

end CachingProxy
