import CachingProxy.Proofs.Exchange.Streams

/-!
# Pipes

An outlet and the stream that it feeds form a pipe.  Both directions of an exchange are pipes, and
what happens to the one is also what happens to the other.  As long as a pipe is open nothing is
lost in it; when it was closed the reader has given it up, or all has gone through, or there is a
known reason why something may be missing (`Pipe.Carries`).
-/

set_option autoImplicit false

namespace CachingProxy

/-- An outlet and the stream that it feeds, as far as they are there. -/
structure Pipe where
  outlet : Option Outlet
  body : Option Body

namespace Pipe

def close (pipe : Pipe) : Pipe :=
  match pipe.outlet with
  | none => pipe
  | some _ => { outlet := none, body := pipe.body.map Body.dropSender }

def abort (pipe : Pipe) : Pipe :=
  match pipe.outlet with
  | none => pipe
  | some _ => { outlet := none, body := pipe.body.map Body.abort }

def push (pipe : Pipe) (chunk : Bytes) : Pipe :=
  match pipe.outlet, pipe.body with
  | some outlet, some body =>
      match outlet.push body chunk with
      | (none, body) => close { outlet := some outlet, body := some body }
      | (some pushed, body) => { outlet := some pushed, body := some body }
  | _, _ => pipe

def finish (pipe : Pipe) : Pipe :=
  match pipe.outlet with
  | none => pipe
  | some outlet =>
      let closing := { outlet with closing := true }
      if closing.isFinished then pipe.close else { pipe with outlet := some closing }

def drain (pipe : Pipe) : Pipe :=
  match pipe.outlet, pipe.body with
  | some outlet, some body =>
      match outlet.drain body with
      | (none, body) => close { outlet := some outlet, body := some body }
      | (some outlet, body) =>
          let drained : Pipe := { outlet := some outlet, body := some body }
          if outlet.isFinished then drained.close else drained
  | _, _ => pipe

def drop (pipe : Pipe) : Pipe := { pipe with body := pipe.body.map fun body => body.drop.2 }

/-! ## What is there -/

def Unread (pipe : Pipe) : Prop := ∀ body, pipe.body = some body → body.dropped = true

theorem unread_of_dropped {pipe : Pipe} {body : Body} (stream : pipe.body = some body)
    (gone : body.dropped = true) : pipe.Unread := by
  intro body' present
  obtain rfl := Option.some.inj (stream.symm.trans present)
  exact gone

/-- No stream comes or goes, no outlet comes, and no reader comes back. -/
structure Keeps (before after : Pipe) : Prop where
  body : after.body.isSome = before.body.isSome
  outlet : before.outlet = none → after.outlet = none
  unread : before.Unread → after.Unread

namespace Keeps

variable {before after : Pipe}

theorem refl (pipe : Pipe) : pipe.Keeps pipe := ⟨rfl, id, id⟩

theorem of_body {body next : Body} (stream : before.body = some body)
    (stream' : after.body = some next) (dropped : body.dropped = true → next.dropped = true)
    (outlet : before.outlet = none → after.outlet = none) : before.Keeps after := by
  refine ⟨by rw [stream, stream']; rfl, outlet, fun unread body' present => ?_⟩
  obtain rfl := Option.some.inj (stream'.symm.trans present)
  exact dropped (unread body stream)

theorem of_map {next : Body → Body} (mapped : after.body = before.body.map next)
    (dropped : ∀ body, body.dropped = true → (next body).dropped = true)
    (outlet : before.outlet = none → after.outlet = none) : before.Keeps after := by
  refine ⟨by rw [mapped, Option.isSome_map], outlet, fun unread body' present => ?_⟩
  obtain ⟨body, stream, rfl⟩ := Option.map_eq_some_iff.mp (mapped.symm.trans present)
  exact dropped body (unread body stream)

end Keeps

theorem keeps_close (pipe : Pipe) : pipe.Keeps pipe.close := by
  rw [close]
  split
  · exact .refl pipe
  · exact .of_map rfl (fun body => (Body.dropped_dropSender body).trans) fun _ => rfl

theorem keeps_abort (pipe : Pipe) : pipe.Keeps pipe.abort := by
  rw [abort]
  split
  · exact .refl pipe
  · exact .of_map rfl (fun body => (Body.dropped_abort body).trans) fun _ => rfl

theorem keeps_push (pipe : Pipe) (chunk : Bytes) : pipe.Keeps (pipe.push chunk) := by
  rw [push]
  split
  · rename_i outlet body open_ stream
    have same := outlet.dropped_push body chunk
    have shut : pipe.outlet ≠ none := by simp [open_]
    split <;> rename_i pushes <;> rw [pushes] at same
    · exact .of_body stream rfl (fun gone => (Body.dropped_dropSender _).trans (same.trans gone))
        fun none => absurd none shut
    · exact .of_body stream rfl same.trans fun none => absurd none shut
  · exact .refl pipe

theorem keeps_finish (pipe : Pipe) : pipe.Keeps pipe.finish := by
  rw [finish]
  split
  · exact .refl pipe
  · rename_i outlet open_
    dsimp only
    split
    · exact keeps_close pipe
    · exact ⟨rfl, fun shut => (by cases open_.symm.trans shut), id⟩

theorem keeps_drain (pipe : Pipe) : pipe.Keeps pipe.drain := by
  rw [drain]
  split
  · rename_i outlet body open_ stream
    have same := outlet.dropped_drain body
    have shut : pipe.outlet ≠ none := by simp [open_]
    have closed : ∀ outlet (next : Body), next.dropped = body.dropped →
        pipe.Keeps (close ⟨some outlet, some next⟩) := fun _ next same =>
      .of_body stream rfl (fun gone => (Body.dropped_dropSender next).trans (same.trans gone))
        fun none => absurd none shut
    split <;> rename_i drains <;> rw [drains] at same
    · exact closed outlet _ same
    · dsimp only
      split
      · exact closed _ _ same
      · exact .of_body stream rfl same.trans fun none => absurd none shut
  · exact .refl pipe

theorem keeps_drop (pipe : Pipe) : pipe.Keeps pipe.drop :=
  .of_map rfl (fun body _ => Body.dropped_drop body) id

/-! ## What is in a pipe -/

/-- How a pipe stands: `ended` says that all was pushed, `lost` of which streams chunks may be
missing. -/
structure Carries (pipe : Pipe) (pushed yielded : List Bytes) (ended : Prop)
    (lost : Body → Prop) : Prop where
  fed : ∀ outlet, pipe.outlet = some outlet → ∃ body, pipe.body = some body ∧
    outlet.Feeds body pushed yielded ∧ (outlet.closing = true → ended)
  left : pipe.outlet = none → ∀ body, pipe.body = some body →
    body.dropped = true ∨ (ended ∧ body.Ends pushed yielded) ∨ lost body

namespace Carries

variable {pipe : Pipe} {pushed yielded : List Bytes} {ended ended' : Prop}
  {lost lost' : Body → Prop}

theorem mono (carries : Carries pipe pushed yielded ended lost) (ends : ended → ended')
    (loses : ∀ body, lost body → lost' body) : Carries pipe pushed yielded ended' lost' := by
  refine ⟨fun outlet present => ?_, fun shut body present => ?_⟩
  · obtain ⟨body, stream, feeds, closing⟩ := carries.fed outlet present
    exact ⟨body, stream, feeds, fun closes => ends (closing closes)⟩
  · exact (carries.left shut body present).imp_right (Or.imp (And.imp_left ends) (loses body))

theorem absent : Carries ⟨none, none⟩ pushed yielded ended lost :=
  ⟨fun _ present => (by cases present), fun _ _ present => by cases present⟩

theorem opened {body : Body} {capacity : Nat} (stream : body.content = .stream { capacity }) :
    Carries ⟨some {}, some body⟩ [] [] ended lost := by
  refine ⟨fun outlet present => ?_, fun shut => by cases shut⟩
  obtain rfl := Option.some.inj present
  exact ⟨body, rfl, Outlet.feeds_new stream, fun closing => by cases closing⟩

theorem feeding {outlet : Outlet} {body : Body} (feeds : outlet.Feeds body pushed yielded)
    (closing : outlet.closing = true → ended) :
    Carries ⟨some outlet, some body⟩ pushed yielded ended lost := by
  refine ⟨fun outlet' present => ?_, fun shut => by cases shut⟩
  obtain rfl := Option.some.inj present
  exact ⟨body, rfl, feeds, closing⟩

theorem giveUp (carries : Carries pipe pushed yielded ended lost)
    (loses : ∀ body, lost body → lost' body) (closed : ∀ body : Body, body.Closed → lost' body) :
    Carries pipe.close pushed yielded ended lost' := by
  rw [close]
  split
  · exact carries.mono id loses
  · rename_i outlet open_
    obtain ⟨body, stream, feeds, _⟩ := carries.fed outlet open_
    refine ⟨fun _ present => (by cases present), fun _ body' present => ?_⟩
    -- What waited behind the channel is lost, so the stream may end too early.
    obtain ⟨accepted, _, ends⟩ := feeds.dropSender
    dsimp only at present
    rw [stream, Option.map_some, Option.some.injEq] at present
    rw [← present]
    exact .inr (.inr (closed _ ⟨_, _, ends⟩))

theorem shut (carries : Carries pipe pushed yielded ended lost) (unread : pipe.Unread) :
    Carries pipe.close pushed yielded ended lost := by
  have kept := pipe.keeps_close.unread unread
  cases open_ : pipe.outlet with
  | none =>
      rw [close, open_]
      exact carries
  | some outlet =>
      refine ⟨fun outlet' present => ?_, fun _ body present => .inl (kept body present)⟩
      rw [close, open_] at present
      cases present

theorem ending {outlet : Outlet} {body : Body} (feeds : outlet.Feeds body pushed yielded)
    (truth : ended) (empty : outlet.queue = []) :
    Carries (close ⟨some outlet, some body⟩) pushed yielded ended lost := by
  refine ⟨fun _ present => (by cases present), fun _ body' present => ?_⟩
  obtain rfl := Option.some.inj present
  obtain ⟨accepted, all, ends⟩ := feeds.dropSender
  rw [empty, List.append_nil] at all
  rw [all] at ends
  exact .inr (.inl ⟨truth, ends⟩)

theorem push (carries : Carries pipe pushed yielded ended lost) (unended : ¬ ended)
    (chunk : Bytes) : Carries (pipe.push chunk) (pushed ++ [chunk]) yielded ended lost := by
  obtain ⟨outlet?, body?⟩ := pipe
  cases outlet? with
  | none =>
      refine ⟨fun _ present => (by cases present), fun _ body present => ?_⟩
      rcases carries.left rfl body present with gone | ⟨truth, _⟩ | loses
      · exact .inl gone
      · exact absurd truth unended
      · exact .inr (.inr loses)
  | some outlet =>
      obtain ⟨body, stream, feeds, closing⟩ := carries.fed outlet rfl
      obtain rfl : body? = some body := stream
      rw [Pipe.push]
      rcases feeds.push chunk with ⟨next, body', pushes, feeds', same⟩ | ⟨refused, gone⟩
      · simp only [pushes]
        exact feeding feeds' fun closes => closing (same.symm.trans closes)
      · -- The reader is gone, so the chunk is not missed.
        simp only [refused]
        refine ⟨fun _ present => (by cases present), fun _ body' present => ?_⟩
        obtain rfl := Option.some.inj present
        exact .inl ((Body.dropped_dropSender body).trans gone)

theorem finish (carries : Carries pipe pushed yielded ended lost) (unended : ¬ ended)
    (now : ended') : Carries pipe.finish pushed yielded ended' lost := by
  obtain ⟨outlet?, body?⟩ := pipe
  cases outlet? with
  | none => exact carries.mono (fun truth => absurd truth unended) fun _ => id
  | some outlet =>
      obtain ⟨body, stream, feeds, _⟩ := carries.fed outlet rfl
      obtain rfl : body? = some body := stream
      simp only [Pipe.finish]
      split
      · rename_i finished
        rw [Outlet.isFinished, Bool.and_eq_true, List.isEmpty_iff] at finished
        exact ending feeds now finished.2
      · exact feeding feeds fun _ => now

theorem drain (carries : Carries pipe pushed yielded ended lost) :
    Carries pipe.drain pushed yielded ended lost := by
  obtain ⟨outlet?, body?⟩ := pipe
  cases outlet? with
  | none => exact carries
  | some outlet =>
      obtain ⟨body, stream, feeds, closing⟩ := carries.fed outlet rfl
      obtain rfl : body? = some body := stream
      rw [Pipe.drain]
      rcases feeds.drain with ⟨next, body', drains, feeds', same⟩ | ⟨refused, gone⟩
      · simp only [drains]
        split
        · rename_i finished
          rw [Outlet.isFinished, Bool.and_eq_true, List.isEmpty_iff] at finished
          exact ending feeds' (closing (same.symm.trans finished.1)) finished.2
        · exact feeding feeds' fun closes => closing (same.symm.trans closes)
      · simp only [refused]
        exact carries.shut (unread_of_dropped rfl gone)

theorem abort (carries : Carries pipe pushed yielded ended lost)
    (loses : ∀ body, lost body → lost' body) (fails : ∀ body : Body, body.Fails → lost' body) :
    Carries pipe.abort pushed yielded ended lost' := by
  rw [Pipe.abort]
  split
  · exact carries.mono id loses
  · rename_i outlet open_
    obtain ⟨body, stream, feeds, _⟩ := carries.fed outlet open_
    refine ⟨fun _ present => (by cases present), fun _ body' present => ?_⟩
    dsimp only at present
    rw [stream, Option.map_some, Option.some.injEq] at present
    rw [← present]
    exact .inr (.inr (fails _ feeds.abort))

theorem drop (carries : Carries pipe pushed yielded ended lost) :
    Carries pipe.drop pushed yielded ended lost := by
  refine ⟨fun outlet present => ?_, fun _ body present => ?_⟩
  · obtain ⟨body, stream, feeds, closing⟩ := carries.fed outlet present
    exact ⟨_, by rw [Pipe.drop, stream, Option.map_some], feeds.drop, closing⟩
  · obtain ⟨before, _, rfl⟩ := Option.map_eq_some_iff.mp present
    exact .inl (Body.dropped_drop before)

variable {body : Body}

theorem poll (carries : Carries pipe pushed yielded ended lost)
    (keeps : ∀ body : Body, lost body → lost body.poll.2) (present : pipe.body = some body) :
    Carries { pipe with body := some body.poll.2 } pushed (yielded ++ body.poll.1.chunks) ended
      lost := by
  refine ⟨fun outlet fed => ?_, fun shut body' polled => ?_⟩
  · obtain ⟨body', stream, feeds, closing⟩ := carries.fed outlet fed
    obtain rfl := Option.some.inj (present.symm.trans stream)
    refine ⟨_, rfl, ?_, closing⟩
    rcases feeds.poll with ⟨chunk, yields, feeds'⟩ | ⟨yields, feeds'⟩
    · rw [yields]
      exact feeds'
    · rw [yields]
      simpa [Body.Frame.chunks] using feeds'
  · obtain rfl := Option.some.inj polled
    rw [Body.dropped_poll]
    refine (carries.left shut body present).imp_right (Or.imp (And.imp_right fun ends => ?_)
      (keeps body))
    rcases ends.poll with ⟨chunk, yields, ends'⟩ | ⟨yields, _, ends'⟩
    · rw [yields]
      exact ends'
    · rw [yields]
      simpa [Body.Frame.chunks] using ends'

theorem poll_cases (carries : Carries pipe pushed yielded ended lost)
    (present : pipe.body = some body) (reads : body.dropped = false) :
    (∃ chunk, body.poll.1 = .data chunk) ∨ (body.poll.1 = .pending ∧ pipe.outlet ≠ none) ∨
      (body.poll.1 = .ended ∧ ended ∧ yielded = pushed) ∨ (lost body ∧ pipe.outlet = none) := by
  cases open_ : pipe.outlet with
  | some outlet =>
      obtain ⟨body', stream, feeds, _⟩ := carries.fed outlet open_
      obtain rfl := Option.some.inj (present.symm.trans stream)
      rcases feeds.poll with ⟨chunk, yields, _⟩ | ⟨yields, _⟩
      · exact .inl ⟨chunk, yields⟩
      · exact .inr (.inl ⟨yields, by simp⟩)
  | none =>
      rcases carries.left open_ body present with gone | ⟨truth, ends⟩ | loses
      · cases reads.symm.trans gone
      · rcases ends.poll with ⟨chunk, yields, _⟩ | ⟨yields, all, _⟩
        · exact .inl ⟨chunk, yields⟩
        · exact .inr (.inr (.inl ⟨yields, truth, all⟩))
      · exact .inr (.inr (.inr ⟨loses, rfl⟩))

end Carries

end Pipe

end CachingProxy
