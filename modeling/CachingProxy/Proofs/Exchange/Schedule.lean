import CachingProxy.Proofs.Exchange.Pipe

/-!
# Schedules of a pipe

A pipe is fed, drained and read in any order, and both of its ends may go at any time.  Whatever the
schedule, the chunks keep their order: those that were read, those in the channel and those that
wait behind it are what was pushed, as long as the pipe is open, and a first part of it afterwards
(`InOrder`).  A pipe that is only closed because its end has come loses nothing (`Keeping`).
-/

set_option autoImplicit false

namespace CachingProxy

theorem Body.poll_channel {body : Body} {channel : Channel}
    (stream : body.content = .stream channel) :
    ∃ rest, body.poll.2.content = .stream { channel with queue := rest } ∧
      body.poll.1.chunks ++ rest = channel.queue := by
  rcases poll_cases stream with ⟨chunk, rest, queue, read, after⟩ | ⟨queue, same, read⟩
  · refine ⟨rest, after, ?_⟩
    rw [read, queue]
    rfl
  · have nothing : body.poll.1.chunks = [] := by
      rw [read]
      repeat' split
      all_goals rfl
    exact ⟨channel.queue, same.trans stream, by rw [nothing, List.nil_append]⟩

theorem Outlet.empty_of_isFinished {outlet : Outlet} (finished : outlet.isFinished = true) :
    outlet.queue = [] := by
  rw [isFinished, Bool.and_eq_true, List.isEmpty_iff] at finished
  exact finished.2

/-- Where a chunk waits, the next one waits behind it. -/
theorem Outlet.push_of_waiting {outlet : Outlet} (waits : outlet.queue ≠ []) (body : Body)
    (chunk : Bytes) :
    outlet.push body chunk = (some { outlet with queue := outlet.queue ++ [chunk] }, body) := by
  rw [push]
  split
  · rfl
  · rename_i empty
    exact absurd empty waits

namespace Pipe

/-! ## Runs -/

inductive Event where
  | push (chunk : Bytes)
  | finish
  | drain
  | poll
  | drop
  | close
  | abort
  deriving DecidableEq

def poll (pipe : Pipe) : Pipe × List Bytes :=
  match pipe.body with
  | none => (pipe, [])
  | some body =>
      if body.dropped then (pipe, [])
      else ({ pipe with body := some body.poll.2 }, body.poll.1.chunks)

/-- One event: the pipe after it, and the chunks that were read. -/
def step (pipe : Pipe) : Event → Pipe × List Bytes
  | .push chunk => (pipe.push chunk, [])
  | .finish => (pipe.finish, [])
  | .drain => (pipe.drain, [])
  | .poll => pipe.poll
  | .drop => (pipe.drop, [])
  | .close => (pipe.close, [])
  | .abort => (pipe.abort, [])

def run (pipe : Pipe) : List Event → Pipe × List Bytes
  | [] => (pipe, [])
  | event :: rest =>
      let (pipe, read) := pipe.step event
      let (pipe, more) := pipe.run rest
      (pipe, read ++ more)

theorem run_nil (pipe : Pipe) : pipe.run [] = (pipe, []) := rfl

theorem run_cons (pipe : Pipe) (event : Event) (rest : List Event) :
    pipe.run (event :: rest) =
      (((pipe.step event).1.run rest).1, (pipe.step event).2 ++ ((pipe.step event).1.run rest).2) :=
  rfl

theorem run_append (pipe : Pipe) (first second : List Event) :
    pipe.run (first ++ second) =
      (((pipe.run first).1.run second).1,
        (pipe.run first).2 ++ ((pipe.run first).1.run second).2) := by
  induction first generalizing pipe with
  | nil => rfl
  | cons event rest ih =>
      rw [List.cons_append, run_cons, run_cons, ih, List.append_assoc]

theorem run_concat (pipe : Pipe) (schedule : List Event) (event : Event) :
    pipe.run (schedule ++ [event]) = (((pipe.run schedule).1.step event).1,
      (pipe.run schedule).2 ++ ((pipe.run schedule).1.step event).2) := by
  rw [run_append, run_cons, run_nil, List.append_nil]

def Event.chunk? : Event → Option Bytes
  | .push chunk => some chunk
  | _ => none

/-- The chunks that a schedule pushes. -/
def pushes (schedule : List Event) : List Bytes := schedule.filterMap Event.chunk?

theorem pushes_cons (event : Event) (rest : List Event) :
    pushes (event :: rest) = event.chunk?.toList ++ pushes rest := by
  cases event <;> rfl

theorem pushes_append (first second : List Event) :
    pushes (first ++ second) = pushes first ++ pushes second := List.filterMap_append

theorem pushes_concat (schedule : List Event) (event : Event) :
    pushes (schedule ++ [event]) = pushes schedule ++ event.chunk?.toList := by
  rw [pushes_append, pushes_cons, show pushes [] = [] from rfl, List.append_nil]

def opened (capacity : Nat) (length : Option Nat) : Pipe where
  outlet := some {}
  body := some (match length with
    | some length => (Body.ofCapacity capacity).withLength length
    | none => Body.ofCapacity capacity)

def inChannel (pipe : Pipe) : List Bytes :=
  match pipe.body.bind Body.channel? with
  | some channel => channel.queue
  | none => []

def waiting (pipe : Pipe) : List Bytes :=
  match pipe.outlet with
  | some outlet => outlet.queue
  | none => []

theorem inChannel_of_stream {outlet : Option Outlet} {body : Body} {channel : Body.Channel}
    (stream : body.content = .stream channel) :
    inChannel ⟨outlet, some body⟩ = channel.queue := by
  simp [inChannel, Body.channel?, stream]

/-! ## Order -/

/-- How the chunks that were pushed stand to those that were read. -/
inductive InOrder (pipe : Pipe) (pushed yielded : List Bytes) : Prop
  | fed {outlet : Outlet} {body : Body} (is : pipe = ⟨some outlet, some body⟩)
      (feeds : outlet.Feeds body pushed yielded)
  | left {body : Body} {channel : Body.Channel} (is : pipe = ⟨none, some body⟩)
      (stream : body.content = .stream channel) (first : yielded ++ channel.queue <+: pushed)

theorem opened_cases (capacity : Nat) (length : Option Nat) :
    ∃ body, opened capacity length = ⟨some {}, some body⟩ ∧ body.dropped = false ∧
      Outlet.Feeds {} body [] [] := by
  cases length with
  | none => exact ⟨_, rfl, rfl, Outlet.feeds_new rfl⟩
  | some length => exact ⟨_, rfl, rfl, Outlet.feeds_new rfl⟩

namespace InOrder

variable {pipe : Pipe} {outlet : Outlet} {body : Body} {pushed yielded : List Bytes}

theorem feeding (feeds : outlet.Feeds body pushed yielded) :
    InOrder ⟨some outlet, some body⟩ pushed yielded := .fed rfl feeds

theorem closing (feeds : outlet.Feeds body pushed yielded) :
    InOrder (Pipe.close ⟨some outlet, some body⟩) pushed yielded := by
  obtain ⟨accepted, all, channel, stream, _, _, rest⟩ := feeds.dropSender
  refine .left rfl stream ⟨outlet.queue, ?_⟩
  rw [← rest, all]

theorem close (inOrder : InOrder pipe pushed yielded) : InOrder pipe.close pushed yielded := by
  cases inOrder with
  | fed is feeds =>
      subst is
      exact closing feeds
  | left is stream first =>
      subst is
      exact .left rfl stream first

theorem abort (inOrder : InOrder pipe pushed yielded) : InOrder pipe.abort pushed yielded := by
  cases inOrder with
  | @fed outlet body is feeds =>
      subst is
      obtain ⟨channel, stream, _, _, whole⟩ := feeds
      have broken : body.abort.content =
          .stream { channel with sending := false, aborted := true } := by
        rw [Body.abort, stream]
      refine .left rfl broken ⟨outlet.queue, ?_⟩
      rw [whole, List.append_assoc]
  | left is stream first =>
      subst is
      exact .left rfl stream first

theorem push (inOrder : InOrder pipe pushed yielded) (chunk : Bytes) :
    InOrder (pipe.push chunk) (pushed ++ [chunk]) yielded := by
  cases inOrder with
  | fed is feeds =>
      subst is
      rw [Pipe.push]
      rcases feeds.push chunk with ⟨next, body', pushes, feeds', _⟩ | ⟨refused, _⟩
      · simp only [pushes]
        exact feeding feeds'
      · simp only [refused]
        cases closing feeds with
        | fed is _ => cases is
        | left is stream first => exact .left is stream (first.trans (List.prefix_append _ _))
  | left is stream first =>
      subst is
      exact .left rfl stream (first.trans (List.prefix_append _ _))

theorem finish (inOrder : InOrder pipe pushed yielded) : InOrder pipe.finish pushed yielded := by
  cases inOrder with
  | fed is feeds =>
      subst is
      simp only [Pipe.finish]
      split
      · exact closing feeds
      · exact feeding feeds
  | left is stream first =>
      subst is
      exact .left rfl stream first

theorem drain (inOrder : InOrder pipe pushed yielded) : InOrder pipe.drain pushed yielded := by
  cases inOrder with
  | fed is feeds =>
      subst is
      rw [Pipe.drain]
      rcases feeds.drain with ⟨next, body', drains, feeds', _⟩ | ⟨refused, _⟩
      · simp only [drains]
        split
        · exact closing feeds'
        · exact feeding feeds'
      · simp only [refused]
        exact closing feeds
  | left is stream first =>
      subst is
      exact .left rfl stream first

theorem drop (inOrder : InOrder pipe pushed yielded) : InOrder pipe.drop pushed yielded := by
  cases inOrder with
  | fed is feeds =>
      subst is
      exact feeding feeds.drop
  | @left body _ is stream first =>
      subst is
      exact .left rfl ((Body.content_drop body).trans stream) first

theorem poll (inOrder : InOrder pipe pushed yielded) :
    InOrder pipe.poll.1 pushed (yielded ++ pipe.poll.2) := by
  have unread : ∀ {pipe : Pipe}, InOrder pipe pushed yielded →
      InOrder pipe pushed (yielded ++ []) := by
    intro pipe inOrder
    rwa [List.append_nil]
  cases inOrder with
  | @fed outlet body is feeds =>
      subst is
      simp only [Pipe.poll]
      split
      · exact unread (feeding feeds)
      · rcases feeds.poll with ⟨chunk, yields, feeds'⟩ | ⟨yields, feeds'⟩
        · rw [yields]
          exact feeding feeds'
        · rw [yields]
          exact unread (feeding feeds')
  | @left body channel is stream first =>
      subst is
      simp only [Pipe.poll]
      split
      · exact unread (.left rfl stream first)
      · obtain ⟨rest, after, queue⟩ := Body.poll_channel stream
        refine .left rfl after ?_
        rwa [List.append_assoc, queue]

theorem step (inOrder : InOrder pipe pushed yielded) (event : Event) :
    InOrder (pipe.step event).1 (pushed ++ event.chunk?.toList)
      (yielded ++ (pipe.step event).2) := by
  have unread : ∀ {pipe : Pipe}, InOrder pipe pushed yielded →
      InOrder pipe (pushed ++ []) (yielded ++ []) := by
    intro pipe inOrder
    rwa [List.append_nil, List.append_nil]
  cases event with
  | push chunk =>
      rw [Pipe.step, List.append_nil]
      exact inOrder.push chunk
  | finish => exact unread inOrder.finish
  | drain => exact unread inOrder.drain
  | poll =>
      change InOrder pipe.poll.1 (pushed ++ []) (yielded ++ pipe.poll.2)
      rw [List.append_nil]
      exact inOrder.poll
  | drop => exact unread inOrder.drop
  | close => exact unread inOrder.close
  | abort => exact unread inOrder.abort

theorem run (inOrder : InOrder pipe pushed yielded) (schedule : List Event) :
    InOrder (pipe.run schedule).1 (pushed ++ pushes schedule)
      (yielded ++ (pipe.run schedule).2) := by
  induction schedule generalizing pipe pushed yielded with
  | nil =>
      rw [run_nil, List.append_nil]
      exact (List.append_nil pushed).symm ▸ inOrder
  | cons event rest ih =>
      have later := ih (inOrder.step event)
      rwa [List.append_assoc, ← pushes_cons, List.append_assoc] at later

theorem read_first (inOrder : InOrder pipe pushed yielded) : yielded <+: pushed := by
  cases inOrder with
  | fed _ feeds =>
      obtain ⟨_, _, _, _, whole⟩ := feeds
      exact ⟨_, whole.symm⟩
  | left _ _ first => exact (List.prefix_append _ _).trans first

theorem whole (inOrder : InOrder pipe pushed yielded) (isOpen : pipe.outlet ≠ none) :
    yielded ++ pipe.inChannel ++ pipe.waiting = pushed := by
  cases inOrder with
  | fed is feeds =>
      subst is
      obtain ⟨channel, stream, _, _, all⟩ := feeds
      rw [inChannel_of_stream stream, List.append_assoc, all]
      rfl
  | left is => exact absurd (congrArg Pipe.outlet is) isOpen

end InOrder

theorem run_inOrder (capacity : Nat) (length : Option Nat) (schedule : List Event) :
    InOrder ((opened capacity length).run schedule).1 (pushes schedule)
      ((opened capacity length).run schedule).2 := by
  obtain ⟨body, is, _, feeds⟩ := opened_cases capacity length
  have start : InOrder (opened capacity length) [] [] := .fed is feeds
  simpa using start.run schedule

theorem push_behind {pipe : Pipe} {chunk : Bytes} (stream : pipe.body.isSome = true)
    (waits : pipe.waiting ≠ []) :
    (pipe.push chunk).inChannel = pipe.inChannel ∧
      (pipe.push chunk).waiting = pipe.waiting ++ [chunk] := by
  obtain ⟨outlet?, body?⟩ := pipe
  obtain ⟨body, rfl⟩ := Option.isSome_iff_exists.mp stream
  cases outlet? with
  | none => exact absurd rfl waits
  | some outlet =>
      rw [Pipe.push]
      simp only [Outlet.push_of_waiting waits]
      exact ⟨rfl, rfl⟩

/-! ## The end -/

/-- The events that take one of the two ends away. -/
def Event.breaks : Event → Bool
  | .drop | .close | .abort => true
  | .push _ | .finish | .drain | .poll => false

section

variable {outlet : Outlet} {body : Body} {pushed yielded : List Bytes}

/-! A pipe whose reader is there takes every chunk and stays open. -/

theorem push_read (reads : body.dropped = false) (feeds : outlet.Feeds body pushed yielded)
    (chunk : Bytes) : ∃ next body', push ⟨some outlet, some body⟩ chunk = ⟨some next, some body'⟩ ∧
      body'.dropped = false ∧ next.Feeds body' (pushed ++ [chunk]) yielded ∧
      next.closing = outlet.closing := by
  have same := outlet.dropped_push body chunk
  rw [push]
  rcases feeds.push chunk with ⟨next, body', pushes, feeds', closing⟩ | ⟨_, gone⟩
  · simp only [pushes] at same ⊢
    exact ⟨next, body', rfl, same.trans reads, feeds', closing⟩
  · cases reads.symm.trans gone

theorem drain_read (reads : body.dropped = false) (feeds : outlet.Feeds body pushed yielded) :
    ∃ next body', drain ⟨some outlet, some body⟩ =
        (if next.isFinished then close ⟨some next, some body'⟩ else ⟨some next, some body'⟩) ∧
      body'.dropped = false ∧ next.Feeds body' pushed yielded ∧ next.closing = outlet.closing := by
  have same := outlet.dropped_drain body
  rw [drain]
  rcases feeds.drain with ⟨next, body', drains, feeds', closing⟩ | ⟨_, gone⟩
  · simp only [drains] at same ⊢
    exact ⟨next, body', rfl, same.trans reads, feeds', closing⟩
  · cases reads.symm.trans gone

theorem poll_read (reads : body.dropped = false) (feeds : outlet.Feeds body pushed yielded) :
    ∃ body' chunks, poll ⟨some outlet, some body⟩ = (⟨some outlet, some body'⟩, chunks) ∧
      body'.dropped = false ∧ outlet.Feeds body' pushed (yielded ++ chunks) := by
  refine ⟨body.poll.2, body.poll.1.chunks, ?_, (Body.dropped_poll body).trans reads, ?_⟩
  · simp only [poll, if_neg (Bool.eq_false_iff.mp reads)]
  · rcases feeds.poll with ⟨chunk, yields, feeds'⟩ | ⟨yields, feeds'⟩
    · rw [yields]
      exact feeds'
    · rw [yields, Body.Frame.chunks, List.append_nil]
      exact feeds'

end

/-- The reader is there, and can have what was kept for it. -/
inductive Keeping (pipe : Pipe) (kept yielded : List Bytes) : Prop
  | fed {outlet : Outlet} {body : Body} {pushed : List Bytes}
      (is : pipe = ⟨some outlet, some body⟩) (reads : body.dropped = false)
      (feeds : outlet.Feeds body pushed yielded) (before : kept <+: pushed)
  | left {body : Body} {channel : Body.Channel} (is : pipe = ⟨none, some body⟩)
      (reads : body.dropped = false) (stream : body.content = .stream channel)
      (before : kept <+: yielded ++ channel.queue)

namespace Keeping

variable {pipe : Pipe} {kept yielded : List Bytes}

theorem ending {outlet : Outlet} {body : Body} {pushed : List Bytes} (reads : body.dropped = false)
    (feeds : outlet.Feeds body pushed yielded) (before : kept <+: pushed)
    (empty : outlet.queue = []) : Keeping (Pipe.close ⟨some outlet, some body⟩) kept yielded := by
  obtain ⟨accepted, all, channel, stream, _, _, rest⟩ := feeds.dropSender
  rw [empty, List.append_nil] at all
  refine .left rfl ((Body.dropped_dropSender body).trans reads) stream ?_
  rw [← rest, all]
  exact before

theorem step (keeping : Keeping pipe kept yielded) {event : Event}
    (whole : event.breaks = false) :
    Keeping (pipe.step event).1 kept (yielded ++ (pipe.step event).2) := by
  have unread : ∀ {pipe : Pipe}, Keeping pipe kept yielded →
      Keeping pipe kept (yielded ++ []) := by
    intro pipe keeping
    rwa [List.append_nil]
  cases keeping with
  | @fed outlet body pushed is reads feeds before =>
      subst is
      cases event with
      | drop | close | abort => cases whole
      | push chunk =>
          obtain ⟨next, body', pushes, reads', feeds', _⟩ := push_read reads feeds chunk
          exact unread (.fed pushes reads' feeds' (before.trans (List.prefix_append _ _)))
      | finish =>
          refine unread ?_
          simp only [Pipe.step, Pipe.finish]
          split
          · rename_i finished
            have empty := Outlet.empty_of_isFinished finished
            exact ending reads feeds before empty
          · exact .fed rfl reads feeds before
      | drain =>
          obtain ⟨next, body', drains, reads', feeds', _⟩ := drain_read reads feeds
          refine unread ?_
          rw [Pipe.step, drains]
          split
          · rename_i finished
            exact ending reads' feeds' before (Outlet.empty_of_isFinished finished)
          · exact .fed rfl reads' feeds' before
      | poll =>
          obtain ⟨body', chunks, polls, reads', feeds'⟩ := poll_read reads feeds
          change Keeping (Pipe.poll _).1 kept (yielded ++ (Pipe.poll _).2)
          rw [polls]
          exact .fed rfl reads' feeds' before
  | @left body channel is reads stream before =>
      subst is
      cases event with
      | drop | close | abort => cases whole
      | push | finish | drain => exact unread (.left rfl reads stream before)
      | poll =>
          simp only [Pipe.step, Pipe.poll, if_neg (Bool.eq_false_iff.mp reads)]
          obtain ⟨rest, after, queue⟩ := Body.poll_channel stream
          refine .left rfl ((Body.dropped_poll body).trans reads) after ?_
          rwa [List.append_assoc, queue]

theorem run (keeping : Keeping pipe kept yielded) {schedule : List Event}
    (whole : ∀ event ∈ schedule, event.breaks = false) :
    Keeping (pipe.run schedule).1 kept (yielded ++ (pipe.run schedule).2) := by
  induction schedule generalizing pipe yielded with
  | nil =>
      rw [run_nil, List.append_nil]
      exact keeping
  | cons event rest ih =>
      rw [List.forall_mem_cons] at whole
      have later := ih (keeping.step whole.1) whole.2
      rwa [List.append_assoc] at later

end Keeping

def Flowing (pipe : Pipe) (pushed yielded : List Bytes) : Prop :=
  ∃ outlet body, pipe = ⟨some outlet, some body⟩ ∧ outlet.closing = false ∧ body.dropped = false ∧
    outlet.Feeds body pushed yielded

namespace Flowing

variable {pipe : Pipe} {pushed yielded : List Bytes}

theorem step (flowing : Flowing pipe pushed yielded) {event : Event}
    (whole : event.breaks = false) (unended : event ≠ .finish) :
    Flowing (pipe.step event).1 (pushed ++ event.chunk?.toList)
      (yielded ++ (pipe.step event).2) := by
  obtain ⟨outlet, body, rfl, going, reads, feeds⟩ := flowing
  cases event with
  | drop | close | abort => cases whole
  | finish => exact absurd rfl unended
  | push chunk =>
      obtain ⟨next, body', pushes, reads', feeds', closing⟩ := push_read reads feeds chunk
      rw [Pipe.step, List.append_nil]
      exact ⟨next, body', pushes, closing.trans going, reads', feeds'⟩
  | drain =>
      obtain ⟨next, body', drains, reads', feeds', closing⟩ := drain_read reads feeds
      have still : next.isFinished = false := by
        rw [Outlet.isFinished, closing, going, Bool.false_and]
      rw [still, if_neg Bool.false_ne_true] at drains
      simp only [Pipe.step, Event.chunk?, Option.toList_none, List.append_nil]
      exact ⟨next, body', drains, closing.trans going, reads', feeds'⟩
  | poll =>
      obtain ⟨body', chunks, polls, reads', feeds'⟩ := poll_read reads feeds
      change Flowing (Pipe.poll _).1 (pushed ++ []) (yielded ++ (Pipe.poll _).2)
      rw [polls, List.append_nil]
      exact ⟨outlet, body', rfl, going, reads', feeds'⟩

theorem run (flowing : Flowing pipe pushed yielded) {schedule : List Event}
    (whole : ∀ event ∈ schedule, event.breaks = false) (unended : .finish ∉ schedule) :
    Flowing (pipe.run schedule).1 (pushed ++ pushes schedule)
      (yielded ++ (pipe.run schedule).2) := by
  induction schedule generalizing pipe pushed yielded with
  | nil =>
      rw [run_nil, List.append_nil]
      exact (List.append_nil pushed).symm ▸ flowing
  | cons event rest ih =>
      rw [List.forall_mem_cons] at whole
      rw [List.mem_cons, not_or] at unended
      have later := ih (flowing.step whole.1 (Ne.symm unended.1)) whole.2 unended.2
      rwa [List.append_assoc, ← pushes_cons, List.append_assoc] at later

theorem keeping (flowing : Flowing pipe pushed yielded) : Keeping pipe pushed yielded := by
  obtain ⟨outlet, body, is, _, reads, feeds⟩ := flowing
  exact .fed is reads feeds (List.prefix_refl _)

end Flowing

theorem run_polls {outlet : Option Outlet} {body : Body} {channel : Body.Channel}
    (reads : body.dropped = false) (stream : body.content = .stream channel) :
    (run ⟨outlet, some body⟩ (List.replicate channel.queue.length .poll)).2 = channel.queue := by
  generalize held : channel.queue = queue
  induction queue generalizing body channel with
  | nil => rfl
  | cons chunk rest ih =>
      rcases Body.poll_cases stream with ⟨first, others, queue, read, after⟩ | ⟨empty, _⟩
      · obtain ⟨rfl, rfl⟩ := List.cons.inj (held.symm.trans queue)
        have later := ih ((Body.dropped_poll body).trans reads) after rfl
        have now : step ⟨outlet, some body⟩ .poll =
            (⟨outlet, some body.poll.2⟩, [chunk]) := by
          simp only [step, Pipe.poll, if_neg (Bool.eq_false_iff.mp reads), read,
            Body.Frame.chunks]
        rw [List.length_cons, List.replicate_succ, run_cons, now, later]
        rfl
      · cases held.symm.trans empty

/-- Without its reader gone or its sender taken away, a pipe is closed only behind its end, and what
was pushed before its end was read or can be. -/
theorem kept_until_read (capacity : Nat) (length : Option Nat) {before after : List Event}
    (whole : ∀ event ∈ before ++ .finish :: after, event.breaks = false)
    (unended : .finish ∉ before)
    (shut : ((opened capacity length).run (before ++ .finish :: after)).1.outlet = none) :
    ∃ polls, pushes before <+: ((opened capacity length).run
      (before ++ .finish :: after ++ List.replicate polls .poll)).2 := by
  obtain ⟨body, is, reads, feeds⟩ := opened_cases capacity length
  have start : Flowing (opened capacity length) [] [] := ⟨{}, body, is, rfl, reads, feeds⟩
  rw [List.forall_mem_append] at whole
  have kept := (start.run whole.1 unended).keeping.run whole.2
  rw [List.nil_append, List.nil_append] at kept
  rw [run_append] at shut
  cases kept with
  | fed is => cases shut.symm.trans (congrArg Pipe.outlet is)
  | @left body channel is reads stream before =>
      refine ⟨channel.queue.length, ?_⟩
      rw [run_append _ _ (List.replicate _ _), run_append]
      dsimp only
      rw [is, run_polls reads stream]
      exact before

/-- Only the end of what is pushed closes a pipe, and only when nothing waits. -/
theorem step_shut {pipe : Pipe} {pushed kept yielded : List Bytes} {event : Event}
    (inOrder : InOrder pipe pushed yielded) (keeping : Keeping pipe kept yielded)
    (whole : event.breaks = false) (fed : pipe.outlet ≠ none)
    (shut : (pipe.step event).1.outlet = none) :
    yielded ++ (pipe.step event).2 ++ (pipe.step event).1.inChannel =
      pushed ++ event.chunk?.toList := by
  have later := inOrder.step event
  cases keeping with
  | left is => exact absurd (congrArg Pipe.outlet is) fed
  | @fed outlet body _ is reads =>
      subst is
      cases inOrder with
      | left other => cases other
      | fed is feeds =>
          cases is
          have after := (Keeping.fed rfl reads feeds (List.prefix_refl _)).step whole
          have unpushed : event.chunk?.toList = [] := by
            cases event with
            | push chunk =>
                obtain ⟨_, _, pushes, _⟩ := push_read reads feeds chunk
                cases (congrArg Pipe.outlet pushes).symm.trans shut
            | _ => rfl
          rw [unpushed, List.append_nil] at later ⊢
          cases later with
          | fed is => cases shut.symm.trans (congrArg Pipe.outlet is)
          | @left _ channel is stream first =>
              cases after with
              | fed other => cases shut.symm.trans (congrArg Pipe.outlet other)
              | left other _ stream' before =>
                  cases is.symm.trans other
                  cases stream.symm.trans stream'
                  rw [is, inChannel_of_stream stream]
                  exact (before.eq_of_length_le first.length_le).symm

theorem open_until_ended (capacity : Nat) (length : Option Nat) {schedule : List Event}
    (whole : ∀ event ∈ schedule, event.breaks = false) (unended : .finish ∉ schedule) :
    ((opened capacity length).run schedule).1.outlet ≠ none := by
  obtain ⟨body, is, reads, feeds⟩ := opened_cases capacity length
  have start : Flowing (opened capacity length) [] [] := ⟨{}, body, is, rfl, reads, feeds⟩
  obtain ⟨outlet, body, is, _⟩ := start.run whole unended
  rw [is]
  simp

theorem shut_when_empty (capacity : Nat) (length : Option Nat) {schedule : List Event}
    {event : Event} (whole : ∀ event ∈ schedule, event.breaks = false)
    (last : event.breaks = false)
    (fed : ((opened capacity length).run schedule).1.outlet ≠ none)
    (shut : ((opened capacity length).run (schedule ++ [event])).1.outlet = none) :
    ((opened capacity length).run (schedule ++ [event])).2 ++
      ((opened capacity length).run (schedule ++ [event])).1.inChannel =
        pushes (schedule ++ [event]) := by
  obtain ⟨body, is, reads, feeds⟩ := opened_cases capacity length
  have start : Keeping (opened capacity length) [] [] := .fed is reads feeds (List.prefix_refl _)
  have inOrder := run_inOrder capacity length schedule
  have keeping := start.run whole
  rw [List.nil_append] at keeping
  rw [run_concat] at shut ⊢
  rw [pushes_concat]
  exact step_shut inOrder keeping last fed shut

/-! ## Little waits -/

/-- One chunk waits at most. -/
def Light (pipe : Pipe) : Prop := pipe.waiting.length ≤ 1

theorem light_of_shut {pipe : Pipe} (shut : pipe.outlet = none) : pipe.Light := by
  rw [Light, waiting, shut]
  exact Nat.zero_le 1

theorem drainQueue_length (queue : List Bytes) (body : Body) (rest : List Bytes)
    (left : (Outlet.drainQueue queue body).1 = some rest) : rest.length ≤ queue.length := by
  induction queue generalizing body rest with
  | nil =>
      obtain rfl := Option.some.inj left
      exact Nat.le_refl _
  | cons chunk others ih =>
      rw [Outlet.drainQueue] at left
      split at left
      · exact Nat.le_succ_of_le (ih _ _ left)
      · obtain rfl := Option.some.inj left
        exact Nat.le_refl _
      · cases left

namespace Light

variable {pipe : Pipe}

theorem close (light : Light pipe) : Light pipe.close := by
  rw [Pipe.close]
  split
  · exact light
  · exact light_of_shut rfl

theorem abort (light : Light pipe) : Light pipe.abort := by
  rw [Pipe.abort]
  split
  · exact light
  · exact light_of_shut rfl

theorem push (light : Light pipe) (room : pipe.waiting = []) (chunk : Bytes) :
    Light (pipe.push chunk) := by
  obtain ⟨outlet?, body?⟩ := pipe
  cases outlet? with
  | none => exact light_of_shut rfl
  | some outlet =>
      cases body? with
      | none => exact light
      | some body =>
          obtain ⟨queue, closing⟩ := outlet
          obtain rfl : queue = [] := room
          rw [Pipe.push]
          simp only [Outlet.push]
          rcases body.trySend chunk with ⟨_ | _ | _, next⟩
          · exact Nat.zero_le 1
          · exact Nat.le_refl 1
          · exact light_of_shut rfl

theorem finish (light : Light pipe) : Light pipe.finish := by
  rw [Pipe.finish]
  split
  · exact light
  · rename_i outlet opened
    dsimp only
    split
    · exact light.close
    · rw [Light, waiting, opened] at light
      exact light

theorem drain (light : Light pipe) : Light pipe.drain := by
  obtain ⟨outlet?, body?⟩ := pipe
  cases outlet? with
  | none => exact light_of_shut rfl
  | some outlet =>
      cases body? with
      | none => exact light
      | some body =>
          have fewer := drainQueue_length outlet.queue body
          simp only [Pipe.drain, Outlet.drain]
          rcases drained : Outlet.drainQueue outlet.queue body with ⟨_ | rest, next⟩
          · exact light_of_shut rfl
          · have lighter : Light ⟨some { outlet with queue := rest }, some next⟩ :=
              Nat.le_trans (fewer rest (by rw [drained])) light
            dsimp only [Option.map]
            split
            · exact lighter.close
            · exact lighter

theorem step (light : Light pipe) {event : Event}
    (room : ∀ chunk, event = .push chunk → pipe.waiting = []) : Light (pipe.step event).1 := by
  cases event with
  | push chunk => exact light.push (room chunk rfl) chunk
  | finish => exact light.finish
  | drain => exact light.drain
  | poll =>
      rw [Pipe.step, Pipe.poll]
      split
      · exact light
      · split <;> exact light
  | drop => exact light
  | close => exact light.close
  | abort => exact light.abort

theorem run (light : Light pipe) {schedule : List Event} (quiet : pushes schedule = []) :
    Light (pipe.run schedule).1 := by
  induction schedule generalizing pipe with
  | nil => exact light
  | cons event rest ih =>
      rw [pushes_cons, List.append_eq_nil_iff] at quiet
      refine ih (light.step fun chunk own => ?_) quiet.2
      rw [own] at quiet
      cases quiet.1

end Light

end Pipe

end CachingProxy
