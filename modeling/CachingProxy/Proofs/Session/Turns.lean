import CachingProxy.Session.Step
import Mathlib.Data.List.Induction

/-!
# Sessions over a shared cache

Between two events of a session the cache may be changed by others.  A turn is an event together
with the cache it finds, so a list of turns is a run of one session among any others; the run of a
session that has the cache for itself is one of them.
-/

set_option autoImplicit false

namespace CachingProxy.Session

/-! ## Kinds of events -/

def Event.request? : Event → Option RequestHead
  | .request head => some head
  | _ => none

def Event.isOriginHeaders : Event → Bool
  | .originHeaders _ => true
  | _ => false

def asked? (events : List Event) : Option RequestHead := events.findSome? Event.request?

theorem asked?_concat (events : List Event) (event : Event) :
    asked? (events ++ [event]) = (asked? events).or event.request? := by
  rw [asked?, List.findSome?_append, List.findSome?_singleton, asked?]

theorem asked?_cons_eq_none {event : Event} {rest : List Event} :
    asked? (event :: rest) = none ↔ event.request? = none ∧ asked? rest = none := by
  simp [asked?]

/-! ## Turns -/

/-- A session before its first event. -/
def fresh (domain : String) (origin : Option Endpoint) (transform : Option Transform) : Session :=
  { domain, origin, transform }

/-- An event and the cache it finds. -/
structure Turn where
  cache : ContentCache
  event : Event

def take (session : Session) (turn : Turn) : Session × List Action :=
  (session.step turn.cache turn.event).2

def play (session : Session) : List Turn → Session × List Action
  | [] => (session, [])
  | turn :: rest =>
      let (next, actions) := session.take turn
      let (final, more) := next.play rest
      (final, actions ++ more)

@[simp] theorem play_nil (session : Session) : session.play [] = (session, []) := rfl

theorem play_cons (session : Session) (turn : Turn) (rest : List Turn) :
    session.play (turn :: rest) =
      (((session.take turn).1.play rest).1,
        (session.take turn).2 ++ ((session.take turn).1.play rest).2) := rfl

theorem play_append (session : Session) (first second : List Turn) :
    session.play (first ++ second) =
      (((session.play first).1.play second).1,
        (session.play first).2 ++ ((session.play first).1.play second).2) := by
  induction first generalizing session with
  | nil => rfl
  | cons turn rest ih =>
      rw [List.cons_append, play_cons, play_cons, ih]
      simp only [List.append_assoc]

theorem play_concat (session : Session) (turns : List Turn) (turn : Turn) :
    session.play (turns ++ [turn]) =
      (((session.play turns).1.take turn).1,
        (session.play turns).2 ++ ((session.play turns).1.take turn).2) := by
  rw [play_append, play_cons, play_nil, List.append_nil]

/-- What holds at the start and is carried over every turn holds after every run.  The property may
speak of the turns so far and of the actions so far. -/
theorem play_induction {motive : List Turn → Session → List Action → Prop} (session : Session)
    (start : motive [] session [])
    (carried : ∀ turns current actions turn, motive turns current actions →
      motive (turns ++ [turn]) (current.take turn).1 (actions ++ (current.take turn).2))
    (turns : List Turn) : motive turns (session.play turns).1 (session.play turns).2 := by
  induction turns using List.reverseRecOn with
  | nil => exact start
  | append_singleton turns turn ih =>
      rw [play_concat]
      exact carried turns _ _ turn ih

theorem run_append (cache : ContentCache) (session : Session) (first second : List Event) :
    session.run cache (first ++ second) =
      let (cache, next, actions) := session.run cache first
      let (cache, final, more) := next.run cache second
      (cache, final, actions ++ more) := by
  induction first generalizing cache session with
  | nil => rfl
  | cons event rest ih =>
      simp only [List.cons_append, run, ih, List.append_assoc]

theorem run_eq_play (cache : ContentCache) (session : Session) (events : List Event) :
    ∃ turns : List Turn, turns.map Turn.event = events ∧
      (session.run cache events).2 = session.play turns := by
  induction events generalizing cache session with
  | nil => exact ⟨[], rfl, rfl⟩
  | cons event rest ih =>
      obtain ⟨turns, eventsEq, runEq⟩ :=
        ih (session.step cache event).1 (session.step cache event).2.1
      refine ⟨⟨cache, event⟩ :: turns, by simp [eventsEq], ?_⟩
      rw [play_cons]
      simp only [run, take, ← runEq]

end CachingProxy.Session
