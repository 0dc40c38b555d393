import CachingProxy.Proofs.Session.Requests

/-!
# Many sessions over one cache

A world has one cache and any number of sessions.  What happens in it is an event of one of them, or
somebody else storing or looking up an answer, in any order.  Seen from one session this is a run
over turns (`World.run_session`).
-/

set_option autoImplicit false

namespace CachingProxy

open Session (Action Event Turn)

structure Visitor where
  domain : String
  origin : Option Endpoint
  transform : Option Transform := none

def Visitor.session (visitor : Visitor) : Session :=
  .fresh visitor.domain visitor.origin visitor.transform

inductive Happening where
  | event (index : Nat) (event : Event)
  | put (offer : Offer)
  | get (domain path : String)

/-- The event that a session gets of a happening. -/
def Happening.eventOf? (index : Nat) : Happening → Option Event
  | .event other its => if other = index then some its else none
  | _ => none

def eventsOf (index : Nat) (happenings : List Happening) : List Event :=
  happenings.filterMap (Happening.eventOf? index)

theorem eventsOf_request (index : Nat) (head : RequestHead) (before after : List Happening) :
    eventsOf index (before ++ .event index (.request head) :: after) =
      eventsOf index before ++ .request head :: eventsOf index after := by
  simp [eventsOf, Happening.eventOf?]

def actionsOf (index : Nat) (actions : List (Nat × Action)) : List Action :=
  actions.filterMap fun entry => if entry.1 = index then some entry.2 else none

structure World where
  cache : ContentCache
  sessions : List Session

namespace World

def start (cache : ContentCache) (visitors : List Visitor) : World :=
  { cache, sessions := visitors.map Visitor.session }

/-- One happening: the world after it, and the actions with the session that takes them. -/
def step (world : World) : Happening → World × List (Nat × Action)
  | .event index event =>
      match world.sessions[index]? with
      | none => (world, [])
      | some session =>
          let (cache, session, actions) := session.step world.cache event
          ({ cache, sessions := world.sessions.set index session },
            actions.map fun action => (index, action))
  | .put offer => ({ world with cache := offer.storeIn world.cache }, [])
  | .get domain path => ({ world with cache := (world.cache.get domain path).2 }, [])

def run (world : World) : List Happening → World × List (Nat × Action)
  | [] => (world, [])
  | happening :: rest =>
      let (next, actions) := world.step happening
      let (final, more) := next.run rest
      (final, actions ++ more)

def offer? (world : World) : Happening → Option Offer
  | .event index event => world.sessions[index]?.bind fun session => session.offer? event
  | .put offer => some offer
  | .get _ _ => none

def offers (world : World) : List Happening → List Offer
  | [] => []
  | happening :: rest => (world.offer? happening).toList ++ (world.step happening).1.offers rest

def turnsOf (index : Nat) (world : World) : List Happening → List Turn
  | [] => []
  | happening :: rest =>
      ((happening.eventOf? index).map (Turn.mk world.cache)).toList ++
        turnsOf index (world.step happening).1 rest

/-! ## Runs in parts -/

theorem run_cons (world : World) (happening : Happening) (rest : List Happening) :
    world.run (happening :: rest) =
      (((world.step happening).1.run rest).1,
        (world.step happening).2 ++ ((world.step happening).1.run rest).2) := rfl

theorem run_append (world : World) (first second : List Happening) :
    world.run (first ++ second) =
      (((world.run first).1.run second).1,
        (world.run first).2 ++ ((world.run first).1.run second).2) := by
  induction first generalizing world with
  | nil => rfl
  | cons happening rest ih =>
      rw [List.cons_append, run_cons, run_cons, ih]
      simp only [List.append_assoc]

theorem offers_append (world : World) (first second : List Happening) :
    world.offers (first ++ second) =
      world.offers first ++ (world.run first).1.offers second := by
  induction first generalizing world with
  | nil => rfl
  | cons happening rest ih => rw [List.cons_append, offers, offers, ih, List.append_assoc, run_cons]

theorem turnsOf_append (index : Nat) (world : World) (first second : List Happening) :
    world.turnsOf index (first ++ second) =
      world.turnsOf index first ++ (world.run first).1.turnsOf index second := by
  induction first generalizing world with
  | nil => rfl
  | cons happening rest ih =>
      rw [List.cons_append, turnsOf, turnsOf, ih, List.append_assoc, run_cons]

theorem turnsOf_events (index : Nat) (world : World) (happenings : List Happening) :
    (world.turnsOf index happenings).map Turn.event = eventsOf index happenings := by
  induction happenings generalizing world with
  | nil => rfl
  | cons happening rest ih =>
      rw [turnsOf, List.map_append, ih, eventsOf, eventsOf, List.filterMap_cons]
      cases happening.eventOf? index <;> rfl

/-! ## One session among many -/

theorem actionsOf_append (index : Nat) (first second : List (Nat × Action)) :
    actionsOf index (first ++ second) = actionsOf index first ++ actionsOf index second :=
  List.filterMap_append

theorem actionsOf_own (index : Nat) (actions : List Action) :
    actionsOf index (actions.map fun action => (index, action)) = actions := by
  induction actions with
  | nil => rfl
  | cons action rest ih => simp [actionsOf]

theorem actionsOf_other {index other : Nat} (apart : other ≠ index) (actions : List Action) :
    actionsOf index (actions.map fun action => (other, action)) = [] := by
  simp [actionsOf, apart]

theorem step_session {world : World} {index : Nat} {session : Session}
    (present : world.sessions[index]? = some session) (happening : Happening) :
    let turns := ((happening.eventOf? index).map (Turn.mk world.cache)).toList
    (world.step happening).1.sessions[index]? = some (session.play turns).1 ∧
      actionsOf index (world.step happening).2 = (session.play turns).2 := by
  cases happening with
  | event other event =>
      by_cases same : other = index
      · subst same
        have within : other < world.sessions.length := (List.getElem?_eq_some_iff.mp present).1
        simp only [step, present, Happening.eventOf?, if_true, Option.map_some, Option.toList_some,
          Session.play_cons, Session.play_nil, List.append_nil, actionsOf_own, Session.take,
          List.getElem?_set_self within, and_self]
      · simp only [Happening.eventOf?, if_neg same, Option.map_none, Option.toList_none,
          Session.play_nil, step]
        split
        · exact ⟨present, rfl⟩
        · exact ⟨by rw [List.getElem?_set_ne same, present], actionsOf_other same _⟩
  | put offer => exact ⟨present, rfl⟩
  | get domain path => exact ⟨present, rfl⟩

/-- A session makes its own run, on the caches it finds. -/
theorem run_session {world : World} {index : Nat} {session : Session}
    (present : world.sessions[index]? = some session) (happenings : List Happening) :
    (world.run happenings).1.sessions[index]? =
        some (session.play (world.turnsOf index happenings)).1 ∧
      actionsOf index (world.run happenings).2 =
        (session.play (world.turnsOf index happenings)).2 := by
  induction happenings generalizing world session with
  | nil => exact ⟨present, rfl⟩
  | cons happening rest ih =>
      obtain ⟨here, told⟩ := step_session present happening
      obtain ⟨final, more⟩ := ih here
      rw [run_cons, turnsOf, Session.play_append, actionsOf_append, told, more]
      exact ⟨final, rfl⟩

theorem start_session {cache : ContentCache} {visitors : List Visitor} {index : Nat}
    {visitor : Visitor} (present : visitors[index]? = some visitor) :
    (start cache visitors).sessions[index]? = some visitor.session := by
  simp [start, present]

end World

end CachingProxy
