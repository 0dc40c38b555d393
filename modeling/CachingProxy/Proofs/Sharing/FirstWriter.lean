import CachingProxy.Proofs.Session.ClientProtocol
import CachingProxy.Proofs.Sharing.World

/-!
# The first writer serves all

However the events of the sessions of a world are interleaved, what the cache holds for a path is
what was offered first for it.  Sessions that ask later are served with just that, and those that
asked before go on as if they had the cache for themselves.
-/

set_option autoImplicit false

namespace CachingProxy.World

open Session (Action Event Turn)

/-! ## The sessions of a world -/

theorem step_sessions_length (world : World) (happening : Happening) :
    (world.step happening).1.sessions.length = world.sessions.length := by
  cases happening with
  | event index event =>
      simp only [step]
      split
      · rfl
      · exact List.length_set
  | put | get => rfl

theorem run_sessions_length (world : World) (happenings : List Happening) :
    (world.run happenings).1.sessions.length = world.sessions.length := by
  induction happenings generalizing world with
  | nil => rfl
  | cons happening rest ih => rw [run_cons, ih, step_sessions_length]

/-- Every session of a world has come from its visitor by its own turns. -/
theorem reached {cache : ContentCache} {visitors : List Visitor} {happenings : List Happening}
    {index : Nat} {session : Session}
    (present : ((start cache visitors).run happenings).1.sessions[index]? = some session) :
    ∃ visitor, visitors[index]? = some visitor ∧
      session =
        (visitor.session.play ((start cache visitors).turnsOf index happenings)).1 := by
  have within := (List.getElem?_eq_some_iff.mp present).1
  rw [run_sessions_length, start, List.length_map] at within
  have visits := List.getElem?_eq_getElem within
  obtain ⟨own, _⟩ := run_session (start_session visits) happenings
  exact ⟨_, visits, Option.some.inj (present.symm.trans own)⟩

/-! ## The cache of a world -/

theorem step_cache (cache : ContentCache) (visitors : List Visitor) (before : List Happening)
    (happening : Happening) :
    let world := ((start cache visitors).run before).1
    (∃ offer, world.offer? happening = some offer ∧
      (world.step happening).1.cache = offer.storeIn world.cache) ∨
    (world.offer? happening = none ∧ ((world.step happening).1.cache = world.cache ∨
      ∃ domain path, (world.step happening).1.cache = (world.cache.get domain path).2)) := by
  intro world
  cases happening with
  | put offer => exact .inl ⟨offer, rfl, rfl⟩
  | get domain path => exact .inr ⟨rfl, .inr ⟨domain, path, rfl⟩⟩
  | event index event =>
      cases present : world.sessions[index]? with
      | none => exact .inr ⟨by simp [offer?, present], .inl (by simp [step, present])⟩
      | some session =>
          have after : (world.step (.event index event)).1.cache =
              (session.step world.cache event).1 := by
            simp [step, present]
          have offers : world.offer? (.event index event) = session.offer? event := by
            simp [offer?, present]
          rw [after, offers]
          cases offered : session.offer? event with
          | some offer =>
              obtain ⟨visitor, _, rfl⟩ := reached present
              left
              exact ⟨offer, rfl, Session.step_cache_of_offer (Session.play_accounted ..)
                (Session.play_asked ..) (Session.play_assembled ..) offered world.cache⟩
          | none =>
              refine .inr ⟨rfl, ?_⟩
              rcases session.step_cache world.cache event with
                same | ⟨_, head, _, _, looked⟩ | ⟨offer, found, _⟩
              · exact .inl same
              · exact .inr ⟨session.domain, head.path, looked⟩
              · exact absurd (offered.symm.trans found) (by simp)

/-! ## What becomes of a request -/

section Requests

variable {world : World} {index : Nat} {visitor : Visitor} {head : RequestHead}
  {before : List Happening}

theorem request_turn (world : World) (index : Nat) (head : RequestHead)
    (before after : List Happening) :
    ∃ later : List Turn, later.map Turn.event = eventsOf index after ∧
      world.turnsOf index (before ++ .event index (.request head) :: after) =
        world.turnsOf index before ++ ⟨(world.run before).1.cache, .request head⟩ :: later := by
  refine ⟨turnsOf index ((world.run before).1.step (.event index (.request head))).1 after,
    turnsOf_events index _ after, ?_⟩
  rw [turnsOf_append, turnsOf, Happening.eventOf?, if_pos rfl]
  rfl

theorem served_from_cache {route : Route}
    (present : world.sessions[index]? = some visitor.session)
    (unasked : Session.asked? (eventsOf index before) = none) (get : head.method = "GET")
    (found : ((world.run before).1.cache.get visitor.domain head.path).1 = some route)
    (after : List Happening) :
    let actions :=
      actionsOf index (world.run (before ++ .event index (.request head) :: after)).2
    (∀ origin, .connect origin ∉ actions) ∧
      (.clientComplete ∉ eventsOf index before → .clientError ∉ eventsOf index before →
        actions.filter Action.toClient =
          [.respond (Session.hitResponse visitor.transform route)]) := by
  intro actions
  obtain ⟨later, _, turns⟩ := request_turn world index head before after
  have own := (run_session present (before ++ .event index (.request head) :: after)).2
  rw [turns] at own
  rw [← turnsOf_events index world] at unasked ⊢
  rcases Session.play_found visitor.domain visitor.origin visitor.transform _ later unasked get
    found with answered | answered | ⟨released, gone⟩
  · have told : actions = _ := own.trans answered
    rw [told]
    exact ⟨by simp, fun _ _ => rfl⟩
  · have told : actions = _ := own.trans answered
    rw [told]
    exact ⟨by simp, fun _ _ => rfl⟩
  · have told : actions = _ := own.trans released
    rw [told]
    exact ⟨by simp, fun stays well => absurd gone (not_or.mpr ⟨stays, well⟩)⟩

/-- A session whose request is not found does what it does when it has a cache for itself. -/
theorem as_if_alone (present : world.sessions[index]? = some visitor.session)
    (unasked : Session.asked? (eventsOf index before) = none)
    (missed : ((world.run before).1.cache.get visitor.domain head.path).1 = none)
    {alone : ContentCache} (missedAlone : (alone.get visitor.domain head.path).1 = none)
    (after : List Happening) :
    actionsOf index (world.run (before ++ .event index (.request head) :: after)).2 =
      (visitor.session.run alone
        (eventsOf index (before ++ .event index (.request head) :: after))).2.2 := by
  obtain ⟨later, laterEq, turns⟩ := request_turn world index head before after
  obtain ⟨before', after', beforeEq, afterEq, ran⟩ := Session.run_eq_play_of_asked
    visitor.domain visitor.origin visitor.transform alone head (eventsOf index before)
    (eventsOf index after) unasked
  rw [← turnsOf_events index world] at unasked
  have alike := Session.play_alike visitor.domain visitor.origin visitor.transform _ before'
    later after' unasked ((turnsOf_events index world before).trans beforeEq.symm)
    (missed.trans missedAlone.symm) (laterEq.trans afterEq.symm)
  rw [(run_session present _).2, turns, eventsOf_request]
  exact congrArg Prod.snd (alike.trans ran.symm)

theorem completed_by_own_origin {session : Session}
    (present : world.sessions[index]? = some visitor.session)
    (asked : Session.asked? (eventsOf index before) = some head) (get : head.method = "GET")
    (now : (world.run before).1.sessions[index]? = some session)
    (running : session.state = .streaming) (stays : session.clientTerminated = false) :
    let sent := Session.received (eventsOf index before)
    ∃ answer, sent.head? = some answer ∧
      (world.run before).1.offer? (.event index .originEom) =
        (if answer.status = 200 then
          some ⟨visitor.domain, head.path, sent.body, answer.headers.stripResponse⟩
        else none) ∧
      ((world.run before).1.step (.event index .originEom)).2 =
        [(index, .respond
          ⟨⟨answer.status, answer.headers.stripResponse.erase "content-length"⟩, sent.body⟩)] := by
  intro sent
  obtain rfl := Option.some.inj (now.symm.trans (run_session present before).1)
  rw [← turnsOf_events index world before] at asked
  have accounted : Session.Accounted (visitor.session.play (world.turnsOf index before)).1 :=
    Session.play_accounted ..
  obtain ⟨answer, last, offered, completed⟩ := Session.onOriginEom_of_streaming accounted
    (Session.play_asked ..) (Session.play_assembled ..) asked get running stays
  rw [turnsOf_events] at last offered completed
  refine ⟨answer, last, ?_, ?_⟩
  · rw [offer?, now, Option.bind_some, offered, Session.play_domain]
    rfl
  · simp only [step, now, Session.step]
    rw [completed]
    rfl

end Requests

/-! ## The first offer -/

section Built

variable {domains : List String} {settings : CacheSettings} {volume : ContentCache.Volume}
  {cache : ContentCache} {name : String}

theorem room_of_part {world : World} {before after : List Happening} {capacity : Nat}
    (room : (offeredPaths name (world.offers (before ++ after))).toFinset.card ≤ capacity) :
    (offeredPaths name (world.offers before)).toFinset.card ≤ capacity := by
  refine (Finset.card_le_card ?_).trans room
  rw [offers_append, offeredPaths_append, List.toFinset_append]
  exact Finset.subset_union_left

theorem run_holds (built : ContentCache.build domains settings volume = .ok cache)
    (known : name ∈ domains.map Domain.normalize) (visitors : List Visitor)
    (happenings : List Happening)
    (room : (offeredPaths name ((start cache visitors).offers happenings)).toFinset.card ≤
      settings.maxEntries) :
    ((start cache visitors).run happenings).1.cache.Holds name
        ((start cache visitors).offers happenings) ∧
      ((start cache visitors).run happenings).1.cache.maxEntries = settings.maxEntries := by
  induction happenings using List.reverseRecOn with
  | nil =>
      exact ⟨ContentCache.build_holds built known, (ContentCache.build_partitions built).2⟩
  | append_singleton before happening ih =>
      obtain ⟨holds, size⟩ := ih (room_of_part room)
      rw [offers_append, offers, offers, List.append_nil] at room ⊢
      rw [run_append, run_cons, run]
      rcases step_cache cache visitors before happening with
        ⟨offer, offered, stored⟩ | ⟨none, same | ⟨domain, path, looked⟩⟩
      · rw [offered, Option.toList_some] at room ⊢
        rw [stored]
        exact ⟨holds.storeIn offer (by rwa [size]),
          (ContentCache.storeIn_maxEntries _ offer).trans size⟩
      · simp only [none, Option.toList_none, List.append_nil, same]
        exact ⟨holds, size⟩
      · simp only [none, Option.toList_none, List.append_nil, looked]
        exact ⟨holds.get domain path, (ContentCache.get_maxEntries _ domain path).trans size⟩

/-- Whoever first offers an answer for a path of a name fixes what is stored for it, as long as the
name is offered no more paths than there is room for.  A session that asks later connects to no
origin and is answered with just that; one that asked before does what it does on a cache of its
own, and is answered with what its own origin has sent. -/
theorem first_offer_serves_all (built : ContentCache.build domains settings volume = .ok cache)
    (known : name ∈ domains.map Domain.normalize) (visitors : List Visitor)
    (happenings : List Happening)
    (room : (offeredPaths name ((start cache visitors).offers happenings)).toFinset.card ≤
      settings.maxEntries) :
    let world := start cache visitors
    (∀ domain path, Domain.normalize domain = name →
      ((world.run happenings).1.cache.get domain path).1 =
        (firstOffer? name path (world.offers happenings)).map Offer.route) ∧
    ∀ before index visitor head after,
      happenings = before ++ .event index (.request head) :: after →
      visitors[index]? = some visitor → Domain.normalize visitor.domain = name →
      head.method = "GET" → Session.asked? (eventsOf index before) = none →
      let actions := actionsOf index (world.run happenings).2
      (∀ offer, firstOffer? name head.path (world.offers before) = some offer →
        (∀ origin, .connect origin ∉ actions) ∧
        (.clientComplete ∉ eventsOf index before → .clientError ∉ eventsOf index before →
          actions.filter Action.toClient =
            [.respond (Session.hitResponse visitor.transform offer.route)] ∧
          (visitor.transform = none → Session.hitResponse visitor.transform offer.route =
            ⟨⟨200, Route.selectHeaders offer.headers⟩, offer.content⟩))) ∧
      (firstOffer? name head.path (world.offers before) = none →
        (∀ alone : ContentCache, (alone.get visitor.domain head.path).1 = none →
          actions = (visitor.session.run alone (eventsOf index happenings)).2.2) ∧
        ∀ middle rest session, after = middle ++ .event index .originEom :: rest →
          let sofar := before ++ .event index (.request head) :: middle
          (world.run sofar).1.sessions[index]? = some session →
          session.state = .streaming → session.clientTerminated = false →
          let sent := Session.received (eventsOf index sofar)
          ∃ answer, sent.head? = some answer ∧
            (world.run sofar).1.offer? (.event index .originEom) =
              (if answer.status = 200 then
                some ⟨visitor.domain, head.path, sent.body, answer.headers.stripResponse⟩
              else none) ∧
            ((world.run sofar).1.step (.event index .originEom)).2 =
              [(index, .respond
                ⟨⟨answer.status, answer.headers.stripResponse.erase "content-length"⟩,
                  sent.body⟩)]) := by
  intro world
  refine ⟨fun domain path here => ?_, ?_⟩
  · exact (run_holds built known visitors happenings room).1.get_fst here path
  rintro before index visitor head after rfl visits here get unasked actions
  have opened : world.sessions[index]? = some visitor.session := start_session visits
  obtain ⟨holds, _⟩ := run_holds built known visitors before (room_of_part room)
  have lookup := holds.get_fst here head.path
  refine ⟨fun offer first => ?_, fun none => ⟨fun alone missed => ?_, ?_⟩⟩
  · rw [first, Option.map_some] at lookup
    obtain ⟨unconnected, answered⟩ := served_from_cache opened unasked get lookup after
    refine ⟨unconnected, fun stays well => ⟨answered stays well, fun plain => ?_⟩⟩
    rw [plain]
    rfl
  · rw [none, Option.map_none] at lookup
    exact as_if_alone opened unasked lookup missed after
  · rintro middle rest session rfl sofar now running stays
    have asked : Session.asked? (eventsOf index sofar) = some head := by
      rw [eventsOf_request, Session.asked?, List.findSome?_append, ← Session.asked?, unasked]
      rfl
    exact completed_by_own_origin opened asked get now running stays

end Built

/-- Two sessions race for one path.  The second to ask ends first, so a third gets its answer, and
the first still gets what its own origin has sent. -/
theorem race_served_by_winner :
    let head : RequestHead := { method := "GET", uri := .rooted "/" none }
    let origin : Option Endpoint := some ⟨"10.0.0.1", 80⟩
    let cache : ContentCache := { partitions := [("example.com", [])], maxEntries := 1 }
    let visitors : List Visitor :=
      [{ domain := "example.com", origin }, { domain := "example.com", origin },
        { domain := "Example.com", origin }]
    let before : List Happening :=
      [.event 0 (.request head), .event 1 (.request head), .event 0 .connectSuccess,
        .event 1 .connectSuccess, .event 0 (.originHeaders ⟨200, []⟩),
        .event 1 (.originHeaders ⟨200, []⟩), .event 0 (.originBody [1]),
        .event 1 (.originBody [2]), .event 1 .originEom, .event 0 .originEom]
    let happenings := before ++ [.event 2 (.request head)]
    let final := (start cache visitors).run happenings
    ContentCache.build ["Example.com"] { maxEntries := 1 } (.error .notFound) = .ok cache ∧
      "example.com" ∈ ["Example.com"].map Domain.normalize ∧
      (offeredPaths "example.com" ((start cache visitors).offers happenings)).toFinset.card ≤ 1 ∧
      (final.1.cache.get "EXAMPLE.COM" "/").1 = some ⟨"example.com", "/", [2], []⟩ ∧
      (actionsOf 2 final.2).filter Action.toClient = [.respond ⟨⟨200, []⟩, [2]⟩] ∧
      (actionsOf 0 final.2).filter Action.toClient = [.respond ⟨⟨200, []⟩, [1]⟩] := by
  intro head origin cache visitors before happenings final
  have built : ContentCache.build ["Example.com"] { maxEntries := 1 } (.error .notFound) =
      .ok cache := rfl
  have known : "example.com" ∈ ["Example.com"].map Domain.normalize := by decide
  have room : (offeredPaths "example.com"
      ((start cache visitors).offers happenings)).toFinset.card ≤ 1 := by decide
  obtain ⟨stored, requests⟩ := first_offer_serves_all built known visitors happenings room
  obtain ⟨served, -⟩ := requests before 2 { domain := "Example.com", origin } head []
    rfl rfl (by decide) rfl (by decide)
  obtain ⟨-, answered⟩ := served ⟨"example.com", "/", [2], []⟩ (by decide)
  refine ⟨built, known, room, ?_, (answered (by decide) (by decide)).1, by decide⟩
  rw [stored "EXAMPLE.COM" "/" (by decide)]
  decide

end CachingProxy.World
