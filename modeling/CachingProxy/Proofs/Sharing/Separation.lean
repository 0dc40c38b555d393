import CachingProxy.Proofs.Cache.Names
import CachingProxy.Proofs.Session.Independence
import CachingProxy.Proofs.Sharing.FirstWriter

/-!
# Names do not interfere

Everything that happens on other names can be deleted from a run, the sessions included, and nothing
that is seen of a name changes.  The two runs keep caches with the same partition of the name, and
the sessions on it are the same in both.
-/

set_option autoImplicit false

namespace CachingProxy

open Session (Action Event)

/-! ## What is left of a run -/

def Visitor.isOn (name : String) (visitor : Visitor) : Bool :=
  Domain.normalize visitor.domain == name

/-- The place of a session among those on a name. -/
def placeOn (name : String) (visitors : List Visitor) (index : Nat) : Nat :=
  (visitors.take index).countP (Visitor.isOn name)

def Happening.on? (name : String) (visitors : List Visitor) : Happening → Option Happening
  | .event index its =>
      if (visitors[index]?).any (Visitor.isOn name) then
        some (.event (placeOn name visitors index) its)
      else none
  | .put offer => if Domain.normalize offer.domain = name then some (.put offer) else none
  | .get domain path => if Domain.normalize domain = name then some (.get domain path) else none

/-- What comes of a happening: what a call was answered, or what a session does. -/
inductive Reply where
  | answered (access : Access)
  | told (actions : List Action)
  deriving DecidableEq

namespace World

def reply (world : World) : Happening → Reply
  | .event index event => .told ((world.step (.event index event)).2.map Prod.snd)
  | .put offer => .answered (world.cache.call (.put offer)).1
  | .get domain path => .answered (world.cache.call (.get domain path)).1

/-! ## Places -/

section

variable {name : String} {visitors : List Visitor} {index other : Nat} {visitor : Visitor}

theorem on?_event (here : visitors[index]? = some visitor) (own : visitor.isOn name = true)
    (event : Event) : (Happening.event index event).on? name visitors =
      some (.event (placeOn name visitors index) event) := by
  rw [Happening.on?, here, Option.any_some, if_pos own]

theorem getElem?_filter_isOn (here : visitors[index]? = some visitor)
    (own : visitor.isOn name = true) :
    (visitors.filter (Visitor.isOn name))[placeOn name visitors index]? = some visitor := by
  obtain ⟨within, rfl⟩ := List.getElem?_eq_some_iff.mp here
  have parts : visitors = visitors.take index ++ visitors[index] :: visitors.drop (index + 1) := by
    rw [List.getElem_cons_drop, List.take_append_drop]
  have cut : visitors.filter (Visitor.isOn name) =
      (visitors.take index).filter (Visitor.isOn name) ++
        visitors[index] :: (visitors.drop (index + 1)).filter (Visitor.isOn name) := by
    conv_lhs => rw [parts]
    rw [List.filter_append, List.filter_cons_of_pos own]
  rw [cut, placeOn, List.countP_eq_length_filter, List.getElem?_append_right le_rfl, Nat.sub_self,
    List.getElem?_cons_zero]

theorem placeOn_lt (before : index < other) (here : visitors[index]? = some visitor)
    (own : visitor.isOn name = true) :
    placeOn name visitors index < placeOn name visitors other := by
  obtain ⟨within, rfl⟩ := List.getElem?_eq_some_iff.mp here
  have start : (visitors.take (index + 1)).countP (Visitor.isOn name) =
      placeOn name visitors index + 1 := by
    rw [← List.take_append_getElem within, List.countP_append, List.countP_singleton, if_pos own]
    rfl
  have longer : (visitors.take (index + 1)).countP (Visitor.isOn name) ≤
      placeOn name visitors other := by
    apply List.Sublist.countP_le
    exact (List.take_prefix_take_left before).sublist
  omega

theorem placeOn_ne {visitor' : Visitor} (apart : index ≠ other)
    (here : visitors[index]? = some visitor) (own : visitor.isOn name = true)
    (there : visitors[other]? = some visitor') (own' : visitor'.isOn name = true) :
    placeOn name visitors index ≠ placeOn name visitors other := by
  rcases Nat.lt_or_gt_of_ne apart with before | behind
  · have := placeOn_lt before here own
    omega
  · have := placeOn_lt behind there own'
    omega

end

/-! ## One happening -/

theorem name_of_call? {session : Session} {event : Event} {call : Call}
    (calls : session.call? event = some call) : call.domain = session.domain := by
  cases event with
  | request head =>
      rw [Session.call?] at calls
      split at calls
      · rw [← Option.some.inj calls]
        rfl
      · cases calls
  | originEom =>
      obtain ⟨offer, offered, rfl⟩ := Option.map_eq_some_iff.mp calls
      rw [Session.offer?] at offered
      split at offered
      · split at offered
        · split at offered
          · rw [← Option.some.inj offered]
            rfl
          · cases offered
        · cases offered
      · cases offered
  | _ => cases calls

theorem storeIn_eq_call (cache : ContentCache) (offer : Offer) :
    offer.storeIn cache = (cache.call (.put offer)).2 := by
  simp only [Offer.storeIn, ContentCache.call]
  split <;> rfl

section

variable {name : String} {one other : ContentCache} {visitor : Visitor} {session : Session}
  {turns : List Session.Turn}

theorem step_cache_eq (came : session = (visitor.session.play turns).1) (cache : ContentCache)
    (event : Event) : (session.step cache event).1 =
      match session.call? event with
      | some call => (cache.call call).2
      | none => cache := by
  subst came
  obtain ⟨domain, origin, transform⟩ := visitor
  have serves := Session.step_serves (Session.play_accounted domain origin transform turns)
    (Session.play_asked domain origin transform turns)
    (Session.play_assembled domain origin transform turns) ⟨cache, event⟩
  rw [Visitor.session, serves]
  cases ((Session.fresh domain origin transform).play turns).1.call? event <;> rfl

theorem session_domain (came : session = (visitor.session.play turns).1) :
    session.domain = visitor.domain := by
  rw [came, Session.play_domain]
  rfl

/-- A session on the name does the same over both caches. -/
theorem step_alike (came : session = (visitor.session.play turns).1)
    (own : Domain.normalize visitor.domain = name)
    (alike : ContentCache.AlikeOn name one other) (event : Event) :
    (session.step one event).2 = (session.step other event).2 ∧
      ContentCache.AlikeOn name (session.step one event).1 (session.step other event).1 := by
  rw [step_cache_eq came, step_cache_eq came]
  have finds : session.finds? ⟨one, event⟩ = session.finds? ⟨other, event⟩ := by
    rw [Session.finds?, Session.finds?]
    cases calls : session.call? event with
    | none => rfl
    | some call =>
        have here : call.name = name := by
          rw [Call.name, name_of_call? calls, session_domain came, own]
        cases call with
        | put offer => rfl
        | get domain path =>
            have answers : Access.looked domain path (one.get domain path).1 =
                Access.looked domain path (other.get domain path).1 := (alike.call here).1
            injection answers with _ _ found
            exact congrArg some found
  have takes : session.take ⟨one, event⟩ = session.take ⟨other, event⟩ :=
    Session.take_congr session rfl finds
  refine ⟨takes, ?_⟩
  cases calls : session.call? event with
  | none => exact alike
  | some call =>
      apply (alike.call _).2
      rw [Call.name, name_of_call? calls, session_domain came, own]

theorem step_elsewhere (came : session = (visitor.session.play turns).1)
    (apart : Domain.normalize visitor.domain ≠ name)
    (alike : ContentCache.AlikeOn name one other) (event : Event) :
    ContentCache.AlikeOn name (session.step one event).1 other := by
  rw [step_cache_eq came]
  cases calls : session.call? event with
  | none => exact alike
  | some call =>
      apply alike.elsewhere
      rw [Call.name, name_of_call? calls, session_domain came]
      exact apart

end

/-! ## Two runs -/

/-- A world and what is left of it on one name. -/
structure Parted (name : String) (visitors : List Visitor) (whole part : World) : Prop where
  caches : ContentCache.AlikeOn name whole.cache part.cache
  sessions : ∀ index visitor, visitors[index]? = some visitor → visitor.isOn name = true →
    part.sessions[placeOn name visitors index]? = whole.sessions[index]?

structure Visited (visitors : List Visitor) (world : World) : Prop where
  length : world.sessions.length = visitors.length
  came : ∀ (index : Nat) (visitor : Visitor), visitors[index]? = some visitor →
    ∃ turns, world.sessions[index]? = some (visitor.session.play turns).1

theorem start_parted {cache : ContentCache} (canonical : ContentCache.Canonical cache)
    (name : String) (visitors : List Visitor) :
    Parted name visitors (start cache visitors)
      (start cache (visitors.filter (Visitor.isOn name))) := by
  refine ⟨ContentCache.AlikeOn.refl name canonical, fun index visitor here own => ?_⟩
  rw [start_session here, start_session (getElem?_filter_isOn here own)]

section

variable {name : String} {visitors : List Visitor} {whole part : World}
  {happening kept : Happening}

theorem run_visited (cache : ContentCache) (visitors : List Visitor)
    (happenings : List Happening) : Visited visitors ((start cache visitors).run happenings).1 := by
  refine ⟨?_, fun index visitor here => ?_⟩
  · rw [run_sessions_length, start, List.length_map]
  · exact ⟨_, (run_session (start_session here) happenings).1⟩

theorem Visited.visitor (visited : Visited visitors whole) {index : Nat} {session : Session}
    (present : whole.sessions[index]? = some session) :
    ∃ visitor, visitors[index]? = some visitor := by
  have within := (List.getElem?_eq_some_iff.mp present).1
  rw [visited.length] at within
  exact ⟨_, List.getElem?_eq_getElem within⟩

theorem own_of_on? {index : Nat} {event : Event}
    (left : (Happening.event index event).on? name visitors = some kept) :
    ∃ visitor, visitors[index]? = some visitor ∧ visitor.isOn name = true := by
  rw [Happening.on?] at left
  cases here : visitors[index]? with
  | none =>
      rw [here] at left
      cases left
  | some visitor =>
      refine ⟨visitor, rfl, ?_⟩
      by_contra foreign
      rw [here, Option.any_some, if_neg foreign] at left
      cases left

theorem step_event {world : World} {index : Nat} {session : Session}
    (present : world.sessions[index]? = some session) (event : Event) :
    world.step (.event index event) =
      ({ cache := (session.step world.cache event).1
         sessions := world.sessions.set index (session.step world.cache event).2.1 },
        (session.step world.cache event).2.2.map fun action => (index, action)) := by
  rw [World.step, present]

theorem reply_event {world : World} {index : Nat} {session : Session}
    (present : world.sessions[index]? = some session) (event : Event) :
    world.reply (.event index event) = .told (session.step world.cache event).2.2 := by
  rw [reply, step_event present, List.map_map]
  exact congrArg Reply.told (List.map_id _)

def Acts (name : String) (visitors : List Visitor) (whole part : List (Nat × Action)) : Prop :=
  ∀ (index : Nat) (visitor : Visitor), visitors[index]? = some visitor →
    visitor.isOn name = true → actionsOf index whole = actionsOf (placeOn name visitors index) part

theorem Acts.append {more more' : List (Nat × Action)} {actions actions' : List (Nat × Action)}
    (first : Acts name visitors actions actions') (second : Acts name visitors more more') :
    Acts name visitors (actions ++ more) (actions' ++ more') := by
  intro index visitor here own
  rw [actionsOf_append, actionsOf_append, first index visitor here own,
    second index visitor here own]

/-- What happens on the name happens in both, and comes to the same. -/
theorem Parted.step (parted : Parted name visitors whole part) (visited : Visited visitors whole)
    (left : happening.on? name visitors = some kept) :
    whole.reply happening = part.reply kept ∧
      Parted name visitors (whole.step happening).1 (part.step kept).1 ∧
      Acts name visitors (whole.step happening).2 (part.step kept).2 := by
  cases happening with
  | put offer =>
      obtain ⟨here, rfl⟩ : Domain.normalize offer.domain = name ∧ .put offer = kept := by
        simpa [Happening.on?] using left
      have own : (Call.put offer).name = name := here
      obtain ⟨answered, caches⟩ := parted.caches.call own
      rw [World.step, World.step, storeIn_eq_call, storeIn_eq_call]
      exact ⟨congrArg Reply.answered answered, ⟨caches, parted.sessions⟩, fun _ _ _ _ => rfl⟩
  | get domain path =>
      obtain ⟨here, rfl⟩ : Domain.normalize domain = name ∧ .get domain path = kept := by
        simpa [Happening.on?] using left
      have own : (Call.get domain path).name = name := here
      obtain ⟨answered, caches⟩ := parted.caches.call own
      exact ⟨congrArg Reply.answered answered, ⟨caches, parted.sessions⟩, fun _ _ _ _ => rfl⟩
  | event index event =>
      obtain ⟨visitor, here, own⟩ := own_of_on? left
      obtain ⟨turns, present⟩ := visited.came index visitor here
      obtain rfl := Option.some.inj ((on?_event here own event).symm.trans left)
      have there := (parted.sessions index visitor here own).trans present
      obtain ⟨acts, caches⟩ := step_alike rfl (eq_of_beq own) parted.caches event
      rw [reply_event present, reply_event there, step_event present, step_event there, acts]
      refine ⟨rfl, ⟨caches, fun other visitor' here' own' => ?_⟩,
        fun other visitor' here' own' => ?_⟩
      all_goals by_cases same : index = other
      · subst same
        rw [List.getElem?_set_self (List.getElem?_eq_some_iff.mp present).1,
          List.getElem?_set_self (List.getElem?_eq_some_iff.mp there).1]
      · rw [List.getElem?_set_ne same, List.getElem?_set_ne (placeOn_ne same here own here' own')]
        exact parted.sessions other visitor' here' own'
      · subst same
        rw [actionsOf_own, actionsOf_own]
      · rw [actionsOf_other same, actionsOf_other (placeOn_ne same here own here' own')]

theorem Parted.skip (parted : Parted name visitors whole part) (visited : Visited visitors whole)
    (dropped : happening.on? name visitors = none) :
    Parted name visitors (whole.step happening).1 part ∧
      Acts name visitors (whole.step happening).2 [] := by
  cases happening with
  | put offer =>
      have apart : Domain.normalize offer.domain ≠ name := by simpa [Happening.on?] using dropped
      rw [World.step, storeIn_eq_call]
      exact ⟨⟨parted.caches.elsewhere apart, parted.sessions⟩, fun _ _ _ _ => rfl⟩
  | get domain path =>
      have apart : Domain.normalize domain ≠ name := by simpa [Happening.on?] using dropped
      have foreign : (Call.get domain path).name ≠ name := apart
      exact ⟨⟨parted.caches.elsewhere foreign, parted.sessions⟩,
        fun _ _ _ _ => rfl⟩
  | event index event =>
      cases present : whole.sessions[index]? with
      | none =>
          rw [World.step, present]
          exact ⟨parted, fun _ _ _ _ => rfl⟩
      | some session =>
          obtain ⟨visitor, here⟩ := visited.visitor present
          obtain ⟨turns, came⟩ := visited.came index visitor here
          have foreign : ¬ visitor.isOn name = true := by
            intro own
            rw [on?_event here own] at dropped
            cases dropped
          have apart : ∀ (other : Nat) (visitor' : Visitor), visitors[other]? = some visitor' →
              visitor'.isOn name = true → index ≠ other := by
            rintro other visitor' here' own' rfl
            rw [Option.some.inj (here.symm.trans here')] at foreign
            exact foreign own'
          obtain rfl := Option.some.inj (present.symm.trans came)
          rw [step_event present]
          refine ⟨⟨step_elsewhere rfl (by simpa [Visitor.isOn] using foreign) parted.caches event,
            fun other visitor' here' own' => ?_⟩, fun other visitor' here' own' => ?_⟩
          · rw [List.getElem?_set_ne (apart other visitor' here' own')]
            exact parted.sessions other visitor' here' own'
          · rw [actionsOf_other (apart other visitor' here' own')]
            rfl

end

theorem run_parted {cache : ContentCache} (canonical : ContentCache.Canonical cache) (name : String)
    (visitors : List Visitor) (happenings : List Happening) :
    let whole := (start cache visitors).run happenings
    let part := (start cache (visitors.filter (Visitor.isOn name))).run
      (happenings.filterMap (Happening.on? name visitors))
    Parted name visitors whole.1 part.1 ∧ Acts name visitors whole.2 part.2 := by
  induction happenings using List.reverseRecOn with
  | nil => exact ⟨start_parted canonical name visitors, fun _ _ _ _ => rfl⟩
  | append_singleton before happening ih =>
      obtain ⟨parted, acts⟩ := ih
      have visited := run_visited cache visitors before
      simp only [List.filterMap_append, run_append, List.filterMap_cons, List.filterMap_nil]
      cases left : happening.on? name visitors with
      | none =>
          obtain ⟨parted, none⟩ := parted.skip visited left
          simp only [run]
          exact ⟨parted, acts.append (by simpa using none)⟩
      | some kept =>
          obtain ⟨-, parted, more⟩ := parted.step visited left
          simp only [run, List.append_nil]
          exact ⟨parted, acts.append more⟩

section Built

variable {domains : List String} {settings : CacheSettings} {volume : ContentCache.Volume}
  {first : ContentCache}

/-- Delete from a run all that happens on other names, and the sessions there.  Then whatever
happens next on the name comes to the same, the sessions on it have taken the same actions, and as
many entries with the same digests are held.  Two spellings of a name are one name: looking a domain
up as it is given finds what looking up its canonical form finds. -/
theorem names_do_not_interfere (built : ContentCache.build domains settings volume = .ok first)
    (calls : List Call) (visitors : List Visitor) (happenings : List Happening) (name : String) :
    let cache := (first.serve calls).2
    let whole := (start cache visitors).run happenings
    let part := (start cache (visitors.filter (Visitor.isOn name))).run
      (happenings.filterMap (Happening.on? name visitors))
    (∀ happening kept, happening.on? name visitors = some kept →
      whole.1.reply happening = part.1.reply kept) ∧
    (∀ (index : Nat) (visitor : Visitor), visitors[index]? = some visitor →
      visitor.isOn name = true →
      actionsOf index whole.2 = actionsOf (placeOn name visitors index) part.2) ∧
    (∀ domain, Domain.normalize domain = name →
      whole.1.cache.size domain = part.1.cache.size domain ∧
      whole.1.cache.assetHashes domain = part.1.cache.assetHashes domain) ∧
    (∀ domain, whole.1.cache.entries? domain =
      whole.1.cache.partitions.get? (Domain.normalize domain)) ∧
    ∀ one other, Domain.normalize one = Domain.normalize other →
      whole.1.cache.key? one = whole.1.cache.key? other := by
  intro cache whole part
  have canonical : ContentCache.Canonical cache :=
    ((ContentCache.serve_after first calls).recorded built).canonical
  obtain ⟨parted, acts⟩ := run_parted canonical name visitors happenings
  refine ⟨fun happening kept left => ?_, acts, fun domain here => ?_, fun domain => ?_,
    fun one other same => ?_⟩
  · exact (parted.step (run_visited cache visitors happenings) left).1
  · exact ⟨parted.caches.size_eq here, parted.caches.assetHashes_eq here⟩
  · exact parted.caches.canonical.1.entries?_eq domain
  · exact parted.caches.canonical.1.key?_congr same

end Built

/-- What happens on one name, in two spellings, among traffic on another that evicts its entries. -/
theorem traffic_elsewhere_unnoticed :
    let head : RequestHead := { method := "GET", uri := .rooted "/" none }
    let first : ContentCache :=
      { partitions := [("example.com", []), ("other.org", [])], maxEntries := 1 }
    let visitors : List Visitor := [⟨"other.org", none, none⟩, ⟨"EXAMPLE.com", none, none⟩]
    let page : Happening := .put ⟨" Example.com", "/", [1], []⟩
    let happenings := [.put ⟨"other.org", "/", [9], []⟩, page, .event 0 (.request head),
      .put ⟨"Other.org", "/b", [8], []⟩, .event 1 (.request head)]
    let whole := (start first visitors).run happenings
    ContentCache.build ["Example.com", "other.org", "example.com "] { maxEntries := 1 }
        (.error .notFound) = .ok first ∧
      happenings.filterMap (Happening.on? "example.com" visitors) =
        [page, .event 0 (.request head)] ∧
      whole.1.reply (.get "example.COM" "/") =
        .answered (.looked "example.COM" "/" (some ⟨" Example.com", "/", [1], []⟩)) ∧
      actionsOf 1 whole.2 = [.respond ⟨⟨200, []⟩, [1]⟩] := by
  intro head first visitors page happenings whole
  have built : ContentCache.build ["Example.com", "other.org", "example.com "] { maxEntries := 1 }
      (.error .notFound) = .ok first := rfl
  obtain ⟨replies, acts, -⟩ :=
    names_do_not_interfere built [] visitors happenings "example.com"
  refine ⟨built, rfl, ?_, ?_⟩
  · exact (replies (.get "example.COM" "/") _ rfl).trans (by decide)
  · exact (acts 1 ⟨"EXAMPLE.com", none, none⟩ rfl (by decide)).trans (by decide)

end World

end CachingProxy
