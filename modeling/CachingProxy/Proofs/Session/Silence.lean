import CachingProxy.Proofs.Session.Holders
import CachingProxy.Proofs.Session.Storing

/-!
# Silence behind a client that is gone

Once its client is gone a session has nothing more to say: whatever still comes is taken without an
action and without a look at the cache, and the event that frees it is answered with `release`.  It
gives its origin up once at most, when the client fails while an origin is attached (`GivesUp`).
-/

set_option autoImplicit false

namespace CachingProxy.Session

section

variable {cache : ContentCache} {session : Session} {event : Event}
  {result : Session × List Action}

theorem Moves.silent (rule : Moves cache session event result)
    (alive : session.released = false) (accounted : Accounted session)
    (gone : session.clientTerminated = true) :
    result.2 = if result.1.released then [.release] else [] := by
  -- A client that is gone leaves an alive session to its origin, so nothing is asked for any more.
  have attached := accounted.attached_of_gone alive gone
  cases rule with
  | hit start | unserved start | asked start =>
      exact absurd attached (accounted.not_attached (.inl start))
  | connected waiting | unconnected waiting | unconnectedAlone waiting =>
      exact absurd attached (accounted.not_attached (.inr waiting))
  | bodyHeld present | bodyForwarded present | eomHeld present | eomForwarded present
  | completed present | completedLast present | left present | leftLast present
  | headersSent _ _ _ present | bodySent _ _ _ present | endSent _ present
  | endAnswered _ present | endMissing _ present | failedUnanswered _ _ present
  | failedBegun _ _ present | detachedDone _ present | detachedUnanswered _ present
  | detachedBegun _ present | paused present | resumed present =>
      cases present.symm.trans gone
  | headersKept | headersUnseen | bodyKept | endUnseen | failedUnseen => simp [alive]
  | detachedLast => rfl

theorem Moves.gives_up_iff (rule : Moves cache session event result)
    (alive : session.released = false) (accounted : Accounted session) :
    .abortOrigin ∈ result.2 ↔ event = .clientError ∧ session.clientTerminated = false ∧
      session.originAttached = true := by
  cases rule with
  | left present attached => simp [present, attached]
  | leftLast _ detached => simp [detached]
  | unconnectedAlone waiting gone =>
      exact absurd gone (accounted.present_of_waiting alive waiting)
  | connected =>
      constructor
      · intro given
        split at given <;> simp at given
      · rintro ⟨other, -⟩
        cases other
  | _ => simp

theorem Moves.given_up (rule : Moves cache session event result)
    (failed : event = .clientError) (attached : session.originAttached = true) :
    result.2 = [.abortOrigin] ∧ result.1.clientTerminated = true ∧
      result.1.released = session.released := by
  cases rule with
  | left => exact ⟨rfl, rfl, rfl⟩
  | leftLast _ detached => cases detached.symm.trans attached
  | _ => cases failed

end

/-! ## One event -/

theorem step_silent {session : Session} (accounted : Accounted session)
    (gone : session.clientTerminated = true) (cache : ContentCache) (event : Event) :
    (session.step cache event).1 = cache ∧
      ((session.step cache event).2.2 = [] ∨ (session.step cache event).2.2 = [.release]) := by
  cases alive : session.released with
  | true =>
      rw [step_of_released cache session event alive]
      exact ⟨rfl, .inl rfl⟩
  | false =>
      have attached := accounted.attached_of_gone alive gone
      constructor
      · rcases session.step_cache cache event with same | ⟨start, _⟩ | ⟨offer, offered, _⟩
        · exact same
        · exact absurd attached (accounted.not_attached (.inl start))
        · cases (running_of_offer offered).2.2.1.symm.trans gone
      · cases used : session.ignores event with
        | true =>
            rw [step_of_ignores cache session event used]
            exact .inl rfl
        | false =>
            rw [(step_moves cache session event used).silent alive accounted gone]
            split
            · exact .inr rfl
            · exact .inl rfl

theorem step_gives_up_iff {session : Session} (accounted : Accounted session)
    (cache : ContentCache) (event : Event) :
    .abortOrigin ∈ (session.step cache event).2.2 ↔ event = .clientError ∧
      session.clientTerminated = false ∧ session.originAttached = true := by
  cases used : session.ignores event with
  | false =>
      have alive := released_of_used session event used
      exact (step_moves cache session event used).gives_up_iff alive accounted
  | true =>
      rw [step_of_ignores cache session event used]
      constructor
      · intro given
        cases given
      · rintro ⟨rfl, present, attached⟩
        have alive : session.released = false := by
          by_contra released
          rw [Bool.not_eq_false, accounted.released_iff, present] at released
          exact Bool.false_ne_true released.1
        simp [ignores, alive, present] at used

/-! ## A whole run -/

/-- A run gives its origin up never, or with its last action but for the release. -/
inductive GivesUp (session : Session) (actions : List Action) : Prop where
  | never (kept : .abortOrigin ∉ actions)
  | once (earlier : List Action) (kept : .abortOrigin ∉ earlier)
      (gone : session.clientTerminated = true)
      (last : actions = earlier ++ .abortOrigin :: if session.released then [.release] else [])

namespace GivesUp

variable {session : Session} {actions : List Action}

theorem moved (sofar : GivesUp session actions) {cache : ContentCache} {event : Event}
    {result : Session × List Action} (rule : Moves cache session event result)
    (alive : session.released = false) (accounted : Accounted session) :
    GivesUp result.1 (actions ++ result.2) := by
  cases sofar with
  | once earlier kept gone last =>
      apply GivesUp.once earlier kept (rule.stays_gone gone)
      rw [last, alive, rule.silent alive accounted gone]
      simp
  | never kept =>
      by_cases given : .abortOrigin ∈ result.2
      · obtain ⟨failed, _, attached⟩ := (rule.gives_up_iff alive accounted).mp given
        obtain ⟨only, gone, freed⟩ := rule.given_up failed attached
        apply GivesUp.once actions kept gone
        rw [only, freed, alive]
        rfl
      · apply GivesUp.never
        rw [List.mem_append]
        exact not_or.mpr ⟨kept, given⟩

theorem count_le (whole : GivesUp session actions) : actions.count .abortOrigin ≤ 1 := by
  cases whole with
  | never kept =>
      rw [List.count_eq_zero_of_not_mem kept]
      exact Nat.zero_le 1
  | once earlier kept _ last =>
      rw [last, List.count_append, List.count_eq_zero_of_not_mem kept]
      split <;> simp

theorem rest (whole : GivesUp session actions) {before after : List Action}
    (parted : actions = before ++ .abortOrigin :: after) : after = [] ∨ after = [.release] := by
  cases whole with
  | never kept =>
      rw [parted] at kept
      simp at kept
  | once earlier kept _ last =>
      have freeing : after = if session.released then [.release] else [] := by
        rw [parted] at last
        -- Both lists are cut at the only place where the origin is given up.
        rcases List.append_eq_append_iff.mp last with ⟨between, longer, tail⟩ | ⟨between, -, tail⟩
        · cases between with
          | nil => exact (List.cons.inj tail).2
          | cons action between =>
              obtain ⟨rfl, -⟩ := List.cons.inj tail
              rw [longer] at kept
              simp at kept
        · cases between with
          | nil => exact (List.cons.inj tail).2.symm
          | cons action between =>
              have given : .abortOrigin ∈ if session.released then [Action.release] else [] := by
                rw [(List.cons.inj tail).2]
                simp
              split at given <;> simp at given
      rw [freeing]
      split
      · exact .inr rfl
      · exact .inl rfl

end GivesUp

theorem play_gives_up (domain : String) (origin : Option Endpoint) (transform : Option Transform)
    (turns : List Turn) :
    GivesUp ((fresh domain origin transform).play turns).1
      ((fresh domain origin transform).play turns).2 := by
  refine (play_rule_induction (motive := fun _ session actions => GivesUp session actions)
    domain origin transform ?start ?ignored ?moved turns).2
  case start => exact .never (by simp)
  case ignored =>
    intro _ _ _ _ _ _ sofar
    exact sofar
  case moved =>
    intro _ _ _ _ _ accounted alive rule sofar
    exact sofar.moved rule alive accounted

/-- Behind a client that is gone every event is answered with nothing but `release` and leaves the
cache as it is.  The origin is given up exactly by the failure of a client that was there while an
origin is attached, so once at most, and then only `release` follows. -/
theorem silent_once_client_gone (domain : String) (origin : Option Endpoint)
    (transform : Option Transform) (turns : List Turn) :
    let session := ((fresh domain origin transform).play turns).1
    let actions := ((fresh domain origin transform).play turns).2
    (session.clientTerminated = true → ∀ later cache event,
      ((session.play later).1.step cache event).1 = cache ∧
        (((session.play later).1.step cache event).2.2 = [] ∨
          ((session.play later).1.step cache event).2.2 = [.release])) ∧
    (∀ cache event, .abortOrigin ∈ (session.step cache event).2.2 ↔ event = .clientError ∧
      session.clientTerminated = false ∧ session.originAttached = true) ∧
    actions.count .abortOrigin ≤ 1 ∧
    ∀ before after, actions = before ++ .abortOrigin :: after →
      after = [] ∨ after = [.release] := by
  intro session actions
  have accounted : Accounted session := play_accounted domain origin transform turns
  have once : GivesUp session actions := play_gives_up domain origin transform turns
  refine ⟨?_, step_gives_up_iff accounted, once.count_le, fun _ _ parted => once.rest parted⟩
  intro gone later cache event
  have reached := play_accounted domain origin transform (turns ++ later)
  rw [play_append] at reached
  exact step_silent reached (session.play_stays_gone later gone) cache event

/-- What still comes behind the failure of a client. -/
example :
    let cache : ContentCache := { partitions := [], maxEntries := 1 }
    let turns := [.request { method := "GET", uri := .rooted "/" none }, .connectSuccess,
      .clientError, .originHeaders ⟨200, []⟩, .originBody [1], .egressPaused, .clientBody [2],
      .originEom, .originDetached, .clientComplete].map (Turn.mk cache)
    ((fresh "example.com" (some ⟨"10.0.0.1", 80⟩) none).play turns).2.drop 4 =
      [.abortOrigin, .release] := by
  decide

end CachingProxy.Session
