import CachingProxy.Proofs.Domain.Hosts
import CachingProxy.Proofs.Session.Holders
import CachingProxy.Proofs.Session.Storing
import CachingProxy.Proofs.Session.Stripping
import CachingProxy.Routing.Router

/-!
# The host an origin is asked for

The domain of a request decides under which name its answer is stored, and its forwarded head which
host the origin is asked for.  The field `host` that travels on is the client's own, if it came
with one.  In origin form the domain was read from that field; in absolute form it was read from
the target and the field may name any host.
-/

set_option autoImplicit false

namespace CachingProxy

/-! ## The fields that travel on -/

namespace Headers

/-- All fields of a name travel on, or none. -/
theorem get?_stripRequest (headers : Headers) (name : String) :
    headers.stripRequest.get? name = if headers.travels name then headers.get? name else none := by
  rw [stripRequest_eq, get?, List.find?_filter, get?]
  by_cases kept : headers.travels name = true
  · rw [if_pos kept]
    congr 2
    funext field
    by_cases here : field.name = name
    · simp [here, kept]
    · simp [here]
  · rw [if_neg kept, Option.map_eq_none_iff, List.find?_eq_none]
    intro field _ found
    simp only [decide_eq_true_eq, beq_iff_eq] at found
    obtain ⟨travelled, rfl⟩ := found
    exact kept travelled

theorem has_eq_isSome_get? (headers : Headers) (name : String) :
    headers.has name = (headers.get? name).isSome := by
  rw [has, get?, Option.isSome_map, List.isSome_find?]

theorem get?_stripRequest_of_has {headers : Headers} {name : String}
    (kept : headers.stripRequest.has name = true) :
    headers.stripRequest.get? name = headers.get? name := by
  rw [has_eq_isSome_get?] at kept
  rw [get?_stripRequest] at kept ⊢
  split at kept
  · rename_i travelled
    rw [if_pos travelled]
  · cases kept

theorem get?_set (headers : Headers) (name : String) (value : Bytes) :
    (headers.set name value).get? name = some value := by
  have gone : (headers.erase name).find? (fun field => field.name == name) = none := by
    rw [List.find?_eq_none]
    intro field member
    have other := (List.mem_filter.mp member).2
    simpa using other
  rw [get?, set, List.find?_append, gone, Option.none_or]
  simp

end Headers

namespace Session

open Text

/-- The forwarded head names the client's host if that travels on, else the domain as a host. -/
theorem named?_forwardedHead {domain : String} (plain : Plain domain.toList) (head : RequestHead) :
    Domain.named? (forwardedHead domain head).headers =
      if head.headers.stripRequest.has "host" then Domain.named? head.headers
      else Domain.ofHost? domain := by
  rw [forwardedHead]
  by_cases kept : head.headers.stripRequest.has "host" = true
  · have same : head.headers.stripRequest.text? "host" = head.headers.text? "host" := by
      rw [Headers.text?, Headers.get?_stripRequest_of_has kept, Headers.text?]
    simp only [kept, Bool.not_true, Bool.false_and, Bool.false_eq_true, if_false, if_true,
      Domain.named?, same]
  · simp only [kept, Bytes.isValue_ofText plain, Bool.not_false, Bool.and_self, if_true,
      Bool.false_eq_true, if_false, Domain.named?, Headers.text?, Headers.get?_set,
      Option.bind_some, Bytes.asText?_ofText plain]

/-! ## What a session sends its origin -/

/-- What a session holds for its origin and what it has sent is the head of its request, forwarded. -/
structure Faithful (domain : String) (events : List Event) (session : Session)
    (actions : List Action) : Prop where
  home : session.domain = domain
  asked : Asked events session
  held : ∀ request, session.request = some request →
    ∃ head, asked? events = some head ∧ request = forwardedHead domain head
  sent : ∀ request, .sendOriginRequest request ∈ actions →
    ∃ head, asked? events = some head ∧ request = forwardedHead domain head

namespace Faithful

variable {domain : String} {events : List Event} {event : Event} {session next : Session}
  {actions more : List Action} {head : RequestHead}

theorem asked?_kept (first : asked? events = some head) :
    asked? (events ++ [event]) = some head := by
  rw [asked?_concat, first, Option.some_or]

theorem carried (faithful : Faithful domain events session actions)
    (asked : Asked (events ++ [event]) next) (home : next.domain = session.domain)
    (held : ∀ request, next.request = some request → session.request = some request)
    (sent : ∀ request, .sendOriginRequest request ∈ more → session.request = some request) :
    Faithful domain (events ++ [event]) next (actions ++ more) := by
  have known (request : RequestHead) (here : session.request = some request) :
      ∃ head, asked? (events ++ [event]) = some head ∧ request = forwardedHead domain head := by
    obtain ⟨head, first, same⟩ := faithful.held request here
    exact ⟨head, asked?_kept first, same⟩
  refine ⟨home.trans faithful.home, asked, fun request here => known request (held request here),
    fun request member => ?_⟩
  rcases List.mem_append.mp member with earlier | now
  · obtain ⟨head, first, same⟩ := faithful.sent request earlier
    exact ⟨head, asked?_kept first, same⟩
  · exact known request (sent request now)

theorem asking (faithful : Faithful domain events session actions)
    (asked : Asked (events ++ [.request head]) next) (start : session.state = .new)
    (home : next.domain = session.domain)
    (held : next.request = some (forwardedHead session.domain head))
    (quiet : ∀ request, .sendOriginRequest request ∉ more) :
    Faithful domain (events ++ [.request head]) next (actions ++ more) := by
  have first : asked? (events ++ [.request head]) = some head := by
    rw [asked?_concat, faithful.asked.unasked start]
    rfl
  refine ⟨home.trans faithful.home, asked, fun request here => ?_, fun request member => ?_⟩
  · refine ⟨head, first, ?_⟩
    rw [← Option.some.inj (held.symm.trans here), faithful.home]
  · rcases List.mem_append.mp member with earlier | now
    · obtain ⟨other, before, same⟩ := faithful.sent request earlier
      exact ⟨other, asked?_kept before, same⟩
    · exact absurd now (quiet request)

theorem stored_under (faithful : Faithful domain events session actions)
    (accounted : Accounted session) (assembled : Assembled events session)
    (first : asked? events = some head) {offer : Offer}
    (offered : session.offer? event = some offer) :
    offer.domain = domain ∧ offer.path = head.path := by
  obtain ⟨rfl, running, present, get⟩ := running_of_offer offered
  obtain ⟨request, known, method, _⟩ := faithful.asked.of_streaming accounted running
  obtain rfl := Option.some.inj (first.symm.trans known)
  obtain ⟨_, _, offers, _⟩ := onOriginEom_of_streaming accounted faithful.asked assembled first
    (method.symm.trans get) running present
  rw [offered] at offers
  split at offers
  · rw [Option.some.inj offers]
    exact ⟨faithful.home, rfl⟩
  · cases offers

end Faithful

theorem Moves.faithful {cache : ContentCache} {session : Session} {event : Event}
    {result : Session × List Action} (rule : Moves cache session event result)
    {domain : String} {events : List Event} {actions : List Action}
    (alive : session.released = false) (accounted : Accounted session)
    (faithful : Faithful domain events session actions) :
    Faithful domain (events ++ [event]) result.1 (actions ++ result.2) := by
  have asked := rule.request_known alive accounted faithful.asked
  cases rule with
  | unserved start | asked start => exact faithful.asking asked start rfl rfl (by simp)
  | connected _ held =>
      refine faithful.carried asked rfl (by simp) fun request member => ?_
      rw [held, Option.some_inj]
      split at member <;> simpa [eq_comm] using member
  | unconnectedAlone waiting gone =>
      exact absurd gone (accounted.present_of_waiting alive waiting)
  | _ => exact faithful.carried asked rfl (fun _ => id) (by simp)

theorem play_faithful (domain : String) (origin : Option Endpoint)
    (transform : Option Transform) (turns : List Turn) :
    Faithful domain (turns.map Turn.event) ((fresh domain origin transform).play turns).1
      ((fresh domain origin transform).play turns).2 := by
  refine (play_rule_induction (motive := fun turns session actions =>
    Faithful domain (turns.map Turn.event) session actions) domain origin transform
    ?start ?ignored ?moved turns).2
  case start => exact ⟨rfl, ⟨fun _ => rfl, fun old => absurd rfl old⟩, by simp [fresh], by simp⟩
  case ignored =>
    intro turns session actions turn accounted unused faithful
    rw [List.map_append, ← List.append_nil actions]
    exact faithful.carried (faithful.asked.ignored accounted.toSettled unused) rfl
      (fun _ => id) (by simp)
  case moved =>
    intro turns session actions turn result accounted alive rule faithful
    rw [List.map_append]
    exact rule.faithful alive accounted faithful

end Session

/-! ## From the router to the origin -/

namespace Router

open Session

theorem dispatch_eq_proxy {router : Router} {cache : ContentCache} {edge : Option EdgeNodes}
    {secure : Bool} {head : RequestHead} {session : Session}
    (routed : router.dispatch cache edge secure head = .proxy session) :
    ∃ domain, Domain.resolve head.uri head.headers = some domain ∧
      session = fresh domain (router.table.origin? domain)
        (router.worker.map ServiceWorker.inject) := by
  rw [dispatch] at routed
  split at routed
  · cases routed
  · rename_i domain resolved
    refine ⟨domain, resolved, ?_⟩
    split at routed
    · cases routed
    split at routed
    · cases routed
    split at routed
    · cases routed
    split at routed
    · cases routed
    · exact (Handler.proxy.inj routed).symm

/-- The answer to a request is stored under the domain of the request.  The forwarded head names
that domain exactly if the client's own host does, where that travels on, and else if no part of the
domain reads as a port, a bracket or a blank at its ends.  So a request in origin form asks for the
domain under which its answer is stored. -/
theorem forwarded_host_names_domain_iff (router : Router) (cache : ContentCache)
    (edge : Option EdgeNodes) (secure : Bool) (head : RequestHead) {text : String}
    (read : Uri.ofText? text = some head.uri) {session : Session}
    (routed : router.dispatch cache edge secure head = .proxy session) (turns : List Turn)
    (first : asked? (turns.map Turn.event) = some head) :
    Domain.resolve head.uri head.headers = some session.domain ∧
      (∀ event offer, (session.play turns).1.offer? event = some offer →
        offer.domain = session.domain ∧ offer.path = head.path) ∧
      ∀ sent, .sendOriginRequest sent ∈ (session.play turns).2 →
        (Domain.named? sent.headers = some session.domain ↔
          if head.headers.stripRequest.has "host" then
            Domain.named? head.headers = some session.domain
          else Domain.stripPort session.domain = session.domain) ∧
        (head.uri.host? = none → head.headers.stripRequest.has "host" = true →
          Domain.named? sent.headers = some session.domain) := by
  obtain ⟨domain, resolved, rfl⟩ := dispatch_eq_proxy routed
  have faithful := play_faithful domain (router.table.origin? domain)
    (router.worker.map ServiceWorker.inject) turns
  obtain ⟨plain, host, ofHost⟩ := Domain.plain_resolve read resolved
  refine ⟨resolved, fun event offer offered => ?stored, fun sent member => ?sent⟩
  case stored =>
    exact faithful.stored_under (play_accounted ..) (play_assembled ..) first offered
  case sent =>
    obtain ⟨_, known, rfl⟩ := faithful.sent sent member
    obtain rfl := Option.some.inj (first.symm.trans known)
    rw [named?_forwardedHead plain]
    refine ⟨?_, fun hostless kept => ?_⟩
    · split
      · rfl
      · exact Domain.ofHost?_self_iff ofHost
    · rw [if_pos kept, ← Domain.resolve_of_hostless hostless, resolved]
      rfl

/-- A host with a port and capitals, in a request in origin form. -/
theorem origin_form_asks_for_domain :
    let head : RequestHead :=
      { method := "GET", uri := .rooted "/page" none
        headers := [⟨"host", Bytes.ofText "Example.COM:8080"⟩] }
    let cache : ContentCache := { partitions := [("example.com", [])], maxEntries := 1 }
    let router : Router := { table := ⟨[("example.com", ⟨"10.0.0.1", 80⟩)]⟩ }
    let turns := [.request head, .connectSuccess, .originHeaders ⟨200, []⟩].map (Turn.mk cache)
    ∃ sent, .sendOriginRequest sent ∈ ((router.session "example.com").play turns).2 ∧
      Domain.named? sent.headers = some "example.com" := by
  intro head cache router turns
  have routed : router.dispatch cache none false head =
      .proxy (router.session "example.com") := rfl
  have sent : .sendOriginRequest (forwardedHead "example.com" head) ∈
      ((router.session "example.com").play turns).2 := by decide
  have read : Uri.ofText? "/page" = some head.uri := by decide
  obtain ⟨-, -, named⟩ :=
    forwarded_host_names_domain_iff router cache none false head read routed turns rfl
  exact ⟨_, sent, (named _ sent).2 rfl (by decide)⟩

/-- In absolute form the target names the domain, and the origin is asked for the host that the
client names besides.  Its answer is stored under the domain. -/
theorem foreign_host_stored_under_domain :
    let head : RequestHead :=
      { method := "GET", uri := .absolute "http" "example.com" "/page" none
        headers := [⟨"host", Bytes.ofText "other.org"⟩] }
    let cache : ContentCache := { partitions := [("example.com", [])], maxEntries := 1 }
    let router : Router := { table := ⟨[("example.com", ⟨"10.0.0.1", 80⟩)]⟩ }
    let session := router.session "example.com"
    let result := session.run cache
      [.request head, .connectSuccess, .originHeaders ⟨200, []⟩, .originBody [1], .originEom]
    Uri.ofText? "http://example.com/page" = some head.uri ∧
      router.dispatch cache none false head = .proxy session ∧
      (∃ sent, .sendOriginRequest sent ∈ result.2.2 ∧
        Domain.named? sent.headers = some "other.org") ∧
      (result.1.get "example.com" "/page").1 = some ⟨"example.com", "/page", [1], []⟩ := by
  intro head cache router session result
  refine ⟨by decide, rfl, ⟨forwardedHead "example.com" head, ?_, ?_⟩, ?_⟩ <;> decide

end Router

end CachingProxy
