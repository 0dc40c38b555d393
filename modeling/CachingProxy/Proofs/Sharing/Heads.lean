import CachingProxy.Proofs.Cache.Accesses
import CachingProxy.Proofs.Routing.Forwarded
import CachingProxy.Proofs.Sharing.FirstWriter

/-!
# What heads carry

A head reaches a client as a stored one, an assembled one, a streamed one or one of the proxy's own,
and an origin as a forwarded one.  None of them carries a field that concerns one connection only
(`Headers.Clean`), and what is stored and sent again has the replayed fields alone
(`Headers.Replayed`), whoever stored it.
-/

set_option autoImplicit false

namespace CachingProxy

/-! ## Fields that do not travel on -/

namespace Headers

/-- No field concerns one connection only. -/
def Clean (headers : Headers) : Prop := ∀ field ∈ headers, field.name ∉
  ["connection", "keep-alive", "proxy-connection", "proxy-authenticate", "proxy-authorization",
    "te", "trailer", "transfer-encoding", "upgrade"]

/-- Only fields that are stored and sent again. -/
def Replayed (headers : Headers) : Prop := ∀ field ∈ headers, field.name ∈
  ["content-type", "cache-control", "etag", "expires", "last-modified"]

theorem clean_stripResponse (headers : Headers) : headers.stripResponse.Clean :=
  fun _ member => (passes_iff.mp (List.mem_filter.mp member).2).1

theorem erase_subset (headers : Headers) (name : String) : headers.erase name ⊆ headers :=
  List.filter_subset_self _

theorem Clean.erase {headers : Headers} (clean : headers.Clean) (name : String) :
    (headers.erase name).Clean :=
  fun field member => clean field (headers.erase_subset name member)

theorem clean_stripRequest (headers : Headers) : headers.stripRequest.Clean :=
  (headers.clean_stripResponse.erase _).erase _

theorem Clean.set {headers : Headers} (clean : headers.Clean) {name : String}
    (travels : name ∉ HopByHop.names) (value : Bytes) : (headers.set name value).Clean := by
  intro field member
  rcases List.mem_append.mp member with kept | added
  · exact clean.erase name field kept
  · rw [List.mem_singleton.mp added]
    exact travels

theorem Replayed.erase {headers : Headers} (replayed : headers.Replayed) (name : String) :
    (headers.erase name).Replayed :=
  fun field member => replayed field (headers.erase_subset name member)

theorem Replayed.clean {headers : Headers} (replayed : headers.Replayed) : headers.Clean := by
  have apart : ∀ name ∈ Route.replayed, name ∉ HopByHop.names := by decide
  exact fun field member => apart field.name (replayed field member)

theorem has_eq_false_iff (headers : Headers) (name : String) :
    headers.has name = false ↔ ∀ field ∈ headers, field.name ≠ name := by
  simp [has]

theorem Replayed.not_has {headers : Headers} (replayed : headers.Replayed) {name : String}
    (other : name ∉ Route.replayed) : headers.has name = false := by
  rw [has_eq_false_iff]
  rintro field member rfl
  exact other (replayed field member)

theorem not_has_erase (headers : Headers) (name : String) :
    (headers.erase name).has name = false := by
  rw [has_eq_false_iff]
  intro field member
  simpa using (List.mem_filter.mp member).2

theorem not_has_set {headers : Headers} {name other : String} (missing : headers.has other = false)
    (apart : name ≠ other) (value : Bytes) : (headers.set name value).has other = false := by
  rw [has_eq_false_iff] at missing ⊢
  intro field member
  rcases List.mem_append.mp member with kept | added
  · exact missing field (headers.erase_subset name kept)
  · rw [List.mem_singleton.mp added]
    exact apart

theorem not_has_stripRequest (headers : Headers) :
    headers.stripRequest.has "accept-encoding" = false ∧
      headers.stripRequest.has HopByHop.directName = false := by
  refine ⟨?_, not_has_erase ..⟩
  have gone := headers.stripResponse.not_has_erase "accept-encoding"
  rw [has_eq_false_iff] at gone ⊢
  exact fun field member => gone field (erase_subset _ _ member)

theorem replayed_selectHeaders (headers : Headers) : (Route.selectHeaders headers).Replayed := by
  intro field member
  obtain ⟨name, known, selected⟩ := List.mem_flatMap.mp member
  have same : field.name = name := by simpa using (List.mem_filter.mp selected).2
  rwa [same]

end Headers

/-! ## What a cache hands out -/

namespace ContentCache

def Replaying (cache : ContentCache) : Prop :=
  ∀ name, ∀ entry ∈ cache.partition name, entry.2.headers.Replayed

namespace Replaying

variable {cache next : ContentCache}

theorem built {domains : List String} {settings : CacheSettings} {volume : Volume}
    (built : ContentCache.build domains settings volume = .ok cache) : Replaying cache := by
  intro name entry member
  rw [partition_of_build built] at member
  cases member

theorem exchanged (replaying : Replaying cache) {key : String} {entries : Recency Route}
    (exchange : next.partitions = cache.partitions.put key entries)
    (fits : ∀ entry ∈ entries, entry.2.headers.Replayed) : Replaying next := by
  intro name entry member
  rw [partition_put exchange] at member
  split at member
  · exact fits entry member
  · exact replaying name entry member

theorem found (replaying : Replaying cache) {domain path : String} {route : Route}
    (found : (cache.get domain path).1 = some route) : route.headers.Replayed := by
  cases keyed : cache.key? domain with
  | none =>
      rw [get_of_unknown keyed] at found
      cases found
  | some key =>
      rw [get_of_known keyed] at found
      obtain ⟨entry, held, rfl⟩ := Option.map_eq_some_iff.mp found
      exact replaying key entry (List.mem_of_find?_eq_some held)

theorem get (replaying : Replaying cache) (domain path : String) :
    Replaying (cache.get domain path).2 := by
  cases keyed : cache.key? domain with
  | none =>
      rw [get_of_unknown keyed]
      exact replaying
  | some key =>
      rw [get_of_known keyed]
      refine replaying.exchanged rfl fun entry member => ?_
      rw [Recency.access] at member
      split at member
      · rename_i route held
        rcases List.mem_cons.mp member with rfl | kept
        · obtain ⟨other, known, rfl⟩ := Option.map_eq_some_iff.mp held
          exact replaying key other (List.mem_of_find?_eq_some known)
        · exact replaying key entry (List.mem_filter.mp kept).1
      · exact replaying key entry member

theorem storeIn (replaying : Replaying cache) (offer : Offer) :
    Replaying (offer.storeIn cache) := by
  cases keyed : cache.key? offer.domain with
  | none =>
      rw [storeIn_of_unknown keyed]
      exact replaying
  | some key =>
      cases present : Keyed.has (cache.partition key) offer.path with
      | true =>
          rw [storeIn_of_present keyed present]
          exact replaying
      | false =>
          refine replaying.exchanged (storeIn_of_absent keyed present).1 fun entry member => ?_
          rcases List.mem_cons.mp (List.mem_of_mem_take member) with rfl | kept
          · exact Headers.replayed_selectHeaders offer.headers
          · exact replaying key entry kept

end Replaying

end ContentCache

/-! ## What a session sends -/

namespace Session

theorem replayed_failure (status : Status) : (failure status).head.headers.Replayed := by
  intro field member
  rw [List.mem_singleton.mp member]
  decide

theorem replayed_hitResponse {route : Route} (replayed : route.headers.Replayed)
    (transform : Option Transform) : (hitResponse transform route).head.headers.Replayed := by
  rw [hitResponse.eq_def]
  split
  · split
    · split
      · exact replayed
      · exact (replayed.erase _).erase _
    · exact replayed
  · exact replayed

theorem take_request_replayed (session : Session) {cache : ContentCache}
    (replaying : cache.Replaying) {head : RequestHead} {response : Response}
    (answers : .respond response ∈ (session.take ⟨cache, .request head⟩).2) :
    response.head.headers.Replayed := by
  rcases session.take_cases ⟨cache, .request head⟩ with ⟨-, same⟩ | ⟨-, -, rule⟩
  · rw [same] at answers
    cases answers
  · generalize session.take ⟨cache, .request head⟩ = result at rule answers
    cases rule with
    | hit start get found =>
        rw [Action.respond.inj (List.mem_singleton.mp answers)]
        exact replayed_hitResponse (replaying.found found) session.transform
    | unserved =>
        rw [Action.respond.inj (List.mem_singleton.mp answers)]
        exact replayed_failure 502
    | asked => simp at answers

/-- What a session keeps of its origin's head and the heads it has sent its client. -/
structure Framed (session : Session) (actions : List Action) : Prop where
  kept : ∀ head, session.responseHead = some head → head.headers.Clean
  responds : ∀ response, .respond response ∈ actions →
    response.head.headers.Clean ∧ response.head.headers.has "content-length" = false
  begins : ∀ head, .sendHeaders head ∈ actions → head.headers.Clean

namespace Framed

variable {session next : Session} {actions more : List Action}

theorem concat (framed : Framed session actions)
    (kept : ∀ head, next.responseHead = some head →
      session.responseHead = some head ∨ head.headers.Clean)
    (responds : ∀ response, .respond response ∈ more →
      response.head.headers.Clean ∧ response.head.headers.has "content-length" = false)
    (begins : ∀ head, .sendHeaders head ∈ more → head.headers.Clean) :
    Framed next (actions ++ more) := by
  refine ⟨fun head held => ?_, fun response sent => ?_, fun head sent => ?_⟩
  · exact (kept head held).elim (framed.kept head) id
  · exact (List.mem_append.mp sent).elim (framed.responds response) (responds response)
  · exact (List.mem_append.mp sent).elim (framed.begins head) (begins head)

theorem answer (framed : Framed session actions) {response : Response}
    (replayed : response.head.headers.Replayed)
    (kept : ∀ head, next.responseHead = some head → session.responseHead = some head) :
    Framed next (actions ++ [.respond response]) := by
  refine framed.concat (fun head held => .inl (kept head held)) (fun other sent => ?_) (by simp)
  rw [Action.respond.inj (List.mem_singleton.mp sent)]
  exact ⟨replayed.clean, replayed.not_has (by decide)⟩

end Framed

theorem Moves.framed {cache : ContentCache} {session : Session} {event : Event}
    {result : Session × List Action} (rule : Moves cache session event result)
    (replaying : cache.Replaying) (alive : session.released = false)
    (accounted : Accounted session) {actions : List Action} (framed : Framed session actions) :
    Framed result.1 (actions ++ result.2) := by
  cases rule with
  | hit start get found =>
      exact framed.answer (replayed_hitResponse (replaying.found found) _) (fun _ => id)
  | unserved | unconnected => exact framed.answer (replayed_failure _) (fun _ => id)
  | endMissing | failedUnanswered | detachedUnanswered =>
      exact framed.answer (replayed_failure _) (by simp)
  | unconnectedAlone waiting gone =>
      exact absurd gone (accounted.present_of_waiting alive waiting)
  | headersKept =>
      refine framed.concat (fun head held => .inr ?_) (by simp) (by simp)
      rw [← Option.some.inj held]
      exact Headers.clean_stripResponse _
  | headersSent =>
      refine framed.concat (fun _ => .inl) (by simp) fun head sent => ?_
      rw [Action.sendHeaders.inj (List.mem_singleton.mp sent)]
      exact Headers.clean_stripResponse _
  | endAnswered _ _ _ keptHead =>
      refine framed.concat (by simp) (fun response sent => ?_) (by simp)
      rw [Action.respond.inj (List.mem_singleton.mp sent)]
      exact ⟨(framed.kept _ keptHead).erase _, Headers.not_has_erase ..⟩
  | failedUnseen | failedBegun | detachedBegun =>
      exact framed.concat (by simp) (by simp) (by simp)
  | _ => exact framed.concat (fun _ => .inl) (by simp) (by simp)

theorem play_framed (domain : String) (origin : Option Endpoint) (transform : Option Transform)
    (turns : List Turn) (replaying : ∀ turn ∈ turns, turn.cache.Replaying) :
    Framed ((fresh domain origin transform).play turns).1
      ((fresh domain origin transform).play turns).2 := by
  refine (play_rule_induction (motive := fun turns session actions =>
    (∀ turn ∈ turns, turn.cache.Replaying) → Framed session actions) domain origin transform
    ?start ?ignored ?moved turns).2 replaying
  case start => exact fun _ => ⟨by simp [fresh], by simp, by simp⟩
  case ignored =>
    intro turns session actions turn _ _ framed filled
    exact framed fun other member => filled other (List.mem_append_left _ member)
  case moved =>
    intro turns session actions turn result accounted alive rule framed filled
    refine rule.framed (filled turn (by simp)) alive accounted (framed ?_)
    exact fun other member => filled other (List.mem_append_left _ member)

/-- What a forwarded head carries. -/
structure Readdressed (domain : String) (headers : Headers) : Prop where
  clean : headers.Clean
  unencoded : headers.has "accept-encoding" = false
  undirected : headers.has "x-masternode-direct" = false
  hosted : Http.isValue (Bytes.ofText domain) = true → headers.has "host" = true

theorem readdressed_forwardedHead (domain : String) (head : RequestHead) :
    Readdressed domain (forwardedHead domain head).headers := by
  have clean := head.headers.clean_stripRequest
  obtain ⟨unencoded, undirected⟩ := head.headers.not_has_stripRequest
  rw [forwardedHead]
  split
  · refine ⟨clean.set (by decide) _, Headers.not_has_set unencoded (by decide) _,
      Headers.not_has_set undirected (by decide) _, fun _ => ?_⟩
    rw [Headers.has_eq_isSome_get?, Headers.get?_set, Option.isSome_some]
  · rename_i kept
    refine ⟨clean, unencoded, undirected, fun legal => ?_⟩
    simpa [legal] using kept

end Session

/-! ## What the sessions of a world send -/

namespace World

open Session (Action Event Turn Readdressed)

variable {domains : List String} {settings : CacheSettings} {volume : ContentCache.Volume}
  {cache : ContentCache} {visitors : List Visitor}

theorem run_replaying (built : ContentCache.build domains settings volume = .ok cache)
    (happenings : List Happening) :
    ((start cache visitors).run happenings).1.cache.Replaying := by
  induction happenings using List.reverseRecOn with
  | nil => exact .built built
  | append_singleton happenings happening ih =>
      rw [run_append, run_cons]
      rcases step_cache cache visitors happenings happening with
        ⟨offer, -, stored⟩ | ⟨-, same | ⟨domain, path, looked⟩⟩
      · exact stored ▸ ih.storeIn offer
      · exact same ▸ ih
      · exact looked ▸ ih.get domain path

theorem cache_of_turn {world : World} {index : Nat} {happenings : List Happening} {turn : Turn}
    (taken : turn ∈ world.turnsOf index happenings) :
    ∃ before after, happenings = before ++ after ∧ turn.cache = (world.run before).1.cache := by
  induction happenings generalizing world with
  | nil => cases taken
  | cons happening rest ih =>
      rw [turnsOf, List.mem_append] at taken
      rcases taken with now | later
      · refine ⟨[], happening :: rest, rfl, ?_⟩
        obtain ⟨event, -, rfl⟩ := Option.map_eq_some_iff.mp (Option.mem_toList.mp now)
        rfl
      · obtain ⟨before, after, rfl, found⟩ := ih later
        exact ⟨happening :: before, after, rfl, found⟩

/-- Whatever clients and origins send, and whatever others have stored, no head that a session sends
carries a field that concerns one connection only.  A complete answer has no declared length.  What
a request is answered with at once, that is from the cache or for want of an origin, has the
replayed fields alone.  An origin is asked for no encoding and for no direct answer, and for a host
wherever the domain can be written as one. -/
theorem heads_never_leak_framing
    (built : ContentCache.build domains settings volume = .ok cache)
    (happenings : List Happening) {index : Nat} {visitor : Visitor}
    (visits : visitors[index]? = some visitor) :
    let final := (start cache visitors).run happenings
    (∀ response, .respond response ∈ actionsOf index final.2 →
      response.head.headers.Clean ∧ response.head.headers.has "content-length" = false) ∧
    (∀ head, .sendHeaders head ∈ actionsOf index final.2 → head.headers.Clean) ∧
    (∀ head, .sendOriginRequest head ∈ actionsOf index final.2 →
      Readdressed visitor.domain head.headers) ∧
    ∀ head response,
      (index, .respond response) ∈ (final.1.step (.event index (.request head))).2 →
        response.head.headers.Replayed := by
  intro final
  obtain ⟨present, own⟩ := run_session (start_session visits) happenings
  have replaying : ∀ turn ∈ (start cache visitors).turnsOf index happenings,
      turn.cache.Replaying := by
    intro turn taken
    obtain ⟨before, -, -, found⟩ := cache_of_turn taken
    exact found ▸ run_replaying built before
  have framed := Session.play_framed visitor.domain visitor.origin visitor.transform _ replaying
  have faithful := Session.play_faithful visitor.domain visitor.origin visitor.transform
    ((start cache visitors).turnsOf index happenings)
  rw [own]
  refine ⟨framed.responds, framed.begins, fun head sent => ?_, fun head response sent => ?_⟩
  · obtain ⟨asked, -, rfl⟩ := faithful.sent head sent
    exact Session.readdressed_forwardedHead visitor.domain asked
  · rw [step, present] at sent
    obtain ⟨action, answers, told⟩ := List.mem_map.mp sent
    obtain rfl : action = .respond response := congrArg Prod.snd told
    exact Session.take_request_replayed _ (run_replaying built happenings) answers

/-- A client that lists its own host as a field of the connection, and a stored answer that came
with such fields. -/
theorem listed_host_given_again :
    let asks : RequestHead :=
      { method := "POST", uri := .rooted "/" none
        headers := [⟨"connection", Bytes.ofText "Host, te"⟩, ⟨"host", Bytes.ofText "example.com"⟩,
          ⟨"te", []⟩, ⟨"accept-encoding", Bytes.ofText "gzip"⟩, ⟨"accept", []⟩] }
    let looks : RequestHead := { method := "GET", uri := .rooted "/" none }
    let offer : Offer := ⟨"example.com", "/", [1],
      [⟨"upgrade", []⟩, ⟨"content-type", []⟩, ⟨"content-length", Bytes.ofText "1"⟩]⟩
    let cache : ContentCache := { partitions := [("example.com", [])], maxEntries := 1 }
    let visitor : Visitor := { domain := "example.com", origin := some ⟨"10.0.0.1", 80⟩ }
    let happenings : List Happening :=
      [.put offer, .event 0 (.request asks), .event 0 .connectSuccess]
    let final := (start cache [visitor, visitor]).run happenings
    let sent : RequestHead := { asks with
      headers := [⟨"accept", []⟩, ⟨"host", Bytes.ofText "example.com"⟩] }
    let stored : Response := ⟨⟨200, [⟨"content-type", []⟩]⟩, [1]⟩
    ContentCache.build ["example.com"] { maxEntries := 1 } (.error .notFound) = .ok cache ∧
      [visitor, visitor][0]? = some visitor ∧
      .sendOriginRequest sent ∈ actionsOf 0 final.2 ∧ Readdressed "example.com" sent.headers ∧
      (1, .respond stored) ∈ (final.1.step (.event 1 (.request looks))).2 ∧
      stored.head.headers.Replayed := by
  intro asks looks offer cache visitor happenings final sent stored
  have built : ContentCache.build ["example.com"] { maxEntries := 1 } (.error .notFound) =
      .ok cache := rfl
  have asked : .sendOriginRequest sent ∈ actionsOf 0 final.2 := by decide
  have served : (1, .respond stored) ∈ (final.1.step (.event 1 (.request looks))).2 := by decide
  have first : [visitor, visitor][0]? = some visitor := rfl
  have second : [visitor, visitor][1]? = some visitor := rfl
  obtain ⟨-, -, forwards, -⟩ := heads_never_leak_framing built happenings first
  obtain ⟨-, -, -, replayed⟩ := heads_never_leak_framing built happenings second
  exact ⟨built, first, asked, forwards sent asked, served, replayed looks stored served⟩

end World

end CachingProxy
