import CachingProxy.Proofs.Routing.Agreement
import CachingProxy.Proofs.Text.Digits

/-!
# Domains under their own names

A configured name is kept but for the blanks at its ends and for capitals.  More is taken from the
host of a request: its brackets, its port and the dots at its end.  So a domain is found under its
own name exactly if the name has none of these (`Domain.isOwnHost`).
-/

set_option autoImplicit false

namespace CachingProxy

/-! ## Names as hosts -/

namespace Domain

open Text

/-- A name from which nothing is taken when it comes as a host: no bracket stands before it, and
neither a port nor a dot behind it. -/
def isOwnHost (name : String) : Bool :=
  name.toList.head? != some '[' && (withoutPort? name.toList).isNone &&
    name.toList.getLast? != some '.'

theorem isDigit_lowerChar (c : Char) : isDigit (lowerChar c) = isDigit c := by
  by_cases upper : 'A' ≤ c ∧ c ≤ 'Z'
  · have shifted := toNat_lowerChar upper
    have large : 65 ≤ c.toNat := upper.1
    have here : isDigit c = false := by
      rw [Bool.eq_false_iff, ne_eq, isDigit_iff]
      omega
    have there : isDigit (lowerChar c) = false := by
      rw [Bool.eq_false_iff, ne_eq, isDigit_iff]
      omega
    rw [here, there]
  · rw [lowerChar, if_neg upper]

theorem withoutPort?_lower (host : List Char) :
    withoutPort? (lower host) = (withoutPort? host).map lower := by
  have kept : (fun c => !(c == ':')) ∘ lowerChar = fun c => !(c == ':') :=
    funext fun c => congrArg not (lowerChar_beq c rfl)
  have digits : isDigit ∘ lowerChar = isDigit := funext isDigit_lowerChar
  rw [withoutPort?, withoutPort?, cutAt, cutAt, lower, List.takeWhile_map, List.dropWhile_map, kept]
  cases host.dropWhile fun c => !(c == ':') with
  | nil => rfl
  | cons c port =>
      simp only [List.map_cons, List.all_map, digits]
      split <;> rfl

theorem stripPortChars_lower (host : List Char) :
    stripPortChars (lower host) = lower (stripPortChars host) := by
  by_cases bracket : (trim host).head? = some '['
  · obtain ⟨rest, opened⟩ := List.head?_eq_some_iff.mp bracket
    have opened' : trim (lower host) = '[' :: lower rest := by
      rw [trim_lower, opened]
      rfl
    have kept : (fun c => c != ']') ∘ lowerChar = fun c => c != ']' :=
      funext fun c => congrArg not (lowerChar_beq c rfl)
    rw [stripPortChars_of_bracket opened, stripPortChars_of_bracket opened', lower,
      List.takeWhile_map, kept, lower]
  · have bare : (trim (lower host)).head? ≠ some '[' := by
      rw [trim_lower, lower, List.head?_map]
      intro opened
      obtain ⟨c, first, folded⟩ := Option.map_eq_some_iff.mp opened
      exact bracket (eq_of_lowerChar folded rfl ▸ first)
    rw [stripPortChars_of_bare bracket, stripPortChars_of_bare bare, trim_lower,
      withoutPort?_lower]
    cases withoutPort? (trim host) <;> rfl

theorem ofHost?_lowercase (host : String) : ofHost? (lowercase host) = ofHost? host := by
  rw [ofHost?, ofHost?, lowercase, String.toList_ofList, stripPortChars_lower, trimEndBy_dot_lower,
    lower_lower]

theorem length_lt_of_withoutPort? {host name : List Char}
    (ported : withoutPort? host = some name) : name.length < host.length := by
  obtain ⟨rest, whole⟩ := begins_of_withoutPort? ported
  -- Were nothing taken, no character would be a colon, but a port stands behind one.
  have behind : rest ≠ [] := by
    rintro rfl
    rw [List.append_nil] at whole
    subst whole
    rw [withoutPort?, cutAt] at ported
    split at ported
    · rename_i colon port cut
      obtain ⟨-, left⟩ := Prod.mk.inj cut
      split at ported
      · have all := List.takeWhile_eq_self_iff.mp
          ((Prod.mk.inj cut).1.trans (Option.some.inj ported))
        have none := List.dropWhile_eq_nil_iff.mpr all
        rw [none] at left
        cases left
      · cases ported
    · cases ported
  rw [← whole, List.length_append]
  have long := List.length_pos_iff.mpr behind
  omega

theorem stripPortChars_self_iff {name : List Char} (trimmed : trim name = name) :
    stripPortChars name = name ↔ name.head? ≠ some '[' ∧ withoutPort? name = none := by
  by_cases bracket : name.head? = some '['
  · obtain ⟨rest, rfl⟩ := List.head?_eq_some_iff.mp bracket
    rw [stripPortChars_of_bracket trimmed]
    constructor
    · intro same
      have shorter := (List.takeWhile_sublist (l := rest) fun c => c != ']').length_le
      rw [same, List.length_cons] at shorter
      omega
    · rintro ⟨unbracketed, -⟩
      exact absurd bracket unbracketed
  · rw [stripPortChars_of_bare (trimmed.symm ▸ bracket), trimmed]
    cases ported : withoutPort? name with
    | none => simp [bracket]
    | some shorter =>
        constructor
        · intro same
          have less := length_lt_of_withoutPort? ported
          rw [Option.getD_some] at same
          rw [same] at less
          exact absurd less (Nat.lt_irrefl _)
        · rintro ⟨-, whole⟩
          cases whole

theorem eq_of_ofHost? {name domain : String} (reads : ofHost? name = some domain)
    (same : name = normalize domain) : domain = name := by
  have form := (ofHost?_eq_some_iff.mp reads).2
  have again : lower (trim domain.toList) = name.toList := by
    rw [same, normalize, normalizeChars, String.toList_ofList]
  have stripped := (trimEndBy_sublist (fun c => c == '.') (stripPortChars name.toList)).length_le
  have shortened := (stripPortChars_sublist name.toList).length_le
  have length := congrArg List.length form
  have length' := congrArg List.length again
  rw [length_lower] at length length'
  have trimmed := (trim_sublist domain.toList).eq_of_length_le (by omega)
  rw [trimmed, ← form, lower_lower, form] at again
  exact String.toList_inj.mp again

/-- A canonical name stands for itself as a host exactly if nothing is taken from it. -/
theorem ofHost?_canonical_iff {name : String} (canonical : normalize name = name)
    (nonempty : name ≠ "") : ofHost? name = some name ↔ isOwnHost name = true := by
  have form : lower (trim name.toList) = name.toList := by
    have same := congrArg String.toList canonical
    rwa [normalize, normalizeChars, String.toList_ofList] at same
  have lowered : lower name.toList = name.toList := by
    rw [← form, lower_lower]
  have trimmed : trim name.toList = name.toList := by
    rw [← form, trim_lower, Text.trim, Text.trim, trimBy_trimBy]
  have filled : name.toList ≠ [] := fun none => nonempty (String.toList_inj.mp none)
  have dotless : trimEndBy (fun c => c == '.') name.toList = name.toList ↔
      name.toList.getLast? ≠ some '.' := by
    rw [List.getLast?_eq_some_getLast filled, ne_eq, Option.some_inj]
    refine List.rdropWhile_eq_self_iff.trans ⟨fun last dot => ?_, fun last _ dot => ?_⟩
    · exact last filled (beq_iff_eq.mpr dot)
    · exact last (beq_iff_eq.mp dot)
  rw [isOwnHost, Bool.and_eq_true, Bool.and_eq_true, bne_iff_ne, bne_iff_ne,
    Option.isNone_iff_eq_none, ← stripPortChars_self_iff trimmed, ← dotless]
  constructor
  · intro own
    have bare := congrArg String.toList ((ofHost?_self_iff own).mp own)
    rw [stripPort, String.toList_ofList] at bare
    have same := (ofHost?_eq_some_iff.mp own).2
    have length := congrArg List.length same
    rw [bare, length_lower] at length
    exact ⟨bare, (trimEndBy_sublist _ _).eq_of_length length⟩
  · rintro ⟨bare, short⟩
    rw [ofHost?_eq_some_iff, bare, short]
    exact ⟨filled, lowered⟩

end Domain

/-! ## Requests for configured domains -/

namespace Config

theorem validateEntries_filled {seen : List String} {entries : List Domain.Entry}
    (valid : validateEntries seen entries = .ok ()) :
    ∀ entry ∈ entries, Domain.normalize entry.domain ≠ "" := by
  induction entries generalizing seen with
  | nil => simp
  | cons entry rest ih =>
      rw [validateEntries] at valid
      split at valid
      · cases valid
      · rename_i filled
        split at valid
        · cases valid
        split at valid
        · cases valid
        rw [String.isEmpty_iff] at filled
        exact List.forall_mem_cons.mpr ⟨filled, ih valid⟩

section

variable {config : Config} {entry : Domain.Entry} {head : RequestHead} {host : String}

theorem resolve_own_name (hostless : head.uri.host? = none)
    (named : head.headers.text? "host" = some host)
    (own : Text.lowercase host = Domain.normalize entry.domain) :
    Domain.resolve head.uri head.headers = Domain.ofHost? (Domain.normalize entry.domain) := by
  rw [Domain.resolve_of_hostless hostless, Domain.named?, named, Option.bind_some, ← own,
    Domain.ofHost?_lowercase]

theorem entryOf_own_name (valid : config.validate = .ok ())
    (listed : entry ∈ config.protectedDomains) :
    config.EntryOf (Domain.normalize entry.domain) entry := by
  have canonical := Domain.normalize_normalize entry.domain
  exact ⟨listed, canonical.symm, fun other member same =>
    entry_unique valid listed member (same.trans canonical)⟩

theorem resolves_own_name_iff (valid : config.validate = .ok ())
    (listed : entry ∈ config.protectedDomains) (hostless : head.uri.host? = none)
    (named : head.headers.text? "host" = some host)
    (own : Text.lowercase host = Domain.normalize entry.domain) :
    (∃ domain, Domain.resolve head.uri head.headers = some domain ∧ config.EntryOf domain entry) ↔
      Domain.isOwnHost (Domain.normalize entry.domain) = true := by
  have canonical := Domain.normalize_normalize entry.domain
  have filled := validateEntries_filled (entries_of_validate valid).1 entry listed
  rw [resolve_own_name hostless named own, ← Domain.ofHost?_canonical_iff canonical filled]
  constructor
  · rintro ⟨domain, reads, configured⟩
    rw [reads, Domain.eq_of_ofHost? reads configured.named]
  · intro itself
    exact ⟨_, itself, entryOf_own_name valid listed⟩

end

end Config

namespace Router

/-- A request in origin form that names a configured domain in its field, in any case, is for the
entry of that domain exactly if nothing is taken from the name when it comes as a host.  It is then
not rejected, and what is left to a session is left to one with the origin of the entry. -/
theorem own_name_reaches_entry_iff (config : Config) (workerFile : Except SystemError Bytes)
    (valid : config.validate = .ok ()) (entry : Domain.Entry)
    (listed : entry ∈ config.protectedDomains) (head : RequestHead)
    (hostless : head.uri.host? = none) {host : String}
    (named : head.headers.text? "host" = some host)
    (own : Text.lowercase host = Domain.normalize entry.domain) :
    let name := Domain.normalize entry.domain
    ((∃ domain, Domain.resolve head.uri head.headers = some domain ∧
      config.EntryOf domain entry) ↔ Domain.isOwnHost name = true) ∧
    (Domain.isOwnHost name = true → ∀ cache edge secure,
      let handler := (withWorkerFile config workerFile).dispatch cache edge secure head
      (∀ status message, handler ≠ .reject status message) ∧
      (¬ config.Upgrades secure → ¬ head.headers.has HopByHop.directName = true →
        ¬ config.AsksWorker workerFile head →
        handler = .proxy (Session.fresh name (some (Config.origin entry))
          ((config.worker? workerFile).map ServiceWorker.inject)))) := by
  intro name
  refine ⟨Config.resolves_own_name_iff valid listed hostless named own, ?_⟩
  intro whole cache edge secure
  have filled := Config.validateEntries_filled (Config.entries_of_validate valid).1 entry listed
  have itself := (Domain.ofHost?_canonical_iff (Domain.normalize_normalize _) filled).mpr whole
  have configured := Config.entryOf_own_name valid listed
  have here : config.Protects head name :=
    ⟨(Config.resolve_own_name hostless named own).trans itself,
      configured.named ▸ List.mem_map_of_mem listed⟩
  -- The router is the same on any disk, so it is that of a server.
  have opens : config.cache.diskPath = "" ∨ ∃ tree, (.ok [] : ContentCache.Volume) = .ok tree :=
    .inr ⟨[], rfl⟩
  obtain ⟨server, -, made⟩ := Server.made_of_opens workerFile valid opens
  have handles := made.handles here cache edge secure
  rw [← made.routed]
  dsimp only
  generalize server.router.dispatch cache edge secure head = handler at handles ⊢
  refine ⟨?_, fun settled unasked elsewhere => ?_⟩
  · rintro status message rfl
    cases handles
  · rw [← made.upgrades_iff] at settled
    rw [← made.payload?_eq_none_iff] at elsewhere
    rw [← made.session_eq configured]
    cases handles with
    | redirected plain => exact absurd plain settled
    | reported _ asked => exact absurd asked unasked
    | served _ _ found =>
        rw [elsewhere] at found
        cases found
    | passed => rfl

/-- A domain configured with capitals, asked for in other letters. -/
theorem own_name_in_other_letters :
    let config : Config := {
      cache := { maxEntries := 1 }, protectedDomains := [⟨" Example.COM ", " 10.0.0.1 ", 8080⟩] }
    let cache : ContentCache := { partitions := [("example.com", [])], maxEntries := 1 }
    let head : RequestHead :=
      { method := "GET", uri := .rooted "/page" none
        headers := [⟨"host", Bytes.ofText "eXample.cOM"⟩] }
    config.validate = .ok () ∧
      (withWorkerFile config (.error .notFound)).dispatch cache none false head =
        .proxy (Session.fresh "example.com" (some ⟨"10.0.0.1", 8080⟩) none) := by
  intro config cache head
  have valid : config.validate = .ok () := by decide
  obtain ⟨-, reached⟩ := own_name_reaches_entry_iff config (.error .notFound) valid
    ⟨" Example.COM ", " 10.0.0.1 ", 8080⟩ (by decide) head rfl
    (show head.headers.text? "host" = some "eXample.cOM" by decide) (by decide)
  have routed := (reached (by decide) cache none false).2 (by simp [Config.Upgrades, config])
    (by decide) (by simp [Config.AsksWorker, Config.worker?, config])
  exact ⟨valid, routed⟩

/-- A dot at the end of a configured domain is taken from the host of a request: nothing is found
under what is left, or the entry of another domain is. -/
theorem dotted_name_missed :
    let dotted : Domain.Entry := ⟨"example.com.", "10.0.0.1", 80⟩
    let bare : Domain.Entry := ⟨"example.com", "10.0.0.2", 80⟩
    let alone : Config := { protectedDomains := [dotted] }
    let both : Config := { protectedDomains := [dotted, bare] }
    let cache : ContentCache := { partitions := [], maxEntries := 1 }
    let head : RequestHead :=
      { method := "GET", uri := .rooted "/page" none
        headers := [⟨"host", Bytes.ofText dotted.domain⟩] }
    alone.validate = .ok () ∧ both.validate = .ok () ∧
      head.headers.text? "host" = some dotted.domain ∧
      (ofConfig alone).dispatch cache none false head =
        .reject 400 "Bad Request: unknown domain" ∧
      (ofConfig both).dispatch cache none false head =
        .proxy (Session.fresh "example.com" (some ⟨"10.0.0.2", 80⟩) none) := by
  intro dotted bare alone both cache head
  have resolved : Domain.resolve head.uri head.headers = some "example.com" := by decide
  have missing : (ofConfig alone).table.contains "example.com" = false := by decide
  have rejected : (ofConfig alone).dispatch cache none false head =
      .reject 400 "Bad Request: unknown domain" := by
    rw [dispatch, resolved]
    simp only [missing]
    rfl
  have other : (ofConfig both).table.origin? "example.com" = some ⟨"10.0.0.2", 80⟩ := by decide
  have known : (ofConfig both).table.contains "example.com" = true := by decide
  have passed : (ofConfig both).dispatch cache none false head =
      .proxy ((ofConfig both).session "example.com") := by
    rw [dispatch, resolved]
    simp only [known]
    rfl
  rw [session, other] at passed
  exact ⟨by decide, by decide, by decide, rejected, passed⟩

end Router

end CachingProxy
