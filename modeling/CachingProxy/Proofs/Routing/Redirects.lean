import CachingProxy.Proofs.Http.Authorities
import CachingProxy.Proofs.Routing.Forwarded

/-!
# Where a plain request is redirected to

The location names the host that the client asked for, else the domain of the request, with the
secure port and the target behind it.  A host is put into brackets if it has colons, and its port
was taken away before, so it comes back as it was when the location is read.
-/

set_option autoImplicit false

namespace CachingProxy

/-! ## What a field may carry -/

namespace Http

open Text

theorem isValueByte_of_large {n : Nat} (large : 128 ≤ n) (small : n < 256) :
    isValueByte (UInt8.ofNat n) = true := by
  have octet : (UInt8.ofNat n).toNat = n := by rw [UInt8.toNat_ofNat', Nat.mod_eq_of_lt small]
  have blank : (32 : UInt8).toNat = 32 := rfl
  have delete : (127 : UInt8).toNat = 127 := rfl
  rw [isValueByte, Bool.or_eq_true, Bool.and_eq_true, decide_eq_true_eq, bne_iff_ne,
    UInt8.le_iff_toNat_le, ne_eq, ← UInt8.toNat_inj]
  exact .inr ⟨by omega, by omega⟩

theorem isValueByte_of_encoded {c : Char} (large : 128 ≤ c.toNat) {b : UInt8}
    (member : b ∈ String.utf8EncodeChar c) : isValueByte b = true := by
  rw [← Char.toNat_val] at large
  rw [String.utf8EncodeChar.eq_def] at member
  simp only at member
  generalize c.val.toNat = n at large member
  -- One octet is left to ASCII; in the longer forms the lead and the tails have the highest bit.
  split at member
  · omega
  split at member
  · simp only [List.mem_cons, List.not_mem_nil, or_false] at member
    rcases member with rfl | rfl <;> exact isValueByte_of_large (by omega) (by omega)
  split at member
  · simp only [List.mem_cons, List.not_mem_nil, or_false] at member
    rcases member with rfl | rfl | rfl <;> exact isValueByte_of_large (by omega) (by omega)
  · simp only [List.mem_cons, List.not_mem_nil, or_false] at member
    rcases member with rfl | rfl | rfl | rfl <;> exact isValueByte_of_large (by omega) (by omega)

theorem isValue_of_chars {text : String}
    (chars : ∀ c ∈ text.toList, isPlain c = true ∨ 128 ≤ c.toNat) :
    isValue (Bytes.ofText text) = true := by
  rw [isValue, List.all_eq_true]
  intro b member
  obtain ⟨c, within, encoded⟩ := List.mem_flatMap.mp member
  rcases chars c within with plain | large
  · have single : Plain (String.ofList [c]).toList := by
      rw [String.toList_ofList]
      exact fun d only => List.mem_singleton.mp only ▸ plain
    have value := Bytes.isValue_ofText single
    rw [isValue, List.all_eq_true] at value
    exact value b (List.mem_flatMap.mpr ⟨c, by simp, encoded⟩)
  · exact isValueByte_of_encoded large encoded

end Http

namespace Uri

open Text

theorem chars_of_isPathChar {c : Char} (allowed : isPathChar c = true) :
    isPlain c = true ∨ 128 ≤ c.toNat := by
  simp only [isPathChar, Bool.or_eq_true, Bool.and_eq_true, beq_iff_eq, decide_eq_true_eq]
    at allowed
  rw [isPlain_iff]
  omega

theorem chars_of_isQueryChar {c : Char} (allowed : isQueryChar c = true) :
    isPlain c = true ∨ 128 ≤ c.toNat := by
  simp only [isQueryChar, Bool.or_eq_true, Bool.and_eq_true, beq_iff_eq, decide_eq_true_eq]
    at allowed
  rw [isPlain_iff]
  omega

theorem Readable.chars {path : String} {query : Option String} (readable : Readable path query) :
    ∀ c ∈ (withQuery path query).toList, isPlain c = true ∨ 128 ≤ c.toNat := by
  intro c member
  cases query with
  | none => exact chars_of_isPathChar (readable.pathChars c member)
  | some query =>
      rw [toList_withQuery_some, List.mem_append, List.mem_cons] at member
      rcases member with inPath | mark | inQuery
      · exact chars_of_isPathChar (readable.pathChars c inPath)
      · rw [mark]
        exact .inl rfl
      · exact chars_of_isQueryChar (readable.queryChars query rfl c inQuery)

/-- Behind an authority, every target but the asterisk begins where the authority ends. -/
theorem Targeted.written {uri : Uri} (targeted : Targeted uri) (starless : uri ≠ .asterisk) :
    ∃ path query c, Readable path query ∧ withQuery path query = uri.target ∧
      (withQuery path query).toList.head? = some c ∧ endsAuthority c = true := by
  cases targeted with
  | asterisk star => exact absurd star starless
  | @rooted path query readable root written =>
      refine ⟨path, query, '/', readable, written.symm, ?_, rfl⟩
      cases query with
      | none => exact root
      | some query =>
          obtain ⟨rest, first⟩ := List.head?_eq_some_iff.mp root
          rw [toList_withQuery_some, first]
          rfl
  | @pathless query readable written =>
      exact ⟨"", some query, '?', readable, written.symm, by rw [toList_withQuery_some]; rfl, rfl⟩

theorem Targeted.chars {uri : Uri} (targeted : Targeted uri) :
    ∀ c ∈ uri.target.toList, isPlain c = true ∨ 128 ≤ c.toNat := by
  cases targeted with
  | asterisk star =>
      rw [star]
      intro c member
      rw [List.mem_singleton.mp member]
      exact .inl rfl
  | rooted readable _ written =>
      rw [written]
      exact readable.chars
  | pathless readable written =>
      rw [written]
      exact readable.chars

end Uri

/-! ## Hosts in brackets -/

namespace Domain

open Text Uri

/-- A bracket at the front is not closed. -/
def Unclosed (cs : List Char) : Prop := cs.head? = some '[' → ']' ∉ cs

theorem Unclosed.front {cs part : List Char} (unclosed : Unclosed cs) (front : part <+: cs) :
    Unclosed part := by
  intro opened closed
  obtain ⟨rest, rfl⟩ := front
  obtain ⟨more, rfl⟩ := List.head?_eq_some_iff.mp opened
  exact unclosed rfl (List.mem_append_left rest closed)

theorem Unclosed.lower {cs : List Char} (unclosed : Unclosed cs) : Unclosed (lower cs) := by
  intro opened closed
  rw [Text.lower, List.head?_map, Option.map_eq_some_iff] at opened
  obtain ⟨c, first, opening⟩ := opened
  obtain ⟨d, member, closing⟩ := List.mem_map.mp closed
  rw [eq_of_lowerChar opening rfl] at first
  rw [eq_of_lowerChar closing rfl] at member
  exact unclosed first member

theorem unclosed_stripPortChars (host : List Char) : Unclosed (stripPortChars host) := by
  by_cases bracket : (trim host).head? = some '['
  · obtain ⟨rest, opened⟩ := List.head?_eq_some_iff.mp bracket
    rw [stripPortChars_of_bracket opened]
    intro _ closed
    simpa using List.mem_takeWhile_imp closed
  · have bare : Unclosed (trim host) := fun opened => absurd opened bracket
    rw [stripPortChars_of_bare bracket]
    cases ported : withoutPort? (trim host) with
    | none => exact bare
    | some name => exact bare.front (begins_of_withoutPort? ported)

theorem unclosed_ofHost? {host name : String} (named : ofHost? host = some name) :
    Unclosed name.toList := by
  rw [← (ofHost?_eq_some_iff.mp named).2]
  have begins := List.rdropWhile_prefix (fun c => c == '.') (stripPortChars host.toList)
  exact ((unclosed_stripPortChars host.toList).front begins).lower

def bracketed (name : List Char) : List Char :=
  if name.contains ':' then '[' :: name ++ [']'] else name

theorem stripPortChars_bracketed {name : List Char} (unclosed : Unclosed name)
    (host : isHost (bracketed name) = true) : stripPortChars (bracketed name) = name := by
  have authority := host
  rw [isHost, Bool.and_eq_true] at authority
  have trimmed : trim (bracketed name) = bracketed name :=
    trim_of_solid (forall_of_isAuthority (fun _ _ _ step => isBlank_of_scanned step) authority.1)
  have shape := isHost_cases host
  by_cases colon : name.contains ':' = true
  · rw [bracketed, if_pos colon] at shape trimmed ⊢
    rcases shape with ⟨inside, same, free⟩ | ⟨unbracketed, _⟩
    · obtain rfl := List.append_cancel_right (List.cons.inj same).2
      have closing : ']' ∉ name := fun member => free (List.mem_cons_of_mem '[' member)
      rw [stripPortChars_of_bracket trimmed]
      exact takeWhile_ne_append closing (by simp)
    · exact absurd rfl unbracketed
  · rw [bracketed, if_neg colon] at shape trimmed ⊢
    have bare : ':' ∉ name := by simpa using colon
    rcases shape with ⟨inside, rfl, _⟩ | ⟨unbracketed, _⟩
    · exact absurd (by simp) (unclosed rfl)
    · rw [stripPortChars_of_bare (trimmed.symm ▸ unbracketed), trimmed, withoutPort?_of_bare bare]
      rfl

theorem Plain.bracketed {name : List Char} (plain : Plain name) : Plain (bracketed name) := by
  rw [Domain.bracketed]
  split
  · intro c member
    rw [List.mem_append, List.mem_cons, List.mem_singleton] at member
    rcases member with (rfl | inside) | rfl
    · rfl
    · exact plain c inside
    · rfl
  · exact plain

end Domain

/-! ## Locations -/

namespace Router

open Text

variable {router : Router} {cache : ContentCache} {edge : Option EdgeNodes} {secure : Bool}
  {head : RequestHead} {location domain text : String}

/-- The host that the client asks for in a field, without its port. -/
def askedHost? (headers : Headers) : Option String :=
  ((headers.text? "host").map Domain.stripPort).filter fun host => !host.isEmpty

theorem dispatch_eq_redirect (redirected : router.dispatch cache edge secure head =
    .redirect location) : ∃ domain, Domain.resolve head.uri head.headers = some domain ∧
      router.table.contains domain = true ∧ location = router.redirectLocation head domain := by
  rw [dispatch] at redirected
  split at redirected
  · cases redirected
  · rename_i domain resolved
    split at redirected
    · cases redirected
    rename_i known
    rw [Bool.not_eq_true', Bool.not_eq_false] at known
    split at redirected
    · exact ⟨domain, resolved, known, (Handler.redirect.inj redirected).symm⟩
    split at redirected
    · cases redirected
    split at redirected <;> cases redirected

theorem redirectHost_eq (headers : Headers) (domain : String) :
    redirectHost headers domain =
      String.ofList (Domain.bracketed ((askedHost? headers).getD domain).toList) := by
  have written (name : String) : (if name.toList.contains ':' then "[" ++ name ++ "]" else name) =
      String.ofList (Domain.bracketed name.toList) := by
    rw [Domain.bracketed]
    split
    · rw [← String.toList_inj]
      simp
    · rw [String.ofList_toList]
  rw [← written, redirectHost, askedHost?]
  cases (headers.text? "host").map Domain.stripPort with
  | none => rfl
  | some host => cases empty : host.isEmpty <;> simp [Option.filter_some, empty]

theorem text?_of_askedHost? {headers : Headers} {host : String}
    (asked : askedHost? headers = some host) :
    ∃ text, headers.text? "host" = some text ∧ host = Domain.stripPort text := by
  obtain ⟨named, _⟩ := Option.filter_eq_some_iff.mp asked
  obtain ⟨text, here, rfl⟩ := Option.map_eq_some_iff.mp named
  exact ⟨text, here, rfl⟩

theorem plain_redirectHost (read : Uri.ofText? text = some head.uri)
    (resolved : Domain.resolve head.uri head.headers = some domain) :
    Plain (redirectHost head.headers domain).toList := by
  rw [redirectHost_eq, String.toList_ofList]
  apply Domain.Plain.bracketed
  cases asked : askedHost? head.headers with
  | none => exact (Domain.plain_resolve read resolved).1
  | some host =>
      obtain ⟨text, here, rfl⟩ := text?_of_askedHost? asked
      obtain ⟨value, _, decoded⟩ := Option.bind_eq_some_iff.mp here
      rw [Option.getD_some, Domain.stripPort, String.toList_ofList]
      exact (Bytes.plain_of_asText? decoded).sublist (Domain.stripPortChars_sublist _)

/-- The host of a location stands for what the client named in its field, else for the domain. -/
theorem ofHost?_redirectHost (read : Uri.ofText? text = some head.uri)
    (resolved : Domain.resolve head.uri head.headers = some domain)
    (host : Uri.isHost (redirectHost head.headers domain).toList = true) :
    Domain.ofHost? (redirectHost head.headers domain) =
      if (askedHost? head.headers).isSome then Domain.named? head.headers else some domain := by
  rw [redirectHost_eq, String.toList_ofList] at host
  obtain ⟨_, source, named⟩ := Domain.plain_resolve read resolved
  rw [redirectHost_eq]
  cases asked : askedHost? head.headers with
  | none =>
      rw [asked, Option.getD_none] at host
      refine Domain.ofHost?_of_stripped named ?_
      rw [String.toList_ofList]
      exact Domain.stripPortChars_bracketed (Domain.unclosed_ofHost? named) host
  | some name =>
      obtain ⟨text, here, rfl⟩ := text?_of_askedHost? asked
      rw [asked, Option.getD_some] at host
      have unclosed : Domain.Unclosed (Domain.stripPort text).toList := by
        rw [Domain.stripPort, String.toList_ofList]
        exact Domain.unclosed_stripPortChars _
      have back := Domain.stripPortChars_bracketed unclosed host
      rw [Option.getD_some, Domain.named?, here, Option.bind_some, Option.isSome_some, if_pos rfl,
        Domain.ofHost?, Domain.ofHost?, String.toList_ofList, back, Domain.stripPort,
        String.toList_ofList]

theorem toList_redirectLocation (router : Router) (head : RequestHead) (domain : String) :
    (router.redirectLocation head domain).toList = "https://".toList ++
      ((redirectHost head.headers domain).toList ++
        ':' :: Nat.toDigits 10 router.securePort.toNat ++ head.path.toList) := by
  have parts : router.redirectLocation head domain = "https://" ++
      (redirectHost head.headers domain ++ ":" ++ toString router.securePort.toNat) ++
        head.path := by
    simp only [redirectLocation, String.append_assoc]
  rw [parts, String.toList_append, String.toList_append, Uri.toList_ported, List.append_assoc]

theorem isValue_redirectLocation (read : Uri.ofText? text = some head.uri)
    (resolved : Domain.resolve head.uri head.headers = some domain) :
    Http.isValue (Bytes.ofText (router.redirectLocation head domain)) = true := by
  apply Http.isValue_of_chars
  intro c member
  rw [toList_redirectLocation, List.mem_append, List.mem_append, List.mem_append,
    List.mem_cons] at member
  rcases member with scheme | (host | rfl | digit) | target
  · exact .inl (List.all_eq_true.mp (show "https://".toList.all isPlain = true by rfl) c scheme)
  · exact .inl (plain_redirectHost read resolved c host)
  · exact .inl rfl
  · have letter : isAlnum c = true := by
      rw [isAlnum, isDigit_of_mem_toDigits digit]
      rfl
    exact .inl (Uri.isPlain_of_isAlnum letter)
  · exact (Uri.targeted_of_read read).1.chars c target

theorem ofText?_redirectLocation (router : Router) (read : Uri.ofText? text = some head.uri)
    (starless : head.uri ≠ .asterisk)
    (isHost : Uri.isHost (redirectHost head.headers domain).toList = true) :
    ∃ path query,
      let location := router.redirectLocation head domain
      let host := redirectHost head.headers domain
      let there := Uri.absolute "https" (host ++ ":" ++ toString router.securePort.toNat) path query
      Uri.ofText? location =
        (if Uri.maxLength < location.utf8ByteSize then none else some there) ∧
      there.host? = some host ∧ there.target = head.path := by
  obtain ⟨path, query, c, readable, written, first, ends⟩ :=
    (Uri.targeted_of_read read).1.written starless
  refine ⟨path, query, ?_⟩
  intro location host there
  have digits : ∀ c ∈ Nat.toDigits 10 router.securePort.toNat, isDigit c = true :=
    fun c => isDigit_of_mem_toDigits
  have authority := Uri.toList_ported host router.securePort.toNat
  have ended : ∀ d ∈ (Uri.withQuery path query).toList.head?, Uri.endsAuthority d = true := by
    intro d starts
    rw [first] at starts
    rwa [← Option.some.inj starts]
  have nonempty : (Uri.withQuery path query).isEmpty = false := by
    rw [Bool.eq_false_iff, ne_eq, String.isEmpty_iff]
    intro empty
    rw [empty] at first
    cases first
  refine ⟨?_, ?_, ?_⟩
  · rw [Uri.ofText?_https (toList_redirectLocation router head domain), RequestHead.path,
      ← written, Uri.readFull_located isHost router.securePort.toNat readable ended, ← authority,
      String.ofList_toList]
  · rw [Uri.host?, authority, Uri.hostOf_ported isHost digits, String.ofList_toList]
  · rw [Uri.target, Uri.pathAndQuery?, RequestHead.path, ← written]
    simp only [nonempty]
    rfl

/-- A plain request that is redirected names a protected domain, and its location is a value that a
field may carry.  If what the location takes for a host can be one, and the target is not the
asterisk, then the location is an absolute target (unless it is too long to be read) with the secure
port and with path and query of the request.  Its host stands for the domain of the request, except
where the target names that domain and the field names another. -/
theorem redirect_keeps_asked_host_and_target (router : Router) (cache : ContentCache)
    (edge : Option EdgeNodes) (secure : Bool) (head : RequestHead) {text location : String}
    (read : Uri.ofText? text = some head.uri)
    (redirected : router.dispatch cache edge secure head = .redirect location) :
    ∃ domain, Domain.resolve head.uri head.headers = some domain ∧
      router.table.contains domain = true ∧
      (Handler.redirect location).response? =
        some (.ok ⟨⟨307, [⟨"location", Bytes.ofText location⟩]⟩, []⟩) ∧
      let host := String.ofList
        (Domain.bracketed ((askedHost? head.headers).getD domain).toList)
      (head.uri ≠ .asterisk → Uri.isHost host.toList = true → ∃ path query,
        let there := Uri.absolute "https" (host ++ ":" ++ toString router.securePort.toNat) path query
        Uri.ofText? location =
          (if Uri.maxLength < location.utf8ByteSize then none else some there) ∧
        there.host? = some host ∧ there.target = head.path ∧
        ∀ headers, Domain.resolve there headers =
          if head.uri.host? = none ∨ askedHost? head.headers = none then some domain
          else Domain.named? head.headers) := by
  obtain ⟨domain, resolved, known, rfl⟩ := dispatch_eq_redirect redirected
  refine ⟨domain, resolved, known, ?_, ?_⟩
  · rw [Handler.response?]
    simp only [isValue_redirectLocation read resolved, if_true]
  rw [← redirectHost_eq]
  intro host starless isHost
  obtain ⟨path, query, located, named, target⟩ :=
    ofText?_redirectLocation router read starless isHost
  refine ⟨path, query, located, named, target, fun headers => ?_⟩
  rw [Domain.resolve, named]
  dsimp only
  rw [ofHost?_redirectHost read resolved isHost]
  cases asked : askedHost? head.headers with
  | none => simp
  | some name =>
      by_cases hostless : head.uri.host? = none
      · rw [← Domain.resolve_of_hostless hostless, resolved]
        simp
      · simp [hostless]

/-- A host with a port and capitals, in a request in origin form. -/
theorem origin_form_redirected_to_domain :
    let head : RequestHead :=
      { method := "GET", uri := .rooted "/page" (some "q=1")
        headers := [⟨"host", Bytes.ofText "Example.COM:8080"⟩] }
    let cache : ContentCache := { partitions := [("example.com", [])], maxEntries := 1 }
    let router : Router :=
      { table := ⟨[("example.com", ⟨"10.0.0.1", 80⟩)]⟩, upgradeInsecure := true, securePort := 8443 }
    router.dispatch cache none false head = .redirect "https://Example.COM:8443/page?q=1" ∧
      ∃ there, Uri.ofText? "https://Example.COM:8443/page?q=1" = some there ∧
        Domain.resolve there [] = some "example.com" := by
  intro head cache router
  have written : router.redirectLocation head "example.com" =
      "https://Example.COM:8443/page?q=1" := by decide
  have redirected : router.dispatch cache none false head =
      .redirect "https://Example.COM:8443/page?q=1" := by
    rw [← written]
    rfl
  have read : Uri.ofText? "/page?q=1" = some head.uri := by decide
  obtain ⟨domain, resolved, -, -, location⟩ :=
    redirect_keeps_asked_host_and_target router cache none false head read redirected
  have same : domain = "example.com" :=
    Option.some.inj (resolved.symm.trans (by decide))
  subst same
  obtain ⟨path, query, there, -, -, stands⟩ := location (by decide) (by decide)
  exact ⟨redirected, _, there, stands []⟩

/-- In absolute form the target names the domain, and the location names the host of the field.  A
protected name that no authority can hold makes a location that is not read, and an asterisk is read
as a part of the port. -/
theorem foreign_host_redirected_to :
    let cache : ContentCache := { partitions := [], maxEntries := 1 }
    let router : Router := {
      table := ⟨[("example.com", ⟨"10.0.0.1", 80⟩), ("an example", ⟨"10.0.0.2", 80⟩)]⟩
      upgradeInsecure := true }
    let request (uri : Uri) (host : String) : RequestHead :=
      { method := "GET", uri, headers := [⟨"host", Bytes.ofText host⟩] }
    let foreign := request (.absolute "http" "example.com" "/page" none) "other.org"
    let spaced := request (.rooted "/page" none) "an example"
    let star := request .asterisk "example.com"
    (Uri.ofText? "http://example.com/page" = some foreign.uri ∧
      Domain.resolve foreign.uri foreign.headers = some "example.com" ∧
      router.dispatch cache none false foreign = .redirect "https://other.org:443/page" ∧
      ∃ there, Uri.ofText? "https://other.org:443/page" = some there ∧
        Domain.resolve there [] = some "other.org") ∧
    (router.dispatch cache none false spaced = .redirect "https://an example:443/page" ∧
      Uri.ofText? "https://an example:443/page" = none) ∧
    (router.dispatch cache none false star = .redirect "https://example.com:443*" ∧
      Uri.ofText? "https://example.com:443*" =
        some (.absolute "https" "example.com:443*" "" none)) := by
  intro cache router request foreign spaced star
  have elsewhere : router.redirectLocation foreign "example.com" = "https://other.org:443/page" := by
    decide
  have unread : router.redirectLocation spaced "an example" = "https://an example:443/page" := by
    decide
  have joined : router.redirectLocation star "example.com" = "https://example.com:443*" := by
    decide
  refine ⟨⟨by decide, by decide, ?_, .absolute "https" "other.org:443" "/page" none, by decide,
    by decide⟩, ⟨?_, by decide⟩, ⟨?_, by decide⟩⟩
  · rw [← elsewhere]
    rfl
  · rw [← unread]
    rfl
  · rw [← joined]
    rfl

end Router

end CachingProxy
