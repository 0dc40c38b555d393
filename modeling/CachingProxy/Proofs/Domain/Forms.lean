import CachingProxy.Proofs.Http.Authorities

/-!
# One domain in either form

A request names a host in its target or in its field `host`.  From a target the host is taken by the
reader of targets, which knows of user information, and from the field by `Domain.stripPort`, which
does not.  Both come to the same domain: the host without its brackets, without the dots at its end
and in lower case (`Domain.resolve_either_form`).
-/

set_option autoImplicit false

namespace CachingProxy

open Text

/-! ## Hosts and what stands around them -/

/-- A host as it is written: a name, which may be an address with dots, or a literal in brackets. -/
inductive WrittenHost where
  | name (cs : List Char)
  | literal (inside : List Char)

namespace WrittenHost

def text : WrittenHost → List Char
  | .name cs => cs
  | .literal inside => '[' :: inside ++ [']']

def bare : WrittenHost → List Char
  | .name cs => cs
  | .literal inside => inside

/-- No sign that sets a host apart stands inside. -/
def Delimited : WrittenHost → Prop
  | .name cs => ∀ c ∈ cs, c ∉ [':', '[', ']', '@', '/', '?', '#']
  | .literal inside => ∀ c ∈ inside, c ∉ ['[', ']', '@', '/', '?', '#']

/-- Where the host ends can be told from what stands behind it. -/
def Apart : WrittenHost → Prop
  | .name cs => cs.head? ≠ some '[' ∧ ':' ∉ cs
  | .literal inside => ']' ∉ inside

def domain? (host : WrittenHost) : Option String :=
  let name := lower (trimEndBy (fun c => c == '.') host.bare)
  if name = [] then none else some (String.ofList name)

end WrittenHost

/-- What is written between the scheme of a target and its path. -/
structure Site where
  userInfo : Option (List Char)
  host : WrittenHost
  port : Option (List Char)

namespace Site

def portText : Option (List Char) → List Char
  | none => []
  | some digits => ':' :: digits

def hostPort (site : Site) : List Char := site.host.text ++ portText site.port

def text (site : Site) : List Char :=
  match site.userInfo with
  | none => site.hostPort
  | some info => info ++ '@' :: site.hostPort

/-- The parts can be told apart. -/
structure Delimited (site : Site) : Prop where
  userInfo : ∀ info, site.userInfo = some info → ∀ c ∈ info, c ∉ ['/', '?', '#']
  host : site.host.Delimited
  port : ∀ digits, site.port = some digits → ∀ c ∈ digits, isDigit c = true

/-- The reader takes the parts where they stand. -/
structure Legal (site : Site) : Prop where
  userInfo : ∀ info, site.userInfo = some info →
    (∀ c ∈ info, (Uri.isAuthorityChar c = true ∨ c = '%') ∧ c ∉ ['[', ']', '@']) ∧
      info.count ':' ≤ Uri.maxColons
  name : ∀ cs, site.host = .name cs → ∀ c ∈ cs, Uri.isAuthorityChar c = true
  literal : ∀ inside, site.host = .literal inside →
    (∀ c ∈ inside, Uri.isAuthorityChar c = true ∨ c = '%') ∧ inside.count ':' ≤ Uri.maxColons
  nonempty : site.hostPort ≠ []

end Site

/-! ## The host of a target -/

namespace Site

open Uri

variable {site : Site} {host : WrittenHost} {port : Option (List Char)}

theorem not_mem_portText (digits : ∀ cs, port = some cs → ∀ c ∈ cs, isDigit c = true) {c : Char}
    (other : isDigit c = false) (apart : c ≠ ':') : c ∉ portText port := by
  cases port with
  | none => exact List.not_mem_nil
  | some cs =>
      rw [portText, List.mem_cons]
      rintro (colon | member)
      · exact apart colon
      · rw [digits cs rfl c member] at other
        cases other

/-- A sign that stands in no host is not found in one with a port. -/
theorem Delimited.not_mem (delimited : site.Delimited) {c : Char}
    (sign : c ∈ ['@', '/', '?', '#']) : c ∉ site.hostPort := by
  have unlike : isDigit c = false ∧ c ≠ ':' ∧ c ≠ '[' ∧ c ≠ ']' := by
    simp only [List.mem_cons, List.not_mem_nil, or_false] at sign
    rcases sign with rfl | rfl | rfl | rfl <;> decide
  rw [hostPort, List.mem_append, not_or]
  refine ⟨fun member => ?_, not_mem_portText delimited.port unlike.1 unlike.2.1⟩
  have apart := delimited.host
  cases host : site.host with
  | name cs =>
      rw [host] at apart member
      exact apart c member (List.mem_append_right [':', '[', ']'] sign)
  | literal inside =>
      rw [host] at apart member
      rw [WrittenHost.text, List.mem_append, List.mem_cons, List.mem_singleton] at member
      rcases member with (opening | member) | closing
      · exact unlike.2.2.1 opening
      · exact apart c member (List.mem_append_right ['[', ']'] sign)
      · exact unlike.2.2.2 closing

theorem Delimited.hostOf_text (delimited : site.Delimited) :
    hostOf site.text = hostOf site.hostPort := by
  have bare : '@' ∉ site.hostPort := delimited.not_mem (by decide)
  rw [text]
  split
  · rfl
  · rename_i info _
    have bare' : '@' ∉ site.hostPort.reverse := fun member => bare (List.mem_reverse.mp member)
    have behind : ((info ++ '@' :: site.hostPort).reverse.takeWhile fun c => c != '@').reverse =
        site.hostPort := by
      rw [List.reverse_append, List.reverse_cons, List.append_assoc, List.singleton_append,
        takeWhile_ne_append bare' (by simp), List.reverse_reverse]
    rw [hostOf, behind, hostOf, hostPort_of_bare bare]

end Site

namespace WrittenHost

open Uri Site

variable {host : WrittenHost} {port : Option (List Char)}

theorem head?_portText (port : Option (List Char)) : ∀ c ∈ (portText port).head?, c = ':' := by
  cases port <;> simp [portText]

theorem Delimited.apart (delimited : host.Delimited) : host.Apart := by
  cases host with
  | name cs =>
      exact ⟨fun opened => delimited '[' (List.mem_of_head? opened) (by decide),
        fun member => delimited ':' member (by decide)⟩
  | literal inside => exact fun member => delimited ']' member (by decide)

theorem Apart.head?_ne {cs : List Char} (apart : Apart (.name cs)) (port : Option (List Char)) :
    (cs ++ portText port).head? ≠ some '[' := by
  intro opened
  cases cs with
  | nil => cases head?_portText port '[' opened
  | cons c rest => exact apart.1 opened

theorem hostOf_hostPort (delimited : host.Delimited) (bare : '@' ∉ host.text ++ portText port) :
    hostOf (host.text ++ portText port) = host.text := by
  cases host with
  | name cs =>
      rw [text] at bare ⊢
      rw [hostOf_unbracketed bare (delimited.apart.head?_ne port)]
      exact takeWhile_ne_append delimited.apart.2 (head?_portText port)
  | literal inside =>
      have closing : ']' ∉ inside := delimited.apart
      have parts : text (.literal inside) ++ portText port =
          '[' :: (inside ++ ']' :: portText port) := by simp [text]
      rw [parts] at bare ⊢
      rw [hostOf_bracketed bare, takeWhile_ne_append closing (by simp)]
      rfl

/-! ## The host of a field -/

theorem withoutPort?_ported {name digits : List Char} (bare : ':' ∉ name)
    (all : ∀ c ∈ digits, isDigit c = true) :
    Domain.withoutPort? (name ++ ':' :: digits) = some name := by
  have whole : ∀ c ∈ name, (!(c == ':')) = true := by
    intro c member
    rw [Bool.not_eq_true', beq_eq_false_iff_ne]
    rintro rfl
    exact bare member
  have stops : ∀ c ∈ (':' :: digits).head?, (!(c == ':')) = false := by simp
  obtain ⟨taken, left⟩ := run_append whole stops
  have numeric : digits.all isDigit = true := List.all_eq_true.mpr all
  rw [Domain.withoutPort?, cutAt, taken, left]
  exact if_pos numeric

/-- A host is taken from what stands around it, if its end can be told and nothing is trimmed. -/
theorem Apart.stripPortChars_eq (apart : host.Apart)
    (digits : ∀ cs, port = some cs → ∀ c ∈ cs, isDigit c = true)
    (trimmed : trim (host.text ++ portText port) = host.text ++ portText port) :
    Domain.stripPortChars (host.text ++ portText port) = host.bare := by
  cases host with
  | name cs =>
      rw [text] at trimmed ⊢
      rw [Domain.stripPortChars_of_bare (trimmed.symm ▸ apart.head?_ne port), trimmed]
      cases port with
      | none =>
          rw [portText, List.append_nil, Domain.withoutPort?_of_bare apart.2]
          rfl
      | some cs =>
          rw [portText, withoutPort?_ported apart.2 (digits cs rfl)]
          rfl
  | literal inside =>
      have parts : text (.literal inside) ++ portText port =
          '[' :: (inside ++ ']' :: portText port) := by simp [text]
      rw [parts] at trimmed ⊢
      rw [Domain.stripPortChars_of_bracket trimmed]
      exact takeWhile_ne_append apart (by simp)

theorem stripPortChars_hostPort (delimited : host.Delimited)
    (digits : ∀ cs, port = some cs → ∀ c ∈ cs, isDigit c = true)
    (solid : ∀ c ∈ host.text ++ portText port, isBlank c = false) :
    Domain.stripPortChars (host.text ++ portText port) = host.bare :=
  delimited.apart.stripPortChars_eq digits (trim_of_solid solid)

theorem ofHost?_of_bare {written : String}
    (stripped : Domain.stripPortChars written.toList = host.bare) :
    Domain.ofHost? written = host.domain? := by
  rw [Domain.ofHost?, stripped, domain?]
  split
  · rename_i empty
    exact (if_pos empty).symm
  · rename_i nonempty
    exact (if_neg nonempty).symm

end WrittenHost

/-! ## Targets that are read -/

namespace Site

open Uri

variable {site : Site}

theorem Delimited.unended (delimited : site.Delimited) :
    ∀ c ∈ site.text, endsAuthority c = false := by
  intro c member
  rw [Bool.eq_false_iff]
  intro ends
  have sign : c ∈ ['/', '?', '#'] := by simpa [endsAuthority, or_assoc] using ends
  have outside := delimited.not_mem (List.mem_cons_of_mem '@' sign)
  rw [text] at member
  split at member
  · exact outside member
  · rename_i info given
    rw [List.mem_append, List.mem_cons] at member
    rcases member with inside | rfl | inside
    · exact delimited.userInfo info given c inside sign
    · cases ends
    · exact outside inside

theorem hostPort_sublist (site : Site) : site.hostPort.Sublist site.text := by
  rw [text]
  split
  · exact List.Sublist.refl _
  · exact (List.sublist_cons_self _ _).trans (List.sublist_append_right _ _)

theorem Delimited.readFull_eq (delimited : site.Delimited) {rest : List Char}
    (ended : ∀ c ∈ rest.head?, endsAuthority c = true) :
    readFull ("http://".toList ++ (site.text ++ rest)) =
      if site.text.isEmpty || !isAuthority site.text then none
      else (pathQuery? rest).map fun pq =>
        .absolute "http" (String.ofList site.text) pq.1 pq.2 :=
  readFull_absolute (.inl rfl) delimited.unended ended

theorem Delimited.host_of_read (delimited : site.Delimited) {rest : List Char}
    (ended : ∀ c ∈ rest.head?, endsAuthority c = true) {written : String} {uri : Uri}
    (whole : written.toList = "http://".toList ++ (site.text ++ rest))
    (read : ofText? written = some uri) :
    isAuthority site.text = true ∧ uri.host? = some (String.ofList site.host.text) := by
  rw [ofText?_of_scheme whole] at read
  split at read
  · cases read
  have again := (delimited.readFull_eq ended).symm.trans read
  split at again
  · cases again
  · rename_i checked
    rw [Bool.or_eq_true, Bool.not_eq_true', not_or, Bool.not_eq_false] at checked
    obtain ⟨pq, _, rfl⟩ := Option.map_eq_some_iff.mp again
    have bare : '@' ∉ site.hostPort := delimited.not_mem (by decide)
    refine ⟨checked.2, ?_⟩
    rw [host?, String.toList_ofList, delimited.hostOf_text, hostPort,
      WrittenHost.hostOf_hostPort delimited.host bare]

theorem isAuthority_name {cs : List Char} (allowed : ∀ c ∈ cs, isAuthorityChar c = true)
    (delimited : WrittenHost.Delimited (.name cs)) : isAuthority cs = true := by
  have ordinary : ∀ c ∈ cs, (isAuthorityChar c = true ∨ c = '%') ∧ c ∉ ['[', ']', '@'] :=
    fun c member => ⟨.inl (allowed c member), fun sign => delimited c member
      (List.mem_cons_of_mem ':' (List.mem_append_left ['/', '?', '#'] sign))⟩
  have colons : cs.count ':' = 0 :=
    List.count_eq_zero.mpr fun member => delimited ':' member (by decide)
  have percent : cs.contains '%' = false := by
    rw [← Bool.not_eq_true, List.contains_iff_mem]
    intro member
    cases allowed '%' member
  rw [isAuthority, scan_ordinary ordinary {} rfl (by rw [colons]; decide), colons, percent]
  rfl

theorem isAuthority_literal {inside : List Char}
    (allowed : ∀ c ∈ inside, isAuthorityChar c = true ∨ c = '%')
    (few : inside.count ':' ≤ maxColons) (delimited : WrittenHost.Delimited (.literal inside)) :
    isAuthority ('[' :: inside ++ [']']) = true := by
  have ordinary : ∀ c ∈ inside, (isAuthorityChar c = true ∨ c = '%') ∧ c ∉ ['[', ']', '@'] :=
    fun c member => ⟨allowed c member, fun sign => delimited c member
      (List.mem_append_left ['/', '?', '#'] sign)⟩
  have opening : Scan.step {} '[' = some { opened := true } := rfl
  rw [isAuthority, List.cons_append, List.foldlM_cons, opening]
  simp only [Option.bind_eq_bind, Option.bind_some, List.foldlM_append,
    scan_ordinary ordinary { opened := true } rfl (by simpa using few)]
  rfl

/-- Whatever was noted of user information is forgotten at its at-sign. -/
theorem isAuthority_behind {info hostPort : List Char}
    (ordinary : ∀ c ∈ info, (isAuthorityChar c = true ∨ c = '%') ∧ c ∉ ['[', ']', '@'])
    (few : info.count ':' ≤ maxColons) (nonempty : hostPort ≠ []) :
    isAuthority (info ++ '@' :: hostPort) = isAuthority hostPort := by
  obtain ⟨c, rest, rfl⟩ := List.exists_cons_of_ne_nil nonempty
  have sign (scan : Scan) : scan.step '@' =
      some { scan with colons := 0, percent := false, atSign := true } := rfl
  have forgotten : Scan.step { atSign := true } c = Scan.step {} c := rfl
  rw [isAuthority, List.foldlM_append, scan_ordinary ordinary {} rfl (by simpa using few)]
  simp only [Option.bind_eq_bind, Option.bind_some, List.foldlM_cons, sign]
  rw [forgotten, isAuthority, List.foldlM_cons]
  rfl

theorem Legal.isHost (legal : site.Legal) (delimited : site.Delimited) :
    isHost site.host.text = true := by
  have apart := delimited.host
  have bare : '@' ∉ site.host.text ++ portText none := by
    have none := delimited.not_mem (c := '@') (by decide)
    rw [hostPort, List.mem_append, not_or] at none
    simpa [portText] using none.1
  have alone := WrittenHost.hostOf_hostPort apart bare
  rw [portText, List.append_nil] at alone
  rw [Uri.isHost, alone, BEq.rfl, Bool.and_true]
  cases host : site.host with
  | name cs =>
      rw [host] at apart
      exact isAuthority_name (legal.name cs host) apart
  | literal inside =>
      rw [host] at apart
      exact isAuthority_literal (legal.literal inside host).1 (legal.literal inside host).2 apart

theorem Legal.isAuthority (legal : site.Legal) (delimited : site.Delimited) :
    isAuthority site.text = true := by
  have host := legal.isHost delimited
  have hostPort : Uri.isAuthority site.hostPort = true := by
    rw [Site.hostPort]
    cases port : site.port with
    | none =>
        rw [Uri.isHost, Bool.and_eq_true] at host
        rw [portText, List.append_nil]
        exact host.1
    | some digits => exact isAuthority_ported host (delimited.port digits port)
  rw [text]
  split
  · exact hostPort
  · rename_i info given
    obtain ⟨ordinary, few⟩ := legal.userInfo info given
    rw [isAuthority_behind ordinary few legal.nonempty]
    exact hostPort

theorem Legal.ofText?_eq (legal : site.Legal) (delimited : site.Delimited) {path : String}
    {query : Option String} (readable : Readable path query)
    (ended : ∀ c ∈ (withQuery path query).toList.head?, endsAuthority c = true) {written : String}
    (whole : written.toList = "http://".toList ++ (site.text ++ (withQuery path query).toList))
    (fits : written.utf8ByteSize ≤ maxLength) :
    ofText? written = some (.absolute "http" (String.ofList site.text) path query) := by
  have authority := legal.isAuthority delimited
  have nonempty : site.text.isEmpty = false := by
    rw [List.isEmpty_eq_false_iff]
    exact fun empty => legal.nonempty (List.sublist_nil.mp (empty ▸ site.hostPort_sublist))
  have reads := delimited.readFull_eq ended
  rw [nonempty, authority, readable.pathQuery?_eq] at reads
  rw [ofText?_of_scheme whole, if_neg (Nat.not_lt.mpr fits)]
  exact reads

/-! ## The domain of a request -/

theorem Delimited.resolve_target (delimited : site.Delimited)
    (solid : ∀ c ∈ site.hostPort, isBlank c = false) {uri : Uri}
    (named : uri.host? = some (String.ofList site.host.text)) (headers : Headers) :
    Domain.resolve uri headers = site.host.domain? := by
  have alone : ∀ c ∈ site.host.text ++ portText none, isBlank c = false := by
    intro c member
    rw [portText, List.append_nil] at member
    exact solid c (List.mem_append_left _ member)
  have stripped := WrittenHost.stripPortChars_hostPort delimited.host (by simp) alone
  rw [portText, List.append_nil] at stripped
  rw [Domain.resolve, named]
  refine WrittenHost.ofHost?_of_bare ?_
  rw [String.toList_ofList]
  exact stripped

theorem Delimited.resolve_field (delimited : site.Delimited)
    (solid : ∀ c ∈ site.hostPort, isBlank c = false) (plain : Plain site.hostPort) {uri : Uri}
    (hostless : uri.host? = none) {headers : Headers}
    (asked : headers.get? "host" = some (Bytes.ofText (String.ofList site.hostPort))) :
    Domain.resolve uri headers = site.host.domain? := by
  have text : headers.text? "host" = some (String.ofList site.hostPort) := by
    rw [Headers.text?, asked, Option.bind_some,
      Bytes.asText?_ofText (by rwa [String.toList_ofList])]
  rw [Domain.resolve_of_hostless hostless, Domain.named?, text, Option.bind_some]
  refine WrittenHost.ofHost?_of_bare ?_
  rw [String.toList_ofList]
  exact WrittenHost.stripPortChars_hostPort delimited.host delimited.port solid

end Site

namespace Domain

open Uri

/-- A target in absolute form that is read, with whatever fields, is for the domain of its host, and
so is a target in origin form with that host and port in its field `host`.  Every target is read
whose parts the reader takes where they stand. -/
theorem resolve_either_form (site : Site) (delimited : site.Delimited) (rest : List Char)
    (ended : ∀ c ∈ rest.head?, endsAuthority c = true) (written : String)
    (whole : written.toList = "http://".toList ++ (site.text ++ rest)) :
    (∀ uri, ofText? written = some uri → ∀ headers asks : Headers, ∀ path query,
      asks.get? "host" = some (Bytes.ofText (String.ofList site.hostPort)) →
        resolve uri headers = resolve (.rooted path query) asks ∧
          resolve (.rooted path query) asks = site.host.domain?) ∧
    (site.Legal → written.utf8ByteSize ≤ maxLength → ∀ path query, Readable path query →
      rest = (withQuery path query).toList →
        ofText? written =
          some (.absolute "http" (String.ofList site.text) path query)) := by
  refine ⟨fun uri read headers asks path query asked => ?_,
    fun legal fits path query readable same => ?_⟩
  · obtain ⟨authority, named⟩ := delimited.host_of_read ended whole read
    have plain : Plain site.hostPort :=
      (plain_of_isAuthority authority).sublist site.hostPort_sublist
    have solid : ∀ c ∈ site.hostPort, isBlank c = false := fun c member =>
      forall_of_isAuthority (fun _ _ _ step => isBlank_of_scanned step) authority c
        (site.hostPort_sublist.mem member)
    have inTarget := delimited.resolve_target solid named headers
    have inField : resolve (.rooted path query) asks = site.host.domain? :=
      delimited.resolve_field solid plain rfl asked
    exact ⟨inTarget.trans inField.symm, inField⟩
  · subst same
    exact legal.ofText?_eq delimited readable ended whole fits

/-- A literal in capitals with a dot at its end, behind user information and in front of a port
without digits. -/
theorem literal_names_itself_in_either_form :
    let site : Site := ⟨some "u:p%40".toList, .literal "2001:DB8::1.".toList, some []⟩
    let uri : Uri := .absolute "http" "u:p%40@[2001:DB8::1.]:" "/page" none
    let headers : Headers := [⟨"host", Bytes.ofText "other.org"⟩]
    let asks : Headers := [⟨"host", Bytes.ofText "[2001:DB8::1.]:"⟩]
    site.Delimited ∧ site.Legal ∧ ofText? "http://u:p%40@[2001:DB8::1.]:/page" = some uri ∧
      resolve uri headers = some "2001:db8::1" ∧
      resolve (.rooted "/" none) asks = some "2001:db8::1" := by
  intro site uri headers asks
  have delimited : site.Delimited := by
    refine ⟨?_, ?_, ?_⟩
    · rintro info ⟨⟩
      simp
    · simp [site, WrittenHost.Delimited]
    · rintro digits ⟨⟩
      simp
  have legal : site.Legal := by
    have info : ∀ c ∈ "u:p%40".toList, (isAuthorityChar c || c == '%') = true :=
      List.all_eq_true.mp rfl
    have inside : ∀ c ∈ "2001:DB8::1.".toList, isAuthorityChar c = true :=
      List.all_eq_true.mp rfl
    refine ⟨?_, ?_, ?_, by decide⟩
    · rintro _ ⟨⟩
      have unbracketed : ∀ c ∈ "u:p%40".toList, c ∉ ['[', ']', '@'] := by simp
      refine ⟨fun c member => ⟨?_, unbracketed c member⟩, by decide⟩
      simpa using info c member
    · rintro cs ⟨⟩
    · rintro _ ⟨⟩
      exact ⟨fun c member => .inl (inside c member), by decide⟩
  have ended : ∀ c ∈ "/page".toList.head?, endsAuthority c = true := by
    rintro c ⟨⟩
    rfl
  have readable : Readable "/page" none := ⟨List.all_eq_true.mp rfl, by simp⟩
  obtain ⟨same, reads⟩ := resolve_either_form site delimited "/page".toList ended
    "http://u:p%40@[2001:DB8::1.]:/page" (by decide)
  have read := reads legal (by decide) "/page" none readable rfl
  obtain ⟨both, named⟩ := same uri read headers asks "/" none (by decide)
  have domain : site.host.domain? = some "2001:db8::1" := by decide
  exact ⟨delimited, legal, read, (both.trans named).trans domain, named.trans domain⟩

end Domain

end CachingProxy
